import CommentTags.Token.Scalar

/- A reader shows its errors in what it reads: the stretch at fault begins at or behind the cursor
   and ends behind a further part of the text. -/
namespace CommentTags

/-- The stretch of the error lies in what is left to read. -/
def Cursor.Shows (here : Cursor) (error : TagError) : Prop :=
  ∃ first last before shown, here.Passes before first ∧ first.Passes shown last ∧
    error.start = first.position ∧ error.stop = last.position

namespace Cursor

theorem shows_point (here : Cursor) (fault : Fault) :
    here.Shows ⟨fault, here.position, here.position⟩ :=
  ⟨here, here, [], [], passes_nothing here, passes_nothing here, rfl, rfl⟩

theorem shows_passed {here beyond : Cursor} {passed : List Char} (fault : Fault)
    (move : here.Passes passed beyond) : here.Shows ⟨fault, here.position, beyond.position⟩ :=
  ⟨here, beyond, [], passed, passes_nothing here, move, rfl, rfl⟩

theorem Shows.behind {here beyond : Cursor} {passed : List Char} {error : TagError}
    (move : here.Passes passed beyond) (shows : beyond.Shows error) : here.Shows error := by
  obtain ⟨first, last, before, shown, toFirst, toLast, start, stop⟩ := shows
  exact ⟨first, last, passed ++ before, shown, passes_append move toFirst, toLast, start, stop⟩

theorem shows_split {text : List Char} {error : TagError} (shows : (start text).Shows error) :
    ∃ before shown rest, text = before ++ (shown ++ rest) ∧
      error.start = Position.start.after before ∧
      error.stop = Position.start.after (before ++ shown) := by
  obtain ⟨first, last, before, shown, toFirst, toLast, start, stop⟩ := shows
  refine ⟨before, shown, last.rest, ?_, ?_, ?_⟩
  · rw [← toLast.1]
    exact toFirst.1
  · rw [start]
    exact toFirst.2
  · rw [stop]
    exact (passes_append toFirst toLast).2

end Cursor

section Readers
variable {here : Cursor} {error : TagError}

theorem readName_shows {interior : Char → Bool}
    (failed : (readName interior here).result = .error error) : here.Shows error := by
  unfold readName at failed
  split at failed
  · rw [← Except.error.inj failed]
    exact here.shows_point _
  · split at failed
    · simp [Reading.read] at failed
    · rw [← Except.error.inj failed]
      exact here.shows_point _

theorem readInteger_shows (failed : (readInteger here).result = .error error) :
    here.Shows error := by
  have move := readInteger_passes here
  unfold readInteger at failed move
  simp only at failed move
  split at failed
  · rename_i nothing
    rw [if_pos nothing] at move
    rw [← Except.error.inj failed]
    exact Cursor.shows_passed _ move
  · simp [Reading.read] at failed

/-- The stretch of open text begins at the opening quote, the one of a bad escape does not. -/
theorem readEscaped_shows {opened : Cursor} {passed content rest : List Char} {place : Position}
    (opening : opened.Passes passed ⟨place, rest⟩)
    (failed : (readEscaped opened.position content place rest).result = .error error) :
    opened.Shows error := by
  have next {place : Position} {c : Char} {rest : List Char} :
      Cursor.Passes ⟨place, c :: rest⟩ [c] ⟨place.past c, rest⟩ := ⟨rfl, by simp⟩
  fun_induction readEscaped opened.position content place rest generalizing passed with
  | case1 content place =>
    rw [← Except.error.inj failed]
    exact Cursor.shows_passed _ opening
  | case2 => simp [Reading.read] at failed
  | case3 content place =>
    rw [← Except.error.inj failed]
    exact Cursor.shows_passed _ (Cursor.passes_append opening next)
  | case4 content place escaped later needed _ ih =>
    exact ih (Cursor.passes_append opening (Cursor.passes_append next next)) failed
  | case5 content place escaped later plain =>
    rw [← Except.error.inj failed]
    exact Cursor.Shows.behind (Cursor.passes_append opening next) (Cursor.shows_passed _ next)
  | case6 content place c rest notQuote notBackslash ih =>
    exact ih (Cursor.passes_append opening next) failed

theorem readVerbatim_shows {opened : Cursor} {passed : List Char}
    (opening : opened.Passes passed here)
    (failed : (readVerbatim opened.position here).result = .error error) : opened.Shows error := by
  have run := Cursor.takeRun_passes here (· != '`')
  unfold readVerbatim at failed
  simp only at failed
  split at failed
  · rw [← Except.error.inj failed]
    exact Cursor.shows_passed _ (Cursor.passes_append opening run)
  · simp [Reading.read] at failed

theorem readQuoted_shows (failed : (readQuoted here).result = .error error) :
    here.Shows error := by
  unfold readQuoted at failed
  split at failed
  · rename_i rest front
    have opening : here.Passes ['"'] ⟨here.position.past '"', rest⟩ := ⟨front, by simp⟩
    exact readEscaped_shows opening failed
  · rename_i rest front
    exact readVerbatim_shows (Cursor.skip_passes front) failed
  · rw [← Except.error.inj failed]
    exact here.shows_point _

theorem readIntegerToken_shows (failed : readIntegerToken here = .error error) :
    here.Shows error := by
  unfold readIntegerToken at failed
  split at failed
  · rename_i cause beyond outcome
    rw [← Except.error.inj failed]
    exact readInteger_shows (congrArg Reading.result outcome)
  · rename_i literal beyond outcome
    split at failed
    · have move := readInteger_passes here
      rw [outcome] at move
      rw [← Except.error.inj failed]
      exact Cursor.shows_passed _ move
    · simp at failed

theorem readQuotedToken_shows (failed : readQuotedToken here = .error error) :
    here.Shows error := by
  unfold readQuotedToken at failed
  split at failed
  · rename_i cause beyond outcome
    rw [← Except.error.inj failed]
    exact readQuoted_shows (congrArg Reading.result outcome)
  · simp at failed

theorem readNameToken_shows (failed : readNameToken here = .error error) :
    here.Shows error := by
  unfold readNameToken at failed
  split at failed
  · rename_i cause beyond outcome
    rw [← Except.error.inj failed]
    exact readName_shows (congrArg Reading.result outcome)
  · simp at failed

theorem readToken_shows {place : Place} (failed : readToken place here = .error error) :
    here.Shows error := by
  unfold readToken at failed
  split at failed
  · rw [← Except.error.inj failed]
    exact here.shows_point _
  · split at failed
    · exact readIntegerToken_shows failed
    · split at failed
      · exact readQuotedToken_shows failed
      · split at failed
        · exact readNameToken_shows failed
        · rw [← Except.error.inj failed]
          exact here.shows_point _

end Readers
end CommentTags
