import CommentTags.Proofs.Tag.Spelling

/- The characters that a written part may begin with. They tell the reader where the part in front
   of it ends. -/
namespace CommentTags
open Unicode

def startsScalar (c : Char) : Bool := startsInteger c || startsQuoted c || isNameStart c

theorem scalar_starts {spelling : ScalarSpelling} (valid : spelling.Valid) :
    ∃ c tail, spelling.text = c :: tail ∧ startsScalar c = true := by
  cases spelling with
  | integer literal value =>
    obtain ⟨c, tail, text, starts⟩ := integer_starts valid.1
    exact ⟨c, tail, text, by simp [startsScalar, starts]⟩
  | quoted items => exact ⟨'"', _, rfl, by decide⟩
  | verbatim content => exact ⟨'`', _, rfl, by decide⟩
  | bare name =>
    cases name with
    | nil => exact valid.elim
    | cons c tail => exact ⟨c, tail, rfl, by simp [startsScalar, valid.1]⟩

theorem starts_scalar_not_white {c : Char} (starts : startsScalar c = true) :
    isWhiteSpace c = false := by
  simp only [startsScalar, startsInteger, startsQuoted, Bool.or_eq_true, beq_iff_eq] at starts
  rcases starts with (((rfl | rfl) | digit) | (rfl | rfl)) | start
  · decide
  · decide
  · have bounds : 48 ≤ c.toNat ∧ c.toNat ≤ 57 := by
      simpa [Char.isDigit, UInt32.le_iff_toNat_le] using digit
    exact name_interior_not_white (by simp [isNameInterior, numeric_digit bounds])
  · decide
  · decide
  · exact name_start_not_white start

theorem scalar_dark {spelling : ScalarSpelling} (valid : spelling.Valid) (rest : List Char) :
    Stops isWhiteSpace (spelling.text ++ rest) := by
  obtain ⟨c, tail, text, starts⟩ := scalar_starts valid
  rw [text]
  exact (stops_cons_iff _ _ _).mpr (starts_scalar_not_white starts)

theorem argument_starts {argument : ArgumentSpelling} (valid : argument.Valid) :
    ∃ c tail, argument.text = c :: tail ∧ startsScalar c = true := by
  cases argument with
  | positional value => exact scalar_starts valid
  | named name before behind value =>
    have bareValid : (ScalarSpelling.bare name).Valid := valid.1
    obtain ⟨c, tail, text, starts⟩ := scalar_starts bareValid
    exact ⟨c, tail ++ (before ++ ':' :: (behind ++ value.text)), by
      simp [ArgumentSpelling.text, show name = c :: tail from text], starts⟩

theorem argument_dark {argument : ArgumentSpelling} (valid : argument.Valid) (rest : List Char) :
    Stops isWhiteSpace (argument.text ++ rest) := by
  obtain ⟨c, tail, text, starts⟩ := argument_starts valid
  rw [text]
  exact (stops_cons_iff _ _ _).mpr (starts_scalar_not_white starts)

theorem blank_stops {belongs : Char → Bool} {blanks rest : List Char} (blank : Blank blanks)
    (dark : ∀ c, isWhiteSpace c = true → belongs c = false) (stops : Stops belongs rest) :
    Stops belongs (blanks ++ rest) := by
  cases blanks with
  | nil => exact stops
  | cons b blanks => exact (stops_cons_iff _ _ _).mpr (dark b (blank b (by simp)))

/-- The text goes on with another argument or closes the list. -/
def Separated (text : List Char) : Prop := ∃ c rest, text = c :: rest ∧ (c = ',' ∨ c = ')')

theorem later_text_separated (later : List Slot) (rest : List Char) :
    Separated (Slot.laterText later ++ rest) := by
  cases later with
  | nil => exact ⟨')', rest, rfl, .inr rfl⟩
  | cons slot later => exact ⟨',', _, rfl, .inl rfl⟩

theorem separated_stops {belongs : Char → Bool} {text : List Char} (separated : Separated text)
    (comma : belongs ',' = false) (close : belongs ')' = false) : Stops belongs text := by
  obtain ⟨c, rest, rfl, rfl | rfl⟩ := separated
  · exact (stops_cons_iff _ _ _).mpr comma
  · exact (stops_cons_iff _ _ _).mpr close

theorem separated_dark {text : List Char} (separated : Separated text) :
    Stops isWhiteSpace text := separated_stops separated (by decide) (by decide)

theorem comment_stops {belongs : Char → Bool} (slash : belongs '/' = false)
    (comment : Option (List Char)) : Stops belongs (commentText comment) := by
  cases comment with
  | none => exact stops_nil _
  | some comment => exact (stops_cons_iff _ _ _).mpr slash

section Blanks
variable {blanks : List Char} (blank : Blank blanks)
include blank

theorem separator_ends_name {text : List Char} (separated : Separated text) :
    Stops isNameInterior (blanks ++ text) :=
  blank_stops blank (fun _ => white_space_not_in_name)
    (separated_stops separated (by decide) (by decide))

theorem colon_ends_name (text : List Char) : Stops isNameInterior (blanks ++ ':' :: text) :=
  blank_stops blank (fun _ => white_space_not_in_name) ((stops_cons_iff _ _ _).mpr (by decide))

theorem comment_ends_name (comment : Option (List Char)) :
    Stops isNameInterior (blanks ++ commentText comment) :=
  blank_stops blank (fun _ => white_space_not_in_name) (comment_stops (by decide) comment)

end Blanks

theorem ending_stops {isRaw : Bool} {ending : Ending} (valid : ending.Valid isRaw) :
    Stops isTagNameInterior ending.text := by
  cases ending with
  | nothing => exact stops_nil _
  | blank blanks comment =>
    exact blank_stops valid.1 (fun _ => white_space_not_in_tag_name)
      (comment_stops (by decide) comment)
  | scalar | raw | link => exact (stops_cons_iff _ _ _).mpr (by decide)

theorem list_stops {isRaw : Bool} {ending : Ending} (list : ListSpelling)
    (valid : ending.Valid isRaw) : Stops isTagNameInterior (list.text ++ ending.text) := by
  cases list with
  | absent => exact ending_stops valid
  | empty | present => exact (stops_cons_iff _ _ _).mpr (by decide)

theorem head_starts {spelling : HeadSpelling} (valid : spelling.Valid) (rest : List Char) :
    ∃ c tail, spelling.text ++ rest = c :: tail ∧ isNameStart c = true := by
  have nameValid := valid.1
  cases name : spelling.name with
  | nil => simp [name, IsName] at nameValid
  | cons c tail =>
    rw [name] at nameValid
    exact ⟨c, tail ++ (spelling.list.text ++ rest), by simp [HeadSpelling.text, name], nameValid.1⟩

end CommentTags
