import Mathlib.Data.List.TakeWhile
import CommentTags.Text.Blank
import CommentTags.Text.Cursor

/- A run of characters of one class lasts until a character outside the class or the end of the
   text. So there is only one way to split a text into a run and a rest that cannot extend it. -/
namespace CommentTags
open Unicode

def Stops (belongs : Char → Bool) (rest : List Char) : Prop :=
  ∀ c ∈ rest.head?, belongs c = false

def Blank (text : List Char) : Prop := ∀ c ∈ text, isWhiteSpace c = true

instance (text : List Char) : Decidable (Blank text) :=
  decidable_of_iff (text.all isWhiteSpace = true) List.all_eq_true

theorem blank_nil : Blank [] := by decide

theorem blank_cons {c : Char} {blanks : List Char} (white : isWhiteSpace c = true)
    (blank : Blank blanks) : Blank (c :: blanks) := by
  intro d member
  rcases List.mem_cons.mp member with rfl | further
  · exact white
  · exact blank d further

theorem blank_append {blanks more : List Char} (blank : Blank blanks) (further : Blank more) :
    Blank (blanks ++ more) :=
  List.forall_mem_append.mpr ⟨blank, further⟩

theorem stops_nil (belongs : Char → Bool) : Stops belongs [] := by simp [Stops]

theorem stops_cons_iff (belongs : Char → Bool) (c : Char) (rest : List Char) :
    Stops belongs (c :: rest) ↔ belongs c = false := by simp [Stops]

theorem stops_narrow {narrow wide : Char → Bool} {rest : List Char}
    (within : ∀ c, narrow c = true → wide c = true) (stops : Stops wide rest) :
    Stops narrow rest := by
  intro c first
  have outside := stops c first
  cases inside : narrow c with
  | false => rfl
  | true => simp [within c inside] at outside

theorem takeWhile_run {belongs : Char → Bool} {run rest : List Char}
    (inside : ∀ c ∈ run, belongs c = true) (stops : Stops belongs rest) :
    (run ++ rest).takeWhile belongs = run := by
  rw [List.takeWhile_append_of_pos inside]
  cases rest with
  | nil => simp
  | cons c rest =>
    have outside := (stops_cons_iff belongs c rest).mp stops
    simp [outside]

theorem dropWhile_run {belongs : Char → Bool} {run rest : List Char}
    (inside : ∀ c ∈ run, belongs c = true) (stops : Stops belongs rest) :
    (run ++ rest).dropWhile belongs = rest := by
  rw [List.dropWhile_append_of_pos inside]
  cases rest with
  | nil => rfl
  | cons c rest =>
    have outside := (stops_cons_iff belongs c rest).mp stops
    simp [outside]

theorem run_unique {belongs : Char → Bool} {run other rest later : List Char}
    (inside : ∀ c ∈ run, belongs c = true) (stops : Stops belongs rest)
    (inside' : ∀ c ∈ other, belongs c = true) (stops' : Stops belongs later)
    (same : run ++ rest = other ++ later) : run = other ∧ rest = later := by
  constructor
  · rw [← takeWhile_run inside stops, same, takeWhile_run inside' stops']
  · rw [← dropWhile_run inside stops, same, dropWhile_run inside' stops']

theorem others_inside {mark : Char} {text : List Char} (free : mark ∉ text) :
    ∀ c ∈ text, (c != mark) = true := by
  intro c member
  have other : c ≠ mark := fun same => free (same ▸ member)
  simpa using other

theorem dropWhile_stops (belongs : Char → Bool) (text : List Char) :
    Stops belongs (text.dropWhile belongs) := by
  intro c first
  have outside := List.head?_dropWhile_not belongs text
  simp only [Option.mem_def] at first
  simpa [first] using outside

/-- The text is empty or its last character is no white space. -/
def Trimmed (text : List Char) : Prop := ∀ c ∈ text.getLast?, isWhiteSpace c = false

theorem trimEnd_trimmed (text : List Char) : Trimmed (trimEnd text) := by
  intro c last
  simp only [trimEnd, List.getLast?_reverse] at last
  exact dropWhile_stops isWhiteSpace text.reverse c last

theorem trimEnd_of_trimmed {text : List Char} (trimmed : Trimmed text) : trimEnd text = text := by
  have stops : Stops isWhiteSpace text.reverse := by
    intro c first
    rw [List.head?_reverse] at first
    exact trimmed c first
  have kept : ([] ++ text.reverse).dropWhile isWhiteSpace = text.reverse :=
    dropWhile_run (by simp) stops
  rw [List.nil_append] at kept
  rw [trimEnd, kept, List.reverse_reverse]

theorem trimEnd_append (text : List Char) :
    ∃ blanks, Blank blanks ∧ text = trimEnd text ++ blanks := by
  refine ⟨(text.reverse.takeWhile isWhiteSpace).reverse, ?_, ?_⟩
  · intro c member
    exact List.mem_takeWhile_imp (List.mem_reverse.mp member)
  · rw [trimEnd, ← List.reverse_append, List.takeWhile_append_dropWhile, List.reverse_reverse]

theorem trimEnd_behind {front : List Char} (trimmed : Trimmed front) (text : List Char) :
    trimEnd (front ++ text) = front ++ trimEnd text := by
  have kept : (front.reverse.dropWhile isWhiteSpace).reverse = front := trimEnd_of_trimmed trimmed
  rw [trimEnd, trimEnd, List.reverse_append, List.dropWhile_append]
  split
  · rename_i nothing
    rw [List.isEmpty_iff.mp nothing, kept]
    simp
  · rw [List.reverse_append, List.reverse_reverse]

theorem trimEnd_blank {blanks : List Char} (blank : Blank blanks) : trimEnd blanks = [] := by
  have inside : ∀ c ∈ blanks.reverse, isWhiteSpace c = true := by
    intro c member
    exact blank c (List.mem_reverse.mp member)
  have nothing := dropWhile_run inside (stops_nil _)
  rw [List.append_nil] at nothing
  rw [trimEnd, nothing, List.reverse_nil]

theorem trimEnd_append_blank (text : List Char) {blanks : List Char} (blank : Blank blanks) :
    trimEnd (text ++ blanks) = trimEnd text := by
  obtain ⟨more, blankEnd, split⟩ := trimEnd_append text
  conv => lhs; rw [split]
  rw [List.append_assoc, trimEnd_behind (trimEnd_trimmed text),
    trimEnd_blank (blank_append blankEnd blank), List.append_nil]

theorem trimmed_suffix {front back : List Char} (trimmed : Trimmed (front ++ back)) :
    Trimmed back := by
  intro c last
  apply trimmed c
  simp only [Option.mem_def] at last ⊢
  simp [List.getLast?_append, last]

def EndsDark (text : List Char) : Prop := ∃ c, text.getLast? = some c ∧ isWhiteSpace c = false

theorem EndsDark.trimmed {text : List Char} (dark : EndsDark text) : Trimmed text := by
  obtain ⟨c, last, dark⟩ := dark
  intro d member
  obtain rfl : c = d := by simpa [last] using member
  exact dark

theorem Trimmed.endsDark {text : List Char} (trimmed : Trimmed text) (something : text ≠ []) :
    EndsDark text := by
  cases last : text.getLast? with
  | none => exact absurd (List.getLast?_eq_none_iff.mp last) something
  | some c => exact ⟨c, last, trimmed c last⟩

theorem endsDark_append (front : List Char) {back : List Char} (dark : EndsDark back) :
    EndsDark (front ++ back) := by
  obtain ⟨c, last, dark⟩ := dark
  exact ⟨c, by simp [List.getLast?_append, last], dark⟩

/-- What stands in front of a text is kept if the text holds more than blanks. -/
theorem trimEnd_front (front : List Char) {text : List Char} (something : trimEnd text ≠ []) :
    trimEnd (front ++ text) = front ++ trimEnd text := by
  obtain ⟨blanks, blank, split⟩ := trimEnd_append text
  have dark : EndsDark (front ++ trimEnd text) :=
    endsDark_append front ((trimEnd_trimmed text).endsDark something)
  conv => lhs; rw [split]
  rw [← List.append_assoc, trimEnd_append_blank _ blank, trimEnd_of_trimmed dark.trimmed]

theorem endsDark_of_dark {text : List Char} (something : text ≠ [])
    (dark : ∀ c ∈ text, isWhiteSpace c = false) : EndsDark text :=
  Trimmed.endsDark (fun c last => dark c (List.mem_of_getLast? last)) something

namespace Cursor

@[simp] theorem move_rest (here : Cursor) (passed rest : List Char) :
    (here.move passed rest).rest = rest := rfl

theorem move_move (here : Cursor) (first second middle rest : List Char) :
    (here.move first middle).move second rest = here.move (first ++ second) rest := by
  simp [move, Position.after_append]

theorem move_nothing {here : Cursor} {rest : List Char} (unread : here.rest = rest) :
    here.move [] rest = here := by
  cases here
  simp_all [move]

theorem skip_eq_move {here : Cursor} {c : Char} {rest : List Char} (front : here.rest = c :: rest) :
    here.skip = here.move [c] rest := by
  simp [skip, next, front]

end Cursor
end CommentTags
