import CommentTags.Proofs.Extraction.Lines
import CommentTags.Proofs.Identifier

/- The parts of a tag line: blanks, the marker, the group, the body, and blanks again. Nothing else
   stands between them, so the body is found behind what its offset counts. -/
namespace CommentTags
open Unicode

theorem stripFront_eq_some_iff {front text rest : List Char} :
    stripFront front text = some rest ↔ text = front ++ rest := by
  induction front generalizing text with
  | nil => simp [stripFront]
  | cons a front ih =>
    cases text with
    | nil => simp [stripFront]
    | cons c text =>
      by_cases same : a = c
      · simp [stripFront, same, ih]
      · simp [stripFront, same, Ne.symm same]

theorem trim_parts (text : List Char) :
    ∃ blanks, Blank blanks ∧ text = indent text ++ (trim text ++ blanks) := by
  obtain ⟨blanks, blank, split⟩ := trimEnd_append (trimStart text)
  refine ⟨blanks, blank, ?_⟩
  rw [trim, ← split, indent_append_trimStart]

def markedIdentifier (marked : List Char) : Identifier :=
  .ofChars (marked.takeWhile (!endsIdentifier ·))

theorem unended_of_class {belongs : Char → Bool} (parenthesis : belongs '(' = false)
    (equals : belongs '=' = false) {c : Char} (inside : belongs c = true) :
    (!endsIdentifier c) = true := by
  cases ends : endsIdentifier c with
  | false => rfl
  | true =>
    have sign : c = '(' ∨ c = '=' := by simpa [endsIdentifier] using ends
    rcases sign with same | same
    · rw [same, parenthesis] at inside
      exact absurd inside Bool.false_ne_true
    · rw [same, equals] at inside
      exact absurd inside Bool.false_ne_true

theorem marked_starts_with_lead (marked : List Char) :
    (markedIdentifier marked).lead.toList <+: marked :=
  (Identifier.starts_with_lead _).trans (List.takeWhile_prefix _)

namespace TagLine

def ofMarked (index offset : Nat) (marked : List Char) : TagLine where
  index := index
  bodyOffset := offset + byteLength (markedIdentifier marked).lead.toList
  identifier := markedIdentifier marked
  body := String.ofList (marked.drop (markedIdentifier marked).lead.toList.length)

section Parts
variable {marker : String} {index : Nat} {text : String} {line : TagLine}

theorem ofLine?_eq_some_iff : ofLine? marker index text = some line ↔
    ∃ marked, trim text.toList = marker.toList ++ marked ∧ line =
      ofMarked index (byteLength (indent text.toList) + byteLength marker.toList) marked := by
  unfold ofLine?
  constructor
  · intro found
    split at found
    · simp at found
    · rename_i marked stripped
      exact ⟨marked, stripFront_eq_some_iff.mp stripped, (Option.some.inj found).symm⟩
  · rintro ⟨marked, split, rfl⟩
    rw [stripFront_eq_some_iff.mpr split]
    rfl

theorem ofMarked_parts (index offset : Nat) (marked : List Char) :
    (ofMarked index offset marked).identifier.lead.toList ++
      (ofMarked index offset marked).body.toList = marked := by
  have parts := List.prefix_iff_eq_append.mp (marked_starts_with_lead marked)
  simpa [ofMarked] using parts

/-- The offset of the body counts all that stands in front of it. -/
theorem ofLine?_parts (found : ofLine? marker index text = some line) :
    ∃ front blanks, text.toList = front ++ (line.body.toList ++ blanks) ∧ Blank blanks ∧
      byteLength front = line.bodyOffset ∧ Trimmed line.body.toList := by
  obtain ⟨marked, split, rfl⟩ := ofLine?_eq_some_iff.mp found
  obtain ⟨blanks, blank, whole⟩ := trim_parts text.toList
  let offset := byteLength (indent text.toList) + byteLength marker.toList
  have parts := ofMarked_parts index offset marked
  refine ⟨indent text.toList ++ (marker.toList ++ (markedIdentifier marked).lead.toList), blanks,
    ?_, blank, ?_, ?_⟩
  · conv => lhs; rw [whole, split, ← parts]
    simp [ofMarked]
  · simp [ofMarked, Nat.add_assoc]
  · have trimmed : Trimmed (trim text.toList) := trimEnd_trimmed _
    rw [split, ← parts] at trimmed
    exact trimmed_suffix (trimmed_suffix trimmed)

end Parts
end TagLine
end CommentTags
