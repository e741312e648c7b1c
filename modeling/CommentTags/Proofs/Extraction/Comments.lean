import CommentTags.Proofs.Extraction.Batch
import CommentTags.Proofs.Tag.Comments

/- A comment behind a tag line. The reader of tags drops it, but the identifier of a line is cut out
   before: it ends at a parenthesis or an equals sign, and where there is neither the comment is
   taken for a part of the identifier. -/
namespace CommentTags
open Unicode

def EndsIdentifier (marker line : String) : Prop :=
  ∃ marked, trim line.toList = marker.toList ++ marked ∧ ∃ c ∈ marked, endsIdentifier c = true

theorem trim_commented {text : List Char} (something : trim text ≠ []) (comment : List Char) :
    ∃ blanks, Blank blanks ∧ blanks ≠ [] ∧ trim (text ++ ' ' :: commentText (some comment)) =
      trim text ++ (blanks ++ commentText (some (trimEnd comment))) := by
  obtain ⟨blanks, blank, split⟩ := trimEnd_append (trimStart text)
  have inside : trimStart text ≠ [] := fun nothing => something (by rw [trim, nothing]; rfl)
  refine ⟨blanks ++ [' '], blank_append blank (by decide), by simp, ?_⟩
  have marked : EndsDark (trim text ++ (blanks ++ [' ', '/', '/'])) :=
    endsDark_append _ (endsDark_append _ ⟨'/', by decide⟩)
  have started : trimStart (text ++ ' ' :: commentText (some comment)) =
      trim text ++ (blanks ++ [' ', '/', '/']) ++ comment := by
    unfold trimStart at inside split ⊢
    rw [List.dropWhile_append, if_neg (by simpa using inside)]
    conv => lhs; rw [split]
    simp [trim, trimStart, commentText]
  rw [trim, started, trimEnd_behind marked.trimmed]
  simp [commentText]

section Marked
variable {marked : List Char}

theorem takeWhile_ended (ended : ∃ c ∈ marked, endsIdentifier c = true) (more : List Char) :
    (marked ++ more).takeWhile (!endsIdentifier ·) = marked.takeWhile (!endsIdentifier ·) := by
  induction marked with
  | nil => simp at ended
  | cons c marked ih =>
    by_cases first : endsIdentifier c = true
    · simp [first]
    · obtain ⟨d, member, ends⟩ := ended
      have further : d ∈ marked := by
        rcases List.mem_cons.mp member with rfl | further
        · exact absurd ends first
        · exact further
      simp [first, ih ⟨d, further, ends⟩]

theorem markedIdentifier_ended (ended : ∃ c ∈ marked, endsIdentifier c = true)
    (more : List Char) : markedIdentifier (marked ++ more) = markedIdentifier marked := by
  rw [markedIdentifier, takeWhile_ended ended, markedIdentifier]

theorem unended_inside (unended : ∀ c ∈ marked, endsIdentifier c = false) :
    ∀ c ∈ marked, (!endsIdentifier c) = true := by
  intro c member
  simp [unended c member]

section Commented
variable {blanks : List Char} (blank : Blank blanks) (comment : List Char)
include blank

theorem takeWhile_commented (unended : ∀ c ∈ marked, endsIdentifier c = false) :
    (marked ++ (blanks ++ commentText (some comment))).takeWhile (!endsIdentifier ·) =
      marked ++ (blanks ++ '/' :: '/' :: comment.takeWhile (!endsIdentifier ·)) := by
  have insideBlanks : ∀ c ∈ blanks, (!endsIdentifier c) = true := by
    intro c member
    exact unended_of_class (by decide) (by decide) (blank c member)
  rw [List.takeWhile_append_of_pos (unended_inside unended),
    List.takeWhile_append_of_pos insideBlanks]
  rfl

/-- An identifier without an end takes in the comment mark, which is longer than the one colon that
    the text of an identifier may lack. -/
theorem markedIdentifier_longer (unended : ∀ c ∈ marked, endsIdentifier c = false) :
    (markedIdentifier marked).text.toList.length <
      (markedIdentifier (marked ++ (blanks ++ commentText (some comment)))).text.toList.length := by
  have alone : marked.takeWhile (!endsIdentifier ·) = marked := by
    have run := takeWhile_run (unended_inside unended) (stops_nil _)
    rwa [List.append_nil] at run
  have shorter := (Identifier.text_length marked).1
  have longer := (Identifier.text_length
    (marked ++ (blanks ++ '/' :: '/' :: comment.takeWhile (!endsIdentifier ·)))).2
  rw [markedIdentifier, markedIdentifier, alone, takeWhile_commented blank comment unended]
  simp only [List.length_append, List.length_cons] at longer
  omega

theorem markedIdentifier_commented_iff :
    markedIdentifier (marked ++ (blanks ++ commentText (some comment))) =
      markedIdentifier marked ↔ ∃ c ∈ marked, endsIdentifier c = true := by
  constructor
  · intro same
    by_cases ended : ∃ c ∈ marked, endsIdentifier c = true
    · exact ended
    · have longer := markedIdentifier_longer blank comment (by simpa using ended)
      rw [same] at longer
      exact absurd longer (Nat.lt_irrefl _)
  · exact fun ended => markedIdentifier_ended ended _

end Commented
end Marked

namespace TagLine

theorem ofMarked_ended_body {marked : List Char} (ended : ∃ c ∈ marked, endsIdentifier c = true)
    (index offset offset' : Nat) (more : List Char) :
    (ofMarked index offset (marked ++ more)).body =
      String.ofList ((ofMarked index offset' marked).body.toList ++ more) := by
  have inside := (marked_starts_with_lead marked).length_le
  simp only [ofMarked, markedIdentifier_ended ended, String.toList_ofList]
  rw [List.drop_append_of_le_length inside]

theorem inGroup_eq {line other : TagLine} (same : line.identifier = other.identifier)
    (group : Option String) : line.inGroup group = other.inGroup group := by
  unfold inGroup
  rw [same]

section Comments
variable {marker text : String}

theorem ofLine?_commented (index : Nat) {marked : List Char}
    (split : trim text.toList = marker.toList ++ marked) (something : marked ≠ [])
    (comment : String) :
    ∃ blanks offset, Blank blanks ∧ blanks ≠ [] ∧
      ofLine? marker index (text ++ " //" ++ comment) = some (ofMarked index offset
        (marked ++ (blanks ++ commentText (some (trimEnd comment.toList))))) := by
  have inside : trim text.toList ≠ [] := by simp [split, something]
  obtain ⟨blanks, blank, apart, longer⟩ := trim_commented inside comment.toList
  refine ⟨blanks, _, blank, apart, ofLine?_eq_some_iff.mpr ⟨_, ?_, rfl⟩⟩
  have whole : (text ++ " //" ++ comment).toList =
      text.toList ++ ' ' :: commentText (some comment.toList) := by
    simp [commentText]
  rw [whole, longer, split, List.append_assoc]

end Comments
end TagLine

section Comments
variable {options : Options} {marker : String} {group : Option String} {text : String}
  {parsed : Keyed Identifier (List Tag)}

theorem endsIdentifier_iff {marked : List Char}
    (split : trim text.toList = marker.toList ++ marked) :
    EndsIdentifier marker text ↔ ∃ c ∈ marked, endsIdentifier c = true := by
  constructor
  · rintro ⟨other, split', ended⟩
    obtain rfl := List.append_cancel_left (split'.symm.trans split)
    exact ended
  · exact fun ended => ⟨marked, split, ended⟩

/-- What is read of a line stays as it was with a comment behind it exactly if the identifier of
    the line ends at a parenthesis or an equals sign. -/
theorem extractTags_commented_iff (normal : options.raw = false)
    (read : extractTags options marker group [text] = .ok parsed) (something : parsed ≠ [])
    (comment : String) :
    extractTags options marker group [text ++ " //" ++ comment] = .ok parsed ↔
      EndsIdentifier marker text := by
  obtain ⟨line, tag, accepted, spelled, rfl⟩ := (extractTags_single_iff something).mp read
  obtain ⟨found, inGroup⟩ := TagLine.accept?_eq_some_iff.mp accepted
  obtain ⟨-, -, -, -, -, trimmed⟩ := TagLine.ofLine?_parts found
  have body := Tag.trimEnd_ne_nil_of_parse spelled
  rw [trimEnd_of_trimmed trimmed] at body
  obtain ⟨marked, split, rfl⟩ := TagLine.ofLine?_eq_some_iff.mp found
  have inside : marked ≠ [] := by
    rintro rfl
    simp [TagLine.ofMarked] at body
  obtain ⟨blanks, offset, blank, apart, found'⟩ :=
    TagLine.ofLine?_commented 0 split inside comment
  rw [endsIdentifier_iff split, ← markedIdentifier_commented_iff blank (trimEnd comment.toList)]
  constructor
  · intro same
    obtain ⟨_, _, accepted', -, moved⟩ := (extractTags_single_iff something).mp same
    obtain rfl := Option.some.inj (found'.symm.trans (TagLine.accept?_eq_some_iff.mp accepted').1)
    exact (Prod.mk.inj (List.cons.inj moved).1).1.symm
  · intro kept
    have ended := (markedIdentifier_commented_iff blank _).mp kept
    have spelled' := Tag.parse_commented normal spelled blank apart (trimEnd comment.toList)
    rw [trimEnd_of_trimmed trimmed, ← TagLine.ofMarked_ended_body ended 0 offset] at spelled'
    have accepted' := TagLine.accept?_eq_some_iff.mpr
      ⟨found', (TagLine.inGroup_eq kept group).trans inGroup⟩
    have filed := congrArg (fun id => [(id, [tag])]) kept.symm
    exact (extractTags_single_iff something).mpr ⟨_, tag, accepted', spelled', filed⟩

theorem valued_line_commented :
    let parsed : Keyed Identifier (List Tag) :=
      [(⟨"g", "k"⟩, [.single ⟨"k", []⟩ (.scalar (.int "1" 1))])]
    extractTags {} "+" none [" +g:k=1"] = .ok parsed ∧
      extractTags {} "+" none [" +g:k=1" ++ " //" ++ " was h:k=2"] = .ok parsed := by
  intro parsed
  have read : extractTags {} "+" none [" +g:k=1"] = .ok parsed := by
    decide +kernel
  have ended : EndsIdentifier "+" " +g:k=1" := ⟨"g:k=1".toList, by decide +kernel, '=', by decide⟩
  have commented := extractTags_commented_iff rfl read (by simp [parsed]) " was h:k=2"
  exact ⟨read, commented.mpr ended⟩

theorem bare_name_takes_comment :
    extractTags {} "+" none ["+a"] = .ok [(⟨"", "a"⟩, [.single ⟨"a", []⟩ .none])] ∧
      extractTags {} "+" none ["+a" ++ " //" ++ " see g:b"] =
        .ok [(⟨"a // see g", "b"⟩, [.single ⟨"b", []⟩ .none])] := by
  constructor
  · decide +kernel
  · decide +kernel

end Comments
end CommentTags
