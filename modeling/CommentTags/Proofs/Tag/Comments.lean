import CommentTags.Proofs.Tag.Grammar

/- What may stand around a tag. A comment behind it is dropped with the blanks in front of it, and
   one more comment only makes the one that stands there longer. In raw mode there are no comments
   behind a value. Blanks in front are skipped in both modes. -/
namespace CommentTags
open Unicode

def Ending.commented (blanks comment : List Char) : Ending → Ending
  | nothing => blank blanks (some comment)
  | blank before none => blank (before ++ blanks) (some comment)
  | blank before (some first) =>
    blank before (some (first ++ (blanks ++ commentText (some comment))))
  | scalar value before none => scalar value (before ++ blanks) (some comment)
  | scalar value before (some first) =>
    scalar value before (some (first ++ (blanks ++ commentText (some comment))))
  | raw text => raw (text ++ (blanks ++ commentText (some comment)))
  | link head ending => link head (ending.commented blanks comment)

namespace Ending
variable {blanks comment : List Char}

theorem commented_text (ending : Ending) :
    (ending.commented blanks comment).text =
      ending.text ++ (blanks ++ commentText (some comment)) := by
  induction ending with
  | nothing => rfl
  | blank before first => cases first <;> simp [commented, text, commentText]
  | scalar value before first => cases first <;> simp [commented, text, commentText]
  | raw written => simp [commented, text]
  | link head ending ih => simp [commented, text, ih]

theorem commented_valid {isRaw : Bool} {ending : Ending} (blank : Blank blanks)
    (apart : blanks ≠ []) (valid : ending.Valid isRaw) :
    (ending.commented blanks comment).Valid isRaw := by
  induction ending with
  | nothing => exact ⟨blank, apart⟩
  | blank before first =>
    cases first with
    | none => exact ⟨blank_append valid.1 blank, by simp [apart]⟩
    | some first => exact valid
  | scalar value before first =>
    cases first with
    | none => exact ⟨valid.1, valid.2.1, blank_append valid.2.2 blank⟩
    | some first => exact valid
  | raw written => exact ⟨valid.1, by simp [valid.2]⟩
  | link head ending ih => exact ⟨valid.1, valid.2.1, ih valid.2.2⟩

theorem commented_tag {ending : Ending} (valid : ending.Valid false) (first : Head) :
    (ending.commented blanks comment).tag first = ending.tag first := by
  induction ending generalizing first with
  | nothing => rfl
  | blank before there => cases there <;> rfl
  | scalar value before there => cases there <;> rfl
  | raw written => exact absurd valid.1 (by decide)
  | link head ending ih => simp only [commented, tag, ih valid.2.2]

end Ending

namespace Tag
variable {options : Options} {text : String} {tag : Tag}

theorem parse_commented (normal : options.raw = false) (parsed : parse options text = .ok tag)
    {blanks : List Char} (blank : Blank blanks) (apart : blanks ≠ []) (comment : List Char) :
    parse options (String.ofList (trimEnd text.toList ++ (blanks ++ commentText (some comment)))) =
      .ok tag := by
  obtain ⟨spelling, ⟨valid, written⟩, rfl, within⟩ := (parse_eq_ok_iff options text tag).mp parsed
  let longer : TagSpelling :=
    { spelling with ending := spelling.ending.commented blanks (trimEnd comment) }
  -- blanks behind the comment are trimmed, and those in front of its mark are not
  have marked : EndsDark (spelling.text ++ (blanks ++ ['/', '/'])) :=
    endsDark_append _ (endsDark_append _ ⟨'/', by decide⟩)
  have whole : longer.text =
      trimEnd (spelling.text ++ (blanks ++ commentText (some comment))) := by
    have split : spelling.text ++ (blanks ++ commentText (some comment)) =
        spelling.text ++ (blanks ++ ['/', '/']) ++ comment := by simp [commentText]
    rw [split, trimEnd_behind marked.trimmed]
    simp [longer, TagSpelling.text, Ending.commented_text, commentText]
  rw [normal] at valid
  refine (parse_eq_ok_iff _ _ _).mpr ⟨longer, ⟨?_, ?_⟩, ?_, within⟩
  · rw [normal]
    exact ⟨valid.1, valid.2.1, Ending.commented_valid blank apart valid.2.2⟩
  · rw [String.toList_ofList, whole, written]
  · exact Ending.commented_tag valid.2.2 _

theorem parse_indented (parsed : parse options text = .ok tag) {lead : String}
    (blank : Blank lead.toList) : parse options (lead ++ text) = .ok tag := by
  have something := trimEnd_ne_nil_of_parse parsed
  obtain ⟨spelling, ⟨valid, written⟩, rfl, within⟩ := (parse_eq_ok_iff options text tag).mp parsed
  let indented : TagSpelling := { spelling with lead := lead.toList ++ spelling.lead }
  refine (parse_eq_ok_iff _ _ _).mpr ⟨indented, ⟨?_, ?_⟩, rfl, within⟩
  · exact ⟨blank_append blank valid.1, valid.2.1, valid.2.2⟩
  · rw [String.toList_append, trimEnd_front _ something, ← written]
    simp [indented, TagSpelling.text]

theorem parse_of_trimEnd_eq {other : String} (same : trimEnd other.toList = trimEnd text.toList) :
    parse options other = parse options text := by
  unfold parse run
  rw [same]

/-- White space on both sides of a tag and a comment set apart from it leave the tag as it is. -/
theorem parse_surrounded (normal : options.raw = false) (parsed : parse options text = .ok tag)
    {lead blanks : String} (blank : Blank lead.toList) (blank' : Blank blanks.toList)
    (apart : blanks ≠ "") (comment : String) :
    parse options (lead ++ text ++ blanks) = .ok tag ∧
      parse options (lead ++ text ++ blanks ++ "//" ++ comment) = .ok tag := by
  have indented := parse_indented parsed blank
  constructor
  · rw [← indented]
    apply parse_of_trimEnd_eq
    rw [String.toList_append, trimEnd_append_blank _ blank']
  · -- the blanks at the end of the text itself are not trimmed once a comment follows
    obtain ⟨more, blankEnd, split⟩ := trimEnd_append (lead ++ text).toList
    have further : more ++ blanks.toList ≠ [] := by simp [apart]
    have commented := parse_commented normal indented (blank_append blankEnd blank') further
      comment.toList
    have whole : String.ofList (trimEnd (lead ++ text).toList ++
        (more ++ blanks.toList ++ commentText (some comment.toList))) =
          lead ++ text ++ blanks ++ "//" ++ comment := by
      rw [← String.toList_inj, String.toList_ofList, List.append_assoc more, ← List.append_assoc,
        ← split]
      simp [commentText]
    rw [whole] at commented
    exact commented

theorem linked_text_surrounded :
    let linked : Tag := .link ⟨"a", []⟩ (.single ⟨"b", []⟩ .none)
    parse {} "a=+b //c" = .ok linked ∧
      parse {} ("\t" ++ "a=+b //c" ++ "\n ") = .ok linked ∧
      parse {} ("\t" ++ "a=+b //c" ++ "\n " ++ "//" ++ "=+(\"") = .ok linked := by
  intro linked
  have parsed : parse {} "a=+b //c" = .ok linked := by decide +kernel
  exact ⟨parsed, parse_surrounded rfl parsed (by decide) (by decide) (by decide) "=+(\""⟩

end Tag
end CommentTags
