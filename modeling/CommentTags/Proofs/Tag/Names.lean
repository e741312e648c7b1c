import CommentTags.Proofs.Tag.Canonical

/- A tag under another name. Its name stands at the front of the text, and what stands behind it
   is read alike whatever the name is. -/
namespace CommentTags
open Unicode

namespace Tag

def rename (name : String) : Tag → Tag
  | single head payload => single ⟨name, head.arguments⟩ payload
  | link head next => link ⟨name, head.arguments⟩ next

theorem rename_links (name : String) (tag : Tag) : (tag.rename name).links = tag.links := by
  cases tag <;> rfl

theorem rename_spelled (name : String) (ending : Ending) (head : Head) :
    (ending.tag head).rename name = ending.tag ⟨name, head.arguments⟩ := by
  cases ending <;> rfl

section Front
variable {options : Options} {text : String} {tag : Tag}

theorem parse_name (parsed : parse options text = .ok tag) :
    IsName isTagNameInterior tag.head.name.toList := by
  have formed := (wellFormed_of_parse parsed).1
  cases tag with
  | single head payload => exact formed.1.name
  | link head next => exact formed.2.1.name

theorem lead_nil {isRaw : Bool} {spelling : TagSpelling} {name more : List Char}
    (valid : spelling.Valid isRaw) (named : IsName isTagNameInterior name) {blanks : List Char}
    (begins : spelling.text ++ blanks = name ++ more) : spelling.lead = [] := by
  cases lead : spelling.lead with
  | nil => rfl
  | cons b later =>
    cases name with
    | nil => exact named.elim
    | cons c tail =>
      have white : isWhiteSpace b = true := valid.1 b (by simp [lead])
      simp only [TagSpelling.text, lead, List.cons_append, List.cons.injEq] at begins
      rw [begins.1, name_start_not_white named.1] at white
      cases white

/-- What stands behind the name of a tag is read alike behind every other name. -/
theorem parse_renamed (parsed : parse options text = .ok tag)
    (front : tag.head.name.toList <+: text.toList) :
    ∃ rest, trimEnd text.toList = tag.head.name.toList ++ rest ∧ Trimmed rest ∧
      ∀ name : String, IsName isTagNameInterior name.toList →
        parse options (String.ofList (name.toList ++ rest)) = .ok (tag.rename name) := by
  obtain ⟨more, begins⟩ := front
  have named := parse_name parsed
  obtain ⟨spelling, ⟨valid, written⟩, rfl, within⟩ := (parse_eq_ok_iff options text tag).mp parsed
  obtain ⟨blanks, -, split⟩ := trimEnd_append text.toList
  have noLead : spelling.lead = [] := by
    apply lead_nil valid named
    rw [written, ← split, ← begins]
  have sameName : spelling.tag.head.name.toList = spelling.head.name := by
    rw [TagSpelling.tag, Ending.tag_head]
    simp [HeadSpelling.head]
  let rest := spelling.head.list.text ++ spelling.ending.text
  have whole : trimEnd text.toList = spelling.tag.head.name.toList ++ rest := by
    rw [← written, sameName]
    simp [TagSpelling.text, HeadSpelling.text, noLead, rest]
  have trimmed : Trimmed rest := by
    have whole' := trimEnd_trimmed text.toList
    rw [whole] at whole'
    exact trimmed_suffix whole'
  refine ⟨rest, whole, trimmed, ?_⟩
  intro name valid'
  let renamed : TagSpelling := ⟨[], ⟨name.toList, spelling.head.list⟩, spelling.ending⟩
  have same : renamed.tag = spelling.tag.rename name := by
    simp [renamed, TagSpelling.tag, rename_spelled, HeadSpelling.head]
  rw [← same, parse_eq_ok_iff]
  refine ⟨renamed, ⟨⟨blank_nil, ⟨valid', valid.2.1.2⟩, valid.2.2⟩, ?_⟩, rfl, ?_⟩
  · rw [String.toList_ofList, trimEnd_behind (tag_name_endsDark valid').trimmed,
      trimEnd_of_trimmed trimmed]
    simp [renamed, TagSpelling.text, HeadSpelling.text, rest]
  · rw [same, rename_links]
    exact within

end Front
end Tag
end CommentTags
