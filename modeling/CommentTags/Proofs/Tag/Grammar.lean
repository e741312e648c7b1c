import CommentTags.Proofs.Tag.Acceptance
import CommentTags.Proofs.Tag.Soundness
import CommentTags.Proofs.Tag.Unique

/- Reading a text is deriving it: exactly the derivable texts are tags, up to the cap on links. -/
namespace CommentTags
open Unicode

def TagSpelling.Derives (isRaw : Bool) (spelling : TagSpelling) (text : List Char) : Prop :=
  spelling.Valid isRaw ∧ spelling.text = text

namespace Tag

theorem parse_eq_ok_iff (options : Options) (text : String) (tag : Tag) :
    parse options text = .ok tag ↔
      ∃ spelling : TagSpelling, spelling.Derives options.raw (trimEnd text.toList) ∧
        spelling.tag = tag ∧ tag.links ≤ options.maxDepth := by
  unfold parse run
  constructor
  · intro accepted
    obtain ⟨spelling, valid, written, same⟩ := Config.run_sound accepted
    exact ⟨spelling, ⟨valid, written⟩, same, Config.run_links (Nat.zero_le _) accepted⟩
  · intro derived
    obtain ⟨spelling, ⟨valid, written⟩, rfl, within⟩ := derived
    rw [← written]
    exact Config.run_spelling valid fun _ => within

section Front
variable {options : Options} {text : String} {tag : Tag}

theorem parse_front (parsed : parse options text = .ok tag) :
    ∃ c tail, trimEnd text.toList = c :: tail ∧ (isWhiteSpace c = true ∨ isNameStart c = true) := by
  obtain ⟨spelling, ⟨valid, written⟩, -⟩ := (parse_eq_ok_iff options text tag).mp parsed
  obtain ⟨c, tail, head, start⟩ := head_starts valid.2.1 spelling.ending.text
  rw [← written, TagSpelling.text, head]
  cases lead : spelling.lead with
  | nil => exact ⟨c, tail, rfl, .inr start⟩
  | cons b blanks =>
    have white := valid.1 b (by simp [lead])
    exact ⟨b, blanks ++ c :: tail, rfl, .inl white⟩

theorem trimEnd_ne_nil_of_parse (parsed : parse options text = .ok tag) :
    trimEnd text.toList ≠ [] := by
  obtain ⟨c, tail, front, -⟩ := parse_front parsed
  rw [front]
  exact List.cons_ne_nil c tail

end Front

/-- A text is read as a tag exactly if it has a derivation that stands for the tag and stays within
    the cap on links, and no text has two derivations. -/
theorem parse_iff_derives (options : Options) (text : String) :
    (∀ tag, parse options text = .ok tag ↔
      ∃ spelling : TagSpelling, spelling.Derives options.raw (trimEnd text.toList) ∧
        spelling.tag = tag ∧ tag.links ≤ options.maxDepth) ∧
    ∀ spelling other : TagSpelling, spelling.Derives options.raw (trimEnd text.toList) →
      other.Derives options.raw (trimEnd text.toList) → spelling = other := by
  constructor
  · exact parse_eq_ok_iff options text
  · intro spelling other derives derives'
    have same : spelling.text = other.text := derives.2.trans derives'.2.symm
    exact spelling_unique derives.1 derives'.1 same

theorem linked_text_derives :
    let text := " g:a(true )=+b.c-1(x: false,y:truth) //c"
    let linked : TagSpelling :=
      ⟨[' '], ⟨"g:a".toList, .present ⟨[], .positional (.bare "true".toList), [' ']⟩ []⟩,
        .link ⟨"b.c-1".toList, .present ⟨[], .named ['x'] [] [' '] (.bare "false".toList), []⟩
          [⟨[], .named ['y'] [] [] (.bare "truth".toList), []⟩]⟩ (.blank [' '] (some ['c']))⟩
    let tag : Tag := .link ⟨"g:a", [⟨"", .bool true⟩]⟩
      (.single ⟨"b.c-1", [⟨"x", .bool false⟩, ⟨"y", .string "truth"⟩]⟩ .none)
    linked.Derives false (trimEnd text.toList) ∧ linked.tag = tag ∧
      parse ⟨false, 1⟩ text = .ok tag := by
  intro text linked tag
  have space : Blank [' '] := by decide
  have yes : IsName isNameInterior "true".toList := by decide
  have no : IsName isNameInterior "false".toList := by decide
  have word : IsName isNameInterior "truth".toList := by decide
  have outer : linked.head.Valid := by
    refine ⟨by decide, ?_, .inl (by decide)⟩
    intro slot member
    rw [List.mem_singleton.mp member]
    exact ⟨blank_nil, yes, space⟩
  have inner : HeadSpelling.Valid ⟨"b.c-1".toList, .present
      ⟨[], .named ['x'] [] [' '] (.bare "false".toList), []⟩
      [⟨[], .named ['y'] [] [] (.bare "truth".toList), []⟩]⟩ := by
    refine ⟨by decide, ?_, .inr (by decide)⟩
    intro slot member
    rcases List.mem_cons.mp member with rfl | further
    · exact ⟨blank_nil, ⟨by decide, blank_nil, space, no⟩, blank_nil⟩
    · rw [List.mem_singleton.mp further]
      exact ⟨blank_nil, ⟨by decide, blank_nil, blank_nil, word⟩, blank_nil⟩
  have derives : linked.Derives false (trimEnd text.toList) :=
    ⟨⟨space, outer, rfl, inner, space, by decide⟩, by decide⟩
  have stands : linked.tag = tag := by decide
  have reads := (parse_iff_derives ⟨false, 1⟩ text).1 tag
  exact ⟨derives, stands, reads.mpr ⟨linked, derives, stands, by decide⟩⟩

end Tag
end CommentTags
