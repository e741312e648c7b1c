import CommentTags.Proofs.Tag.Canonical

/- The two modes of reading. They take the same steps up to an equals sign, and raw mode keeps
   whatever stands behind it. So an error in raw mode is the error of the other mode, and what the
   other mode makes of a text depends only on the tag that raw mode makes of it. -/
namespace CommentTags

namespace Config

theorem step_options (options other : Options) {s : Config} (c : Char) (stage : s.stage ≠ .value) :
    step options s c = step other s c := by
  unfold step
  cases reached : s.stage with
  | value => exact absurd reached stage
  | _ => rfl

theorem raw_step_value {options : Options} {s : Config} (c : Char) (isRaw : options.raw = true)
    (stage : s.stage = .value) : ∃ after, step options s c = .ok after := by
  simp [step, stage, readValue, isRaw]

/-- A run that fails in raw mode has not come to a value, so it fails whatever the options are. -/
theorem run_error_of_raw {options : Options} {s : Config} {error : TagError}
    (isRaw : options.raw = true) (failed : (run options s).2 = .error error) (other : Options) :
    (run other s).2 = .error error := by
  fun_induction run options s with
  | case1 s unread =>
    rw [run_at_end other unread]
    exact failed
  | case2 s c rest front cause stepped =>
    have stage : s.stage ≠ .value := by
      intro stage
      obtain ⟨after, passed⟩ := raw_step_value c isRaw stage
      rw [passed] at stepped
      cases stepped
    rw [run_step other front, step_options other options c stage, stepped]
    exact failed
  | case3 s c rest front after stepped ih =>
    by_cases stage : s.stage = .value
    · have taken := run_raw stage isRaw front
      rw [run_of_step front stepped, failed] at taken
      cases taken
    · rw [step_options options other c stage] at stepped
      rw [run_of_step front stepped]
      exact ih failed

end Config

namespace Ending
variable {ending : Ending}

structure Valueless (ending : Ending) : Prop where
  valid : ending.Valid false
  tag : ∀ head, ending.tag head = .single head .none

theorem valueless_or_raw (valid : ending.Valid true) :
    ending.Valueless ∨ ∃ text, ending = .raw text := by
  cases ending with
  | nothing => exact .inl ⟨trivial, fun _ => rfl⟩
  | blank blanks comment => exact .inl ⟨valid, fun _ => rfl⟩
  | raw text => exact .inr ⟨text, rfl⟩
  | scalar | link => exact absurd valid.1 (by decide)

theorem raw_alike {other : Ending} {head head' : Head} (valid : ending.Valid true)
    (valid' : other.Valid true) (same : ending.tag head = other.tag head') :
    (ending.Valueless ∧ other.Valueless) ∨ ending = other := by
  rcases valueless_or_raw valid with valueless | ⟨text, rfl⟩
  · rcases valueless_or_raw valid' with valueless' | ⟨text', rfl⟩
    · exact .inl ⟨valueless, valueless'⟩
    · simp [valueless.tag, tag] at same
  · rcases valueless_or_raw valid' with valueless' | ⟨text', rfl⟩
    · simp [valueless'.tag, tag] at same
    · right
      simp only [tag, Tag.single.injEq, Payload.raw.injEq] at same
      rw [String.ofList_injective same.2]

theorem kind_ne_none {tail : List Char} (valid : ending.Valid false)
    (text : ending.text = '=' :: tail) (head : Head) : (ending.tag head).kind ≠ .none := by
  cases ending with
  | nothing => simp [Ending.text] at text
  | blank => exact absurd text (blank_not_equals valid)
  | scalar value blanks comment =>
    simp only [tag, Tag.kind, Payload.kind]
    cases value.scalar <;> simp [Scalar.kind]
  | raw | link => simp [tag, Tag.kind, Payload.kind]

end Ending

namespace Tag

theorem parse_behind_head_iff {spelling : TagSpelling} {isRaw : Bool} {text : String}
    (derives : spelling.Derives isRaw (trimEnd text.toList)) (options : Options) (tag : Tag) :
    parse options text = .ok tag ↔ ∃ ending : Ending, ending.Valid options.raw ∧
      ending.text = spelling.ending.text ∧ ending.tag spelling.head.head = tag ∧
      tag.links ≤ options.maxDepth := by
  obtain ⟨valid, written⟩ := derives
  rw [parse_eq_ok_iff]
  constructor
  · rintro ⟨other, ⟨valid', written'⟩, same, within⟩
    obtain ⟨-, heads, endings⟩ := spelling_head_unique valid' valid (written'.trans written.symm)
    refine ⟨other.ending, valid'.2.2, endings, ?_, within⟩
    rw [← heads]
    exact same
  · rintro ⟨ending, endingValid, texts, same, within⟩
    refine ⟨⟨spelling.lead, spelling.head, ending⟩, ⟨⟨valid.1, valid.2.1, endingValid⟩, ?_⟩, same,
      within⟩
    rw [← written]
    simp only [TagSpelling.text, texts]

theorem parse_valueless_iff {spelling : TagSpelling} {text : String}
    (derives : spelling.Derives true (trimEnd text.toList))
    (valueless : spelling.ending.Valueless) (maxDepth : Nat) (tag : Tag) :
    parse ⟨false, maxDepth⟩ text = .ok tag ↔ tag = spelling.tag := by
  rw [parse_behind_head_iff derives]
  constructor
  · rintro ⟨ending, valid, texts, same, -⟩
    rw [ending_unique valid valueless.valid texts] at same
    exact same.symm
  · intro same
    refine ⟨spelling.ending, valueless.valid, rfl, same.symm, ?_⟩
    rw [same, TagSpelling.tag, valueless.tag]
    exact Nat.zero_le maxDepth

section Raw
variable {maxDepth : Nat} {text : String} {rawTag tag : Tag}

theorem parse_text_iff_of_raw (parsed : parse ⟨true, maxDepth⟩ text = .ok rawTag) :
    parse ⟨false, maxDepth⟩ text = .ok tag ↔ parse ⟨false, maxDepth⟩ rawTag.text = .ok tag := by
  obtain ⟨spelling, derives, rfl, -⟩ := (parse_eq_ok_iff _ text rawTag).mp parsed
  obtain ⟨written, derives', same, -⟩ :=
    (parse_eq_ok_iff _ spelling.tag.text spelling.tag).mp (parse_text_of_parse parsed)
  have heads : written.head.head = spelling.head.head := by
    rw [← written.ending.tag_head written.head.head, ← spelling.ending.tag_head spelling.head.head]
    exact congrArg Tag.head same
  rcases Ending.raw_alike derives.1.2.2 derives'.1.2.2 same.symm with ⟨none, none'⟩ | raw
  · rw [parse_valueless_iff derives none, parse_valueless_iff derives' none', same]
  · rw [parse_behind_head_iff derives, parse_behind_head_iff derives', raw, heads]

theorem head_and_kind_of_raw (parsed : parse ⟨true, maxDepth⟩ text = .ok rawTag)
    (read : parse ⟨false, maxDepth⟩ text = .ok tag) :
    tag.head = rawTag.head ∧ (tag.kind = .none ↔ rawTag.kind = .none) := by
  obtain ⟨spelling, derives, rfl, -⟩ := (parse_eq_ok_iff _ text rawTag).mp parsed
  rcases Ending.valueless_or_raw derives.1.2.2 with valueless | ⟨raw, kept⟩
  · rw [(parse_valueless_iff derives valueless maxDepth tag).mp read]
    exact ⟨rfl, Iff.rfl⟩
  · obtain ⟨ending, valid, texts, rfl, -⟩ := (parse_behind_head_iff derives _ tag).mp read
    rw [kept] at texts
    have valued := Ending.kind_ne_none valid texts spelling.head.head
    have rawValued : spelling.tag.kind ≠ .none := by
      simp [TagSpelling.tag, kept, Ending.tag, Tag.kind, Payload.kind]
    refine ⟨?_, by simp [valued, rawValued]⟩
    rw [TagSpelling.tag, Ending.tag_head, Ending.tag_head]

end Raw

/-- An error of raw mode is the error of the other mode. Where raw mode reads a tag, the other mode
    makes the same of the text as of the written form of that tag, and if this is a tag, then it has
    the head of the raw one and has a value exactly if that has one. -/
theorem parse_modes_agree (maxDepth : Nat) (text : String) :
    (∀ error, parse ⟨true, maxDepth⟩ text = .error error →
      parse ⟨false, maxDepth⟩ text = .error error) ∧
    ∀ rawTag, parse ⟨true, maxDepth⟩ text = .ok rawTag → ∀ tag,
      (parse ⟨false, maxDepth⟩ text = .ok tag ↔
        parse ⟨false, maxDepth⟩ rawTag.text = .ok tag) ∧
      (parse ⟨false, maxDepth⟩ text = .ok tag →
        tag.head = rawTag.head ∧ (tag.kind = .none ↔ rawTag.kind = .none)) := by
  constructor
  · intro error failed
    exact Config.run_error_of_raw rfl failed _
  · intro rawTag parsed tag
    exact ⟨parse_text_iff_of_raw parsed, head_and_kind_of_raw parsed⟩

theorem linked_text_in_both_modes :
    let text := " a( x )=+b=1 // c"
    let rawTag := single ⟨"a", [⟨"", .string "x"⟩]⟩ (.raw "+b=1 // c")
    let tag := link rawTag.head (single ⟨"b", []⟩ (.scalar (.int "1" 1)))
    let error : TagError := ⟨.openArguments, ⟨1, 1⟩, ⟨3, 3⟩⟩
    (parse ⟨true, 1⟩ text = .ok rawTag ∧ parse ⟨false, 1⟩ text = .ok tag ∧
      parse ⟨false, 1⟩ "a(\"x\")=+b=1 // c" = .ok tag ∧ tag.head = rawTag.head) ∧
    parse ⟨true, 1⟩ "a(1" = .error error ∧ parse ⟨false, 1⟩ "a(1" = .error error := by
  intro text rawTag tag error
  constructor
  · have kept : parse ⟨true, 1⟩ text = .ok rawTag := by decide +kernel
    have read : parse ⟨false, 1⟩ text = .ok tag := by decide +kernel
    have written : rawTag.text = "a(\"x\")=+b=1 // c" := by decide +kernel
    obtain ⟨alike, parts⟩ := (parse_modes_agree 1 text).2 rawTag kept tag
    rw [written] at alike
    exact ⟨kept, read, alike.mp read, (parts read).1⟩
  · have failed : parse ⟨true, 1⟩ "a(1" = .error error := by decide +kernel
    exact ⟨failed, (parse_modes_agree 1 "a(1").1 error failed⟩

end Tag
end CommentTags
