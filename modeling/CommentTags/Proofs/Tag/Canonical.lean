import CommentTags.Proofs.Tag.Grammar
import CommentTags.Proofs.Tag.WellFormed
import CommentTags.Tag.Text

/- The written form of a tag is a derivation of it, if the tag is well-formed. So every well-formed
   tag is read from its written form, and reading and writing agree. -/
namespace CommentTags
open Unicode

theorem scalar_written {value : Scalar} (formed : value.WellFormed) :
    ∃ spelling : ScalarSpelling, spelling.Valid ∧ spelling.text = value.text.toList ∧
      spelling.scalar = value := by
  cases value with
  | string text =>
    refine ⟨.quoted (text.toList.map QuotedChar.ofChar), ?_, ?_, ?_⟩
    · intro item member
      obtain ⟨c, _, rfl⟩ := List.mem_map.mp member
      exact QuotedChar.ofChar_valid c
    · rw [ScalarSpelling.text, flatMap_ofChar]
      simp [Scalar.text, quote]
    · rw [ScalarSpelling.scalar, map_meaning_ofChar, String.ofList_toList]
  | int literal value =>
    obtain ⟨parts, partsFormed, same, denotes⟩ := formed
    refine ⟨.integer parts value, ⟨partsFormed, denotes⟩, same, ?_⟩
    rw [ScalarSpelling.scalar, same, String.ofList_toList]
  | bool value =>
    cases value with
    | true =>
      have named : IsName isNameInterior "true".toList := by decide
      exact ⟨.bare "true".toList, named, by decide, by decide⟩
    | false =>
      have named : IsName isNameInterior "false".toList := by decide
      exact ⟨.bare "false".toList, named, by decide, by decide⟩

theorem argument_written {argument : Argument}
    (named : argument.name = "" ∨ IsName isNameInterior argument.name.toList)
    (formed : argument.value.WellFormed) :
    ∃ spelling : ArgumentSpelling, spelling.Valid ∧ spelling.text = argument.text.toList ∧
      spelling.argument = argument := by
  obtain ⟨value, valid, written, same⟩ := scalar_written formed
  obtain ⟨name, worth⟩ := argument
  rcases named with positional | named
  · simp only at positional same
    refine ⟨.positional value, valid, ?_, ?_⟩
    · simpa [ArgumentSpelling.text, Argument.text, Argument.isPositional, positional] using written
    · simp [ArgumentSpelling.argument, ArgumentSpelling.name?, ArgumentSpelling.value, positional,
        same]
  · have something : name ≠ "" := by
      rintro rfl
      exact named
    refine ⟨.named name.toList [] [' '] value, ⟨named, blank_nil, by decide, valid⟩, ?_, ?_⟩
    · simp [ArgumentSpelling.text, Argument.text, Argument.isPositional, something, written]
    · simp only at same
      simp [ArgumentSpelling.argument, ArgumentSpelling.name?, ArgumentSpelling.value, same]

theorem slots_written {first : Argument} {later : List Argument}
    (written : ∀ argument ∈ first :: later, ∃ spelling : ArgumentSpelling,
      spelling.Valid ∧ spelling.text = argument.text.toList ∧ spelling.argument = argument)
    {before : List Char} (blank : Blank before) :
    ∃ slot slots, (∀ other ∈ slot :: slots, other.Valid) ∧
      (slot :: slots).map (fun slot => slot.argument.argument) = first :: later ∧
      slot.text ++ Slot.laterText slots =
        before ++ ((", ".intercalate ((first :: later).map Argument.text)).toList ++ [')']) := by
  induction later generalizing first before with
  | nil =>
    obtain ⟨spelling, valid, text, same⟩ := written first (by simp)
    refine ⟨⟨before, spelling, []⟩, [], ?_, by simp [same], ?_⟩
    · intro other member
      rw [List.mem_singleton.mp member]
      exact ⟨blank, valid, blank_nil⟩
    · simp [Slot.text, Slot.laterText, text]
  | cons second later ih =>
    obtain ⟨spelling, valid, text, same⟩ := written first (by simp)
    have space : Blank [' '] := by decide
    obtain ⟨slot, slots, slotsValid, arguments, texts⟩ :=
      ih (fun argument member => written argument (List.mem_cons_of_mem first member)) space
    refine ⟨⟨before, spelling, []⟩, slot :: slots, ?_, by rw [List.map_cons, arguments, same], ?_⟩
    · intro other member
      rcases List.mem_cons.mp member with rfl | further
      · exact ⟨blank, valid, blank_nil⟩
      · exact slotsValid other further
    · rw [Slot.laterText_cons, texts]
      simp [Slot.text, text, String.intercalate_cons_cons]

theorem head_written {head : Head} (formed : head.WellFormed) :
    ∃ spelling : HeadSpelling, spelling.Valid ∧ spelling.text = head.text.toList ∧
      spelling.head = head := by
  obtain ⟨nameValid, names, values⟩ := formed
  have consistent : Consistent head.arguments := by
    rcases names with ⟨few, _⟩ | named
    · exact .inl few
    · right
      intro argument member empty
      have valid := named argument member
      rw [empty] at valid
      exact valid
  have written (argument : Argument) (member : argument ∈ head.arguments) :
      ∃ spelling : ArgumentSpelling, spelling.Valid ∧ spelling.text = argument.text.toList ∧
        spelling.argument = argument := by
    refine argument_written ?_ (values argument member)
    rcases names with ⟨_, positional⟩ | named
    · exact .inl (positional argument member)
    · exact .inr (named argument member)
  obtain ⟨name, arguments⟩ := head
  cases arguments with
  | nil =>
    refine ⟨⟨name.toList, .absent⟩, ⟨nameValid, trivial, .inl (by simp [ListSpelling.arguments])⟩,
      ?_, ?_⟩
    · simp [HeadSpelling.text, ListSpelling.text, Head.text]
    · simp [HeadSpelling.head, ListSpelling.arguments]
  | cons first later =>
    obtain ⟨slot, slots, valid, same, texts⟩ := slots_written written blank_nil
    refine ⟨⟨name.toList, .present slot slots⟩, ⟨nameValid, valid, ?_⟩, ?_, ?_⟩
    · simpa [ListSpelling.arguments, same] using consistent
    · simp [HeadSpelling.text, ListSpelling.text, Head.text, texts]
    · simp [HeadSpelling.head, ListSpelling.arguments, same]

theorem tag_written {isRaw : Bool} {tag : Tag} (formed : tag.WellFormed isRaw) :
    ∃ (head : HeadSpelling) (ending : Ending), head.Valid ∧ ending.Valid isRaw ∧
      head.text ++ ending.text = tag.text.toList ∧ ending.tag head.head = tag := by
  induction tag with
  | single head payload =>
    obtain ⟨headFormed, payloadFormed⟩ := formed
    obtain ⟨spelling, valid, written, rfl⟩ := head_written headFormed
    cases payload with
    | none =>
      exact ⟨spelling, .nothing, valid, trivial, by
        simp [Ending.text, Tag.text, Payload.text, written], rfl⟩
    | scalar value =>
      obtain ⟨typed, valueFormed⟩ := payloadFormed
      obtain ⟨worth, worthValid, text, rfl⟩ := scalar_written valueFormed
      refine ⟨spelling, .scalar worth [] none, valid, ⟨typed, worthValid, blank_nil⟩, ?_, rfl⟩
      simp [Ending.text, commentText, Tag.text, Payload.text, written, text]
    | raw text =>
      obtain ⟨isRaw, something, _⟩ := payloadFormed
      refine ⟨spelling, .raw text.toList, valid, ⟨isRaw, by simpa using something⟩, ?_, ?_⟩
      · simp [Ending.text, Tag.text, Payload.text, written]
      · simp [Ending.tag]
  | link head next ih =>
    obtain ⟨typed, headFormed, nextFormed⟩ := formed
    obtain ⟨spelling, valid, written, rfl⟩ := head_written headFormed
    obtain ⟨inner, ending, innerValid, endingValid, text, rfl⟩ := ih nextFormed
    refine ⟨spelling, .link inner ending, valid, ⟨typed, innerValid, endingValid⟩, ?_, rfl⟩
    simp [Ending.text, Tag.text, written, text]

theorem scalar_text_endsDark {value : Scalar} (formed : value.WellFormed) :
    EndsDark value.text.toList := by
  cases value with
  | string text =>
    have closing : EndsDark ['"'] := ⟨'"', rfl, by decide⟩
    have whole := endsDark_append ('"' :: escape text.toList) closing
    simpa [Scalar.text, quote] using whole
  | int literal value =>
    obtain ⟨parts, partsFormed, same, _⟩ := formed
    rw [Scalar.text, ← same]
    apply endsDark_append
    apply endsDark_of_dark partsFormed.something
    intro c member
    exact name_interior_not_white (digit_in_name (partsFormed.readable c member))
  | bool value =>
    cases value with
    | true => exact ⟨'e', by decide, by decide⟩
    | false => exact ⟨'e', by decide, by decide⟩

theorem head_text_endsDark {head : Head} (formed : head.WellFormed) :
    EndsDark head.text.toList := by
  unfold Head.text
  split
  · exact tag_name_endsDark formed.name
  · have closing : EndsDark [')'] := ⟨')', rfl, by decide⟩
    rw [String.toList_append]
    exact endsDark_append _ closing

theorem tag_text_endsDark {isRaw : Bool} {tag : Tag} (formed : tag.WellFormed isRaw) :
    EndsDark tag.text.toList := by
  induction tag with
  | single head payload =>
    obtain ⟨headFormed, payloadFormed⟩ := formed
    cases payload with
    | none => simpa [Tag.text, Payload.text] using head_text_endsDark headFormed
    | scalar value =>
      simp only [Tag.text, Payload.text, String.toList_append]
      exact endsDark_append _ (endsDark_append _ (scalar_text_endsDark payloadFormed.2))
    | raw text =>
      obtain ⟨_, something, trimmed⟩ := payloadFormed
      simp only [Tag.text, Payload.text, String.toList_append]
      exact endsDark_append _ (endsDark_append _ (trimmed.endsDark (by simpa using something)))
  | link head next ih =>
    simp only [Tag.text, String.toList_append]
    exact endsDark_append _ (ih formed.2.2)

namespace Tag
variable {options : Options} {tag : Tag}

theorem parse_text_of_wellFormed (formed : tag.WellFormed options.raw)
    (within : tag.links ≤ options.maxDepth) : parse options tag.text = .ok tag := by
  obtain ⟨head, ending, headValid, endingValid, written, same⟩ := tag_written formed
  refine (parse_eq_ok_iff options tag.text tag).mpr ⟨⟨[], head, ending⟩, ⟨?_, ?_⟩, same, within⟩
  · exact ⟨blank_nil, headValid, endingValid⟩
  · rw [trimEnd_of_trimmed (tag_text_endsDark formed).trimmed]
    exact written

theorem wellFormed_of_parse {text : String} (parsed : parse options text = .ok tag) :
    tag.WellFormed options.raw ∧ tag.links ≤ options.maxDepth := by
  obtain ⟨spelling, ⟨valid, written⟩, rfl, within⟩ := (parse_eq_ok_iff options text tag).mp parsed
  exact ⟨spelled_wellFormed valid (written ▸ trimEnd_trimmed text.toList), within⟩

/-- Reading undoes writing on every tag that was read. -/
theorem parse_text_of_parse {text : String} (parsed : parse options text = .ok tag) :
    parse options tag.text = .ok tag := by
  obtain ⟨formed, within⟩ := wellFormed_of_parse parsed
  exact parse_text_of_wellFormed formed within

theorem linked_tag_written_and_read :
    let tag := link ⟨"a", [⟨"x", .int "0x1F" 31⟩]⟩ (single ⟨"b", []⟩ (.scalar (.string "q\"")))
    parse ⟨false, 1⟩ " a( x :0x1F)=+b=`q\"` //c" = .ok tag ∧
      parse ⟨false, 1⟩ "a(x: 0x1F)=+b=\"q\\\"\"" = .ok tag := by
  intro tag
  have parsed : parse ⟨false, 1⟩ " a( x :0x1F)=+b=`q\"` //c" = .ok tag := by
    have kept : (parse ⟨false, 1⟩ " a( x :0x1F)=+b=`q\"` //c").toOption = some tag := by
      decide +kernel
    cases outcome : parse ⟨false, 1⟩ " a( x :0x1F)=+b=`q\"` //c" with
    | error error => simp [outcome, Except.toOption] at kept
    | ok other => simpa [outcome, Except.toOption] using kept
  have text : tag.text = "a(x: 0x1F)=+b=\"q\\\"\"" := by decide
  exact ⟨parsed, text ▸ parse_text_of_parse parsed⟩

/-- The tags that can be read are exactly the well-formed ones with few enough links. -/
theorem exists_parse_iff_wellFormed (options : Options) (tag : Tag) :
    (∃ text, parse options text = .ok tag) ↔
      tag.WellFormed options.raw ∧ tag.links ≤ options.maxDepth := by
  constructor
  · intro read
    obtain ⟨text, parsed⟩ := read
    exact wellFormed_of_parse parsed
  · intro fitting
    obtain ⟨formed, within⟩ := fitting
    exact ⟨tag.text, parse_text_of_wellFormed formed within⟩

end Tag
end CommentTags
