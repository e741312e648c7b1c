import CommentTags.Proofs.Extraction.Batch
import CommentTags.Proofs.Tag.Names

/- Where the identifier of a line and the name of its tag agree. The identifier is cut out by the
   first parenthesis or equals sign and the first colon, the name is read as a run of characters;
   a line that holds a tag is filed under the name of the tag, and the tag without its group. -/
namespace CommentTags
open Unicode

theorem name_start_no_colon {c : Char} (first : isNameStart c = true) : c ≠ ':' := by
  intro colon
  rw [colon] at first
  exact absurd first (by decide)

section Line
variable {marker before text behind : List Char}

theorem trim_marked (blank : Blank before) (dark : Stops isWhiteSpace marker)
    (started : Stops isWhiteSpace text) (something : trimEnd text ≠ []) (blank' : Blank behind) :
    trim (before ++ (marker ++ (text ++ behind))) = marker ++ trimEnd text := by
  have inside : text ≠ [] := by
    intro nothing
    rw [nothing] at something
    exact something rfl
  have stops : Stops isWhiteSpace (marker ++ (text ++ behind)) := by
    cases marker with
    | nil =>
      cases text with
      | nil => exact absurd rfl inside
      | cons c text => exact (stops_cons_iff _ _ _).mpr ((stops_cons_iff _ _ _).mp started)
    | cons c marker => exact (stops_cons_iff _ _ _).mpr ((stops_cons_iff _ _ _).mp dark)
  rw [trim, trimStart, dropWhile_run blank stops, ← List.append_assoc,
    trimEnd_append_blank _ blank', trimEnd_front marker something]

end Line

section Names
variable {name rest : List Char} (valid : IsName isTagNameInterior name)
include valid

theorem markedIdentifier_name (ends : ∀ c ∈ rest.head?, c = '(' ∨ c = '=') :
    markedIdentifier (name ++ rest) = .ofChars name := by
  have inside : ∀ c ∈ name, (!endsIdentifier c) = true := by
    intro c member
    exact unended_of_class (by decide) (by decide) (tag_name_interior valid c member)
  have stops : Stops (!endsIdentifier ·) rest := by
    intro c first
    rcases ends c first with rfl | rfl <;> rfl
  rw [markedIdentifier, takeWhile_run inside stops]

theorem lead_append_name :
    (Identifier.ofChars name).lead.toList ++ (Identifier.ofChars name).name.toList = name := by
  have whole := Identifier.text_ofChars name
  cases name with
  | nil => exact valid.elim
  | cons c tail =>
    have dark := name_start_no_colon valid.1
    rw [Identifier.text, String.toList_append] at whole
    simpa [dark] using whole

theorem name_behind_group (letter : ∀ group later, name = group ++ ':' :: later → ':' ∉ group →
      ∃ c ∈ later.head?, isNameStart c = true) :
    IsName isTagNameInterior (Identifier.ofChars name).name.toList := by
  rcases Identifier.first_colon name with plain | ⟨group, later, plain, split⟩
  · rw [Identifier.ofChars_plain plain, String.toList_ofList]
    exact valid
  · obtain ⟨c, first, start⟩ := letter group later split plain
    have inside := tag_name_interior valid
    rw [split, Identifier.ofChars_grouped plain, String.toList_ofList]
    cases later with
    | nil => simp at first
    | cons d later =>
      obtain rfl : d = c := by simpa using first
      refine ⟨start, ?_⟩
      intro e member
      exact inside e (by simp [split, member])

theorem ofMarked_name (ends : ∀ c ∈ rest.head?, c = '(' ∨ c = '=') (index offset : Nat) :
    (TagLine.ofMarked index offset (name ++ rest)).identifier = .ofChars name ∧
      (TagLine.ofMarked index offset (name ++ rest)).body =
        String.ofList ((Identifier.ofChars name).name.toList ++ rest) := by
  have same : (TagLine.ofMarked index offset (name ++ rest)).identifier = .ofChars name :=
    markedIdentifier_name valid ends
  refine ⟨same, ?_⟩
  have parts := TagLine.ofMarked_parts index offset (name ++ rest)
  rw [same] at parts
  conv at parts => rhs; rw [← lead_append_name valid]
  rw [List.append_assoc] at parts
  rw [← List.append_cancel_left parts, String.ofList_toList]

end Names

/-- The text is read as the tag and begins with its name. The name ends where an identifier does,
    and if it has a group, then what stands behind the group may begin a name. -/
structure Tag.NamedFront (options : Options) (text : String) (tag : Tag) : Prop where
  parsed : parse options text = .ok tag
  front : tag.head.name.toList <+: text.toList
  ends : ∀ c ∈ ((trimEnd text.toList).drop tag.head.name.toList.length).head?, c = '(' ∨ c = '='
  letter : ∀ group later, tag.head.name.toList = group ++ ':' :: later → ':' ∉ group →
    ∃ c ∈ later.head?, isNameStart c = true

section Extraction
variable {options : Options} {marker text before behind : String} {tag : Tag}

theorem Tag.NamedFront.started (named : NamedFront options text tag) :
    Stops isWhiteSpace text.toList := by
  obtain ⟨more, begins⟩ := named.front
  have valid := parse_name named.parsed
  rw [← begins]
  cases name : tag.head.name.toList with
  | nil => simp [name, IsName] at valid
  | cons c tail =>
    rw [name] at valid
    exact (stops_cons_iff _ _ _).mpr (name_start_not_white valid.1)

theorem ofLine?_marked_tag (named : Tag.NamedFront options text tag)
    (dark : Stops isWhiteSpace marker.toList) (blank : Blank before.toList)
    (blank' : Blank behind.toList) :
    ∃ line, TagLine.ofLine? marker 0 (before ++ marker ++ text ++ behind) = some line ∧
      line.identifier = Identifier.ofText tag.head.name ∧
      Tag.parse options line.body =
        .ok (tag.rename (Identifier.ofText tag.head.name).name) := by
  have valid := Tag.parse_name named.parsed
  obtain ⟨rest, split, -, renamed⟩ := Tag.parse_renamed named.parsed named.front
  have ends := named.ends
  rw [split, List.drop_left] at ends
  have trimmed : trim (before ++ marker ++ text ++ behind).toList =
      marker.toList ++ (tag.head.name.toList ++ rest) := by
    have something := Tag.trimEnd_ne_nil_of_parse named.parsed
    rw [← split, ← trim_marked blank dark named.started something blank']
    simp
  obtain ⟨identifier, body⟩ := ofMarked_name valid ends 0
    (byteLength (indent (before ++ marker ++ text ++ behind).toList) + byteLength marker.toList)
  refine ⟨_, TagLine.ofLine?_eq_some_iff.mpr ⟨_, trimmed, rfl⟩, identifier, ?_⟩
  rw [body]
  exact renamed _ (name_behind_group valid named.letter)

/-- A line with such a text behind its marker is filed under the name of the tag, and the tag under
    the part of its name behind the group. A filter for another group leaves nothing. -/
theorem extractTags_marked_tag (named : Tag.NamedFront options text tag)
    (dark : Stops isWhiteSpace marker.toList) (blank : Blank before.toList)
    (blank' : Blank behind.toList) (group : Option String) :
    let id := Identifier.ofText tag.head.name
    extractTags options marker group [before ++ marker ++ text ++ behind] =
      .ok (if group = none ∨ group = some id.group then [(id, [tag.rename id.name])] else []) := by
  intro id
  obtain ⟨line, found, identifier, parsed⟩ := ofLine?_marked_tag named dark blank blank'
  have inGroup : line.inGroup group = true ↔ group = none ∨ group = some id.group := by
    cases group with
    | none => simp [TagLine.inGroup]
    | some group =>
      simp only [TagLine.inGroup, identifier, beq_iff_eq, reduceCtorEq, false_or,
        Option.some.injEq]
      exact eq_comm
  split
  · rename_i passes
    have accepted := TagLine.accept?_eq_some_iff.mpr ⟨found, inGroup.mpr passes⟩
    refine (extractTags_single_iff (List.cons_ne_nil _ _)).mpr ⟨line, _, accepted, parsed, ?_⟩
    rw [identifier]
  · rename_i fails
    apply extractTags_rejected
    rw [TagLine.accept?, found, Option.filter_some, if_neg (mt inGroup.mp fails)]

theorem grouped_tag_behind_marker :
    let text := "g:a(\"=(\")=+h:b "
    let tag : Tag := .link ⟨"g:a", [⟨"", .string "=("⟩]⟩ (.single ⟨"h:b", []⟩ .none)
    Tag.NamedFront {} text tag ∧
      extractTags {} "+:" none ["  " ++ "+:" ++ text ++ "\t"] =
        .ok [(⟨"g", "a"⟩, [tag.rename "a"])] ∧
      extractTags {} "+:" (some "h") ["  " ++ "+:" ++ text ++ "\t"] = .ok [] := by
  intro text tag
  have named : Tag.NamedFront {} text tag := by
    have behind : ((trimEnd text.toList).drop tag.head.name.toList.length).head? = some '(' := by
      decide +kernel
    refine ⟨by decide +kernel, by decide +kernel, ?_, ?_⟩
    · intro c first
      rw [behind] at first
      exact .inl (Option.mem_some.mp first).symm
    · intro group later split plain
      have own : tag.head.name.toList = ['g'] ++ ':' :: ['a'] := by decide
      obtain ⟨-, rfl⟩ := Identifier.first_colon_unique plain (by decide) (split.symm.trans own)
      exact ⟨'a', rfl, by decide +kernel⟩
  have dark : Stops isWhiteSpace "+:".toList := (stops_cons_iff _ _ _).mpr (by decide)
  have blank : Blank "  ".toList := by decide
  have blank' : Blank "\t".toList := by decide
  have id : Identifier.ofText tag.head.name = ⟨"g", "a"⟩ := by decide
  have whole := extractTags_marked_tag named dark blank blank' none
  have other := extractTags_marked_tag named dark blank blank' (some "h")
  simp only [id] at whole other
  exact ⟨named, whole, other⟩

end Extraction
end CommentTags
