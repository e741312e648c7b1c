import CommentTags.Proofs.Extraction.Batch
import CommentTags.Proofs.Extraction.Shadows
import CommentTags.Proofs.Tag.Grammar

/- The JSON form of a batch that is read. An identifier is shadowed only if its lines begin with a
   colon, and no tag begins with one. So nothing of such a batch is lost, and its fields are those
   of the extraction, with every body read. -/
namespace CommentTags
open Unicode

theorem Tag.no_colon_front {options : Options} {text : String} {tag : Tag}
    (parsed : parse options text = .ok tag) (more : List Char) : text.toList ≠ ':' :: more := by
  intro colon
  obtain ⟨c, tail, front, start⟩ := parse_front parsed
  have dark : EndsDark [':'] := ⟨':', by decide⟩
  rw [colon, ← List.singleton_append, trimEnd_behind dark.trimmed, List.singleton_append,
    List.cons.injEq] at front
  rw [← front.1] at start
  exact absurd start (by decide)

theorem TagLine.colon_body {marker text : String} {group : Option String} {index : Nat}
    {line : TagLine} (accepted : accept? marker group index text = some line)
    (ungrouped : line.identifier.group = "") (colon : ':' ∈ line.identifier.name.toList) :
    ∃ more, line.body.toList = ':' :: more := by
  obtain ⟨marked, -, rfl⟩ := ofLine?_eq_some_iff.mp (accept?_eq_some_iff.mp accepted).1
  obtain ⟨name, front⟩ := Identifier.ungrouped_colon ungrouped colon
  obtain ⟨rest, whole⟩ := List.takeWhile_prefix (l := marked) (!endsIdentifier ·)
  have nothing : (markedIdentifier marked).lead = "" := Identifier.ungrouped_lead ungrouped
  refine ⟨name ++ rest, ?_⟩
  rw [ofMarked, nothing, String.toList_ofList, String.toList_empty, List.length_nil,
    List.drop_zero, ← whole, front, List.cons_append]

structure FieldsRead (options : Options) (tagFields bodyFields : Keyed String Json) : Prop where
  keys : tagFields.keys = bodyFields.keys
  items : ∀ key ∈ bodyFields.keys, ∃ (texts : List String) (tags : List Tag),
    bodyFields.find? key = some (.array (texts.map .string)) ∧
    tagFields.find? key = some (.array (tags.map Tag.json)) ∧
    texts.map (Tag.parse options) = tags.map (.ok : Tag → Except TagError Tag)

section Fields
variable {options : Options} {marker : String} {group : Option String} {lines : List String}
  {parsed : Keyed Identifier (List Tag)}
  (read : extractTags options marker group lines = .ok parsed)
include read

theorem unshadowed_of_read :
    ∀ id ∈ (extract marker group lines).keys, ¬Shadowed (extract marker group lines) id := by
  intro id member shadowed
  obtain ⟨line, accepted, rfl⟩ := (mem_keys_extract id).mp member
  obtain ⟨tag, spelled⟩ := exists_parseLines_iff.mp ⟨parsed, read⟩ line accepted
  obtain ⟨text, -, taken⟩ := mem_tagLines_iff.mp accepted
  obtain ⟨more, front⟩ := TagLine.colon_body taken shadowed.1 (shadowed_name_colon shadowed)
  exact Tag.no_colon_front spelled more front

theorem ofList_textField_read {α : Type} {held : Keyed Identifier (List α)}
    (keys : held.keys = (extract marker group lines).keys) (shown : α → Json) :
    (Keyed.ofList (held.map (textField shown))).Perm (held.map (textField shown)) := by
  have ordered : held.Ordered := by
    rw [Keyed.Ordered, keys]
    exact extract_ordered
  have plain : Plain held := by
    intro id member
    rw [keys] at member
    exact extract_plain id member
  apply ofList_textField_clear ordered plain shown
  intro entry member
  have filed : entry.1 ∈ (extract marker group lines).keys := by
    rw [← keys]
    exact List.mem_map_of_mem member
  rw [shadowed_of_keys keys]
  exact unshadowed_of_read read entry.1 filed

theorem keys_ofList_textField_read {α : Type} {held : Keyed Identifier (List α)}
    (keys : held.keys = (extract marker group lines).keys) (shown : α → Json) :
    (Keyed.ofList (held.map (textField shown))).keys.Perm (held.keys.map Identifier.text) := by
  have texts : (held.map (textField shown)).map Prod.fst = held.keys.map Identifier.text := by
    simp [Keyed.keys, textField]
  rw [← texts]
  exact (ofList_textField_read read keys shown).map Prod.fst

theorem exists_read_file {id : Identifier} {texts : List String}
    (member : (id, texts) ∈ extract marker group lines) :
    ∃ tags, (id, tags) ∈ parsed ∧
      texts.map (Tag.parse options) = tags.map (.ok : Tag → Except TagError Tag) := by
  have filed : (id, texts.map (Tag.parse options)) ∈
      parsed.mapItems (.ok : Tag → Except TagError Tag) := by
    rw [← extractTags_mapItems read]
    exact List.mem_map_of_mem member
  obtain ⟨⟨other, tags⟩, there, shown⟩ := List.mem_map.mp filed
  obtain ⟨rfl, spelled⟩ := Prod.mk.inj shown
  exact ⟨tags, there, spelled.symm⟩

end Fields

/-- No two identifiers of a batch that is read have one text. Its JSON form has all of its files,
    and the fields of the JSON form of the extraction with the bodies read. -/
theorem tagsJson_extractTags {options : Options} {marker : String} {group : Option String}
    {lines : List String} {parsed : Keyed Identifier (List Tag)}
    (read : extractTags options marker group lines = .ok parsed) :
    (parsed.keys.map Identifier.text).Nodup ∧
    ∃ tagFields bodyFields, tagsJson parsed = .object tagFields ∧
      bodiesJson (extract marker group lines) = .object bodyFields ∧
      tagFields.Perm (parsed.map (textField Tag.json)) ∧
      bodyFields.Perm ((extract marker group lines).map (textField .string)) ∧
      FieldsRead options tagFields bodyFields := by
  have keys : parsed.keys = (extract marker group lines).keys := (extractTags_files read).1
  have tagsKept := ofList_textField_read read keys Tag.json
  have bodiesKept := ofList_textField_read read rfl Json.string
  have tagsOrdered := Keyed.ordered_ofList (parsed.map (textField Tag.json))
  have bodiesOrdered := Keyed.ordered_ofList
    ((extract marker group lines).map (textField Json.string))
  have tagKeys := keys_ofList_textField_read read keys Tag.json
  have bodyKeys := keys_ofList_textField_read read rfl Json.string
  refine ⟨tagKeys.nodup_iff.mp tagsOrdered.nodup, _, _, rfl, rfl, tagsKept, bodiesKept, ?_, ?_⟩
  · rw [keys] at tagKeys
    apply List.Perm.eq_of_pairwise _ tagsOrdered bodiesOrdered (tagKeys.trans bodyKeys.symm)
    intro key other _ _ less more
    exact absurd more (Std.Asymm.asymm _ _ less)
  · intro key member
    obtain ⟨field, there, rfl⟩ := List.mem_map.mp member
    obtain ⟨⟨id, bodies⟩, filed, rfl⟩ := List.mem_map.mp (bodiesKept.mem_iff.mp there)
    obtain ⟨tags, filed', spelled⟩ := exists_read_file read filed
    have there' := tagsKept.mem_iff.mpr (List.mem_map_of_mem filed')
    exact ⟨bodies, tags, Keyed.find?_of_mem bodiesOrdered there,
      Keyed.find?_of_mem tagsOrdered there', spelled⟩

theorem grouped_files_read :
    let lines := ["+b:c=1", "text", " +a", "+b:c=x"]
    let parsed : Keyed Identifier (List Tag) :=
      [(⟨"", "a"⟩, [.single ⟨"a", []⟩ .none]),
        (⟨"b", "c"⟩, [.single ⟨"c", []⟩ (.scalar (.int "1" 1)),
          .single ⟨"c", []⟩ (.scalar (.string "x"))])]
    extractTags {} "+" none lines = .ok parsed ∧ (parsed.keys.map Identifier.text).Nodup ∧
      ∃ tagFields, tagsJson parsed = .object tagFields ∧ FieldsRead {} tagFields
        [("a", .array [.string "a"]), ("b:c", .array [.string "c=1", .string "c=x"])] := by
  intro lines parsed
  have read : extractTags {} "+" none lines = .ok parsed := by decide +kernel
  have filed : extract "+" none lines = [(⟨"", "a"⟩, ["a"]), (⟨"b", "c"⟩, ["c=1", "c=x"])] := by
    decide +kernel
  obtain ⟨nodup, tagFields, bodyFields, shown, bodies, -, -, fields⟩ := tagsJson_extractTags read
  rw [filed] at bodies
  obtain rfl := Json.object.inj bodies
  exact ⟨read, nodup, tagFields, shown, fields⟩

end CommentTags
