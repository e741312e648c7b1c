import CommentTags.Extraction.Json
import CommentTags.Proofs.Extraction.Filing

/- What the JSON form of an extraction loses. Its keys are the texts of the identifiers, and an
   identifier without a group may have the text of one with a group. It comes first and gives way,
   and every other identifier keeps all that is filed under it. -/
namespace CommentTags

def Plain {α : Type} (filed : Keyed Identifier α) : Prop :=
  ∀ id ∈ filed.keys, ':' ∉ id.group.toList

section Plain
variable {marker : String} {group : Option String} {lines : List String}

theorem tagLines_group_plain {line : TagLine} (accepted : line ∈ tagLines marker group lines) :
    ':' ∉ line.identifier.group.toList := by
  obtain ⟨text, -, taken⟩ := mem_tagLines_iff.mp accepted
  obtain ⟨found, -⟩ := TagLine.accept?_eq_some_iff.mp taken
  obtain ⟨marked, -, parts⟩ := TagLine.ofLine?_eq_some_iff.mp found
  rw [parts]
  exact Identifier.group_plain _

theorem extract_plain : Plain (extract marker group lines) := by
  intro id member
  obtain ⟨line, accepted, rfl⟩ := (mem_keys_extract id).mp member
  exact tagLines_group_plain accepted

end Plain

section Shadows
variable {α : Type}

/-- An identifier without a group whose name is the text of an identifier with a group. -/
def Shadowed (filed : Keyed Identifier α) (id : Identifier) : Prop :=
  id.group = "" ∧ ∃ other ∈ filed.keys, other.group ≠ "" ∧ other.text = id.text

instance (filed : Keyed Identifier α) (id : Identifier) : Decidable (Shadowed filed id) :=
  inferInstanceAs (Decidable (_ ∧ ∃ other ∈ filed.keys, _))

variable {filed : Keyed Identifier α}

theorem shadowed_of_keys {β : Type} {other : Keyed Identifier β} (keys : filed.keys = other.keys)
    (id : Identifier) : Shadowed filed id ↔ Shadowed other id := by
  rw [Shadowed, Shadowed, keys]

theorem shadowed_name_colon {id : Identifier} (shadowed : Shadowed filed id) :
    ':' ∈ id.name.toList := by
  obtain ⟨ungrouped, other, -, grouped, same⟩ := shadowed
  rw [← Identifier.text_ungrouped ungrouped, ← same, Identifier.text_grouped grouped]
  simp

/-- Of two identifiers with one text the first is shadowed. -/
theorem shadowed_of_later (plain : Plain filed) {id other : Identifier}
    (member : id ∈ filed.keys) (member' : other ∈ filed.keys) (less : id < other)
    (same : other.text = id.text) : Shadowed filed id := by
  have apart : ¬(id.group = "" ↔ other.group = "") := by
    intro alike
    obtain rfl := Identifier.eq_of_text (plain id member) (plain other member') alike same.symm
    exact Std.Irrefl.irrefl id less
  by_cases ungrouped : other.group = ""
  · exact absurd ⟨fun _ => ungrouped, fun _ => Identifier.ungrouped_first less ungrouped⟩ apart
  · refine ⟨Decidable.byContradiction fun grouped => apart ?_, other, member', ungrouped, same⟩
    exact ⟨fun none => absurd none grouped, fun none => absurd none ungrouped⟩

theorem shadowed_iff_later {front back : Keyed Identifier α} {entry : Identifier × α}
    (split : filed = front ++ entry :: back) (ordered : filed.Ordered)
    (plain : Plain filed) :
    Shadowed filed entry.1 ↔ ∃ other ∈ back.keys, other.text = entry.1.text := by
  have keys : filed.keys = front.keys ++ entry.1 :: back.keys := by simp [split, Keyed.keys]
  have sorted := ordered
  rw [Keyed.Ordered, keys, List.pairwise_append, List.pairwise_cons] at sorted
  obtain ⟨-, ⟨behind, -⟩, before⟩ := sorted
  constructor
  · rintro ⟨ungrouped, other, member, grouped, same⟩
    rw [keys, List.mem_append, List.mem_cons] at member
    rcases member with above | rfl | below
    · have less := before other above entry.1 (by simp)
      exact absurd (Identifier.ungrouped_first less ungrouped) grouped
    · exact absurd ungrouped grouped
    · exact ⟨other, below, same⟩
  · rintro ⟨other, below, same⟩
    exact shadowed_of_later plain (by simp [keys]) (by simp [keys, below]) (behind other below) same

end Shadows

def textField {α : Type} (shown : α → Json) (entry : Identifier × List α) : String × Json :=
  (entry.1.text, .array (entry.2.map shown))

def Json.items : Json → List Json
  | .array items => items
  | _ => []

def unshadowed {α : Type} (filed : Keyed Identifier α) : Keyed Identifier α :=
  filed.filter fun entry => ¬Shadowed filed entry.1

theorem textField_items {α : Type} (shown : α → Json) (entries : Keyed Identifier (List α)) :
    ((entries.map (textField shown)).flatMap fun field => field.2.items).length =
      entries.allItems.length := by
  simp [textField, Json.items, Keyed.allItems, List.flatMap_map, List.length_flatMap]

section Fields
variable {α : Type} {filed : Keyed Identifier (List α)} (ordered : filed.Ordered)
  (plain : Plain filed) (shown : α → Json)
include ordered plain

theorem isLast_textField (field : String × Json) :
    Keyed.IsLast (filed.map (textField shown)) field ↔
      field ∈ (unshadowed filed).map (textField shown) := by
  constructor
  · rintro ⟨_, _, fields, last⟩
    obtain ⟨front, rest, split, -, shown⟩ := List.map_eq_append_iff.mp fields
    obtain ⟨entry, back, rfl, rfl, rfl⟩ := List.map_eq_cons_iff.mp shown
    refine List.mem_map_of_mem (List.mem_filter.mpr ⟨by simp [split], ?_⟩)
    rw [decide_eq_true_iff, shadowed_iff_later split ordered plain]
    rintro ⟨other, member, same⟩
    obtain ⟨behind, below, rfl⟩ := List.mem_map.mp member
    exact last (List.mem_map.mpr ⟨_, List.mem_map_of_mem below, same⟩)
  · intro member
    obtain ⟨entry, kept, rfl⟩ := List.mem_map.mp member
    obtain ⟨there, lit⟩ := List.mem_filter.mp kept
    obtain ⟨front, back, split⟩ := List.append_of_mem there
    refine ⟨front.map (textField shown), back.map (textField shown), by simp [split], ?_⟩
    rw [decide_eq_true_iff, shadowed_iff_later split ordered plain] at lit
    intro later
    obtain ⟨field, below, same⟩ := List.mem_map.mp later
    obtain ⟨other, behind, rfl⟩ := List.mem_map.mp below
    exact lit ⟨other.1, List.mem_map_of_mem behind, same⟩

theorem unshadowed_texts_nodup : ((unshadowed filed).map (textField shown)).Nodup := by
  have sorted : filed.Pairwise fun entry other => entry.1 < other.1 := List.pairwise_map.mp ordered
  refine List.pairwise_map.mpr (List.Pairwise.imp_of_mem ?_ (sorted.filter _))
  intro entry other kept kept' less same
  obtain ⟨member, lit⟩ := List.mem_filter.mp kept
  have member' := (List.mem_filter.mp kept').1
  exact of_decide_eq_true lit (shadowed_of_later plain (List.mem_map_of_mem member)
    (List.mem_map_of_mem member') less (congrArg Prod.fst same).symm)

theorem ofList_textField :
    (Keyed.ofList (filed.map (textField shown))).Perm
      ((unshadowed filed).map (textField shown)) := by
  have nodup : (Keyed.ofList (filed.map (textField shown))).Nodup :=
    List.Pairwise.of_map Prod.fst (fun _ _ apart same => apart (congrArg Prod.fst same))
      (Keyed.ordered_ofList _).nodup
  refine (List.perm_ext_iff_of_nodup nodup (unshadowed_texts_nodup ordered plain shown)).mpr ?_
  intro field
  exact (Keyed.mem_ofList_iff _ _).trans (isLast_textField ordered plain shown field)

theorem ofList_textField_clear (clear : ∀ entry ∈ filed, ¬Shadowed filed entry.1) :
    (Keyed.ofList (filed.map (textField shown))).Perm (filed.map (textField shown)) := by
  have kept := ofList_textField ordered plain shown
  rwa [unshadowed, List.filter_eq_self.mpr (by simpa using clear)] at kept

theorem ofList_textField_items (filled : filed.Filled) :
    ((Keyed.ofList (filed.map (textField shown))).flatMap fun field => field.2.items).length =
        filed.allItems.length ↔ ∀ entry ∈ filed, ¬Shadowed filed entry.1 := by
  have kept := ofList_textField ordered plain shown
  rw [(kept.flatMap_right _).length_eq, textField_items, unshadowed,
    Keyed.filter_allItems_iff filled]
  simp

theorem ofList_textField_all (filled : filed.Filled) :
    (Keyed.ofList (filed.map (textField shown))).Perm (filed.map (textField shown)) ↔
      ∀ entry ∈ filed, ¬Shadowed filed entry.1 := by
  constructor
  · intro whole
    rw [← ofList_textField_items ordered plain shown filled, (whole.flatMap_right _).length_eq,
      textField_items]
  · exact ofList_textField_clear ordered plain shown

end Fields

/-- The JSON form of an extraction has the file of every identifier that is not shadowed, in
    ascending order of the texts. So it has the files of all identifiers, and as many texts as there
    are accepted lines, exactly if none is shadowed. -/
theorem bodiesJson_extract (marker : String) (group : Option String) (lines : List String) :
    let filed := extract marker group lines
    ∃ fields, bodiesJson filed = .object fields ∧ Keyed.Ordered fields ∧
      fields.Perm ((unshadowed filed).map (textField .string)) ∧
      (fields.Perm (filed.map (textField .string)) ↔ ∀ entry ∈ filed, ¬Shadowed filed entry.1) ∧
      ((fields.flatMap fun field => field.2.items).length = (tagLines marker group lines).length ↔
        ∀ entry ∈ filed, ¬Shadowed filed entry.1) := by
  intro filed
  have ordered : filed.Ordered := extract_ordered
  have plain : Plain filed := extract_plain
  have filled : filed.Filled := extract_filled
  refine ⟨_, rfl, Keyed.ordered_ofList _, ofList_textField ordered plain _,
    ofList_textField_all ordered plain _ filled, ?_⟩
  rw [← extract_allItems]
  exact ofList_textField_items ordered plain _ filled

theorem shadowed_file_lost :
    let lines := ["+:b:c", "+b:c"]
    bodiesJson (extract "+" none lines) = .object [("b:c", .array [.string "c"])] ∧
      (tagLines "+" none lines).length = 2 ∧
      extract "+" none lines = [(⟨"", "b:c"⟩, [":b:c"]), (⟨"b", "c"⟩, ["c"])] := by
  intro lines
  have filed : extract "+" none lines = [(⟨"", "b:c"⟩, [":b:c"]), (⟨"b", "c"⟩, ["c"])] := by
    decide +kernel
  refine ⟨?_, by decide +kernel, filed⟩
  rw [filed]
  rfl

theorem unshadowed_in_group (marker group : String) (lines : List String) :
    ∀ entry ∈ extract marker (some group) lines,
      ¬Shadowed (extract marker (some group) lines) entry.1 := by
  have grouped : ∀ id ∈ (extract marker (some group) lines).keys, id.group = group := by
    intro id member
    obtain ⟨line, accepted, rfl⟩ := (mem_keys_extract id).mp member
    obtain ⟨_, -, taken⟩ := mem_tagLines_iff.mp accepted
    simpa [TagLine.inGroup] using (TagLine.accept?_eq_some_iff.mp taken).2
  rintro entry member ⟨ungrouped, other, member', apart, -⟩
  have same := grouped entry.1 (List.mem_map_of_mem member)
  exact apart ((grouped other member').trans (same.symm.trans ungrouped))

end CommentTags
