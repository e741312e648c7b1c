import CommentTags.Extraction
import CommentTags.Proofs.Extraction.Parts
import CommentTags.Proofs.KeyedFiles
import CommentTags.Proofs.Text.ByteOrder

/- What is filed of a line depends neither on its index nor on the other lines. So the files of a
   text are those of its parts one after another, and a filter for a group may be applied to the
   lines or to the files. -/
namespace CommentTags

def TagLine.entry (line : TagLine) : Identifier × String := (line.identifier, line.body)

/-- What is filed of a line, if it is accepted. -/
def filing? (marker : String) (group : Option String) (text : String) :
    Option (Identifier × String) :=
  (TagLine.accept? marker group 0 text).map TagLine.entry

def Accepts (marker : String) (group : Option String) (text : String) : Prop :=
  ∃ marked, trim text.toList = marker.toList ++ marked ∧
    ∀ wanted, group = some wanted → (markedIdentifier marked).group = wanted

section Lines
variable {marker : String} {group : Option String}

theorem accept?_entry (index : Nat) (text : String) :
    (TagLine.accept? marker group index text).map TagLine.entry = filing? marker group text := by
  induction index with
  | zero => rw [filing?]
  | succ index ih =>
    rw [TagLine.accept?_next, Option.map_map, ← ih]
    rfl

theorem linesFrom_entries (start : Nat) (lines : List String) :
    (linesFrom marker group start lines).map TagLine.entry =
      lines.filterMap (filing? marker group) := by
  induction lines generalizing start with
  | nil => rfl
  | cons text later ih =>
    rw [linesFrom_cons, List.map_append, ih, List.filterMap_cons, ← accept?_entry start text]
    cases TagLine.accept? marker group start text <;> simp

theorem tagLines_entries (lines : List String) :
    (tagLines marker group lines).map TagLine.entry = lines.filterMap (filing? marker group) := by
  rw [tagLines_eq, linesFrom_entries]

theorem filing?_eq_some_iff {text : String} {entry : Identifier × String} :
    filing? marker group text = some entry ↔
      ∃ marked, trim text.toList = marker.toList ++ marked ∧
        (TagLine.ofMarked 0 0 marked).inGroup group = true ∧
        (TagLine.ofMarked 0 0 marked).entry = entry := by
  rw [filing?, Option.map_eq_some_iff]
  constructor
  · intro filed
    obtain ⟨line, accepted, rfl⟩ := filed
    obtain ⟨found, inGroup⟩ := TagLine.accept?_eq_some_iff.mp accepted
    obtain ⟨marked, split, rfl⟩ := TagLine.ofLine?_eq_some_iff.mp found
    exact ⟨marked, split, inGroup, rfl⟩
  · intro parts
    obtain ⟨marked, split, inGroup, rfl⟩ := parts
    have found : TagLine.ofLine? marker 0 text = some _ :=
      TagLine.ofLine?_eq_some_iff.mpr ⟨marked, split, rfl⟩
    exact ⟨_, TagLine.accept?_eq_some_iff.mpr ⟨found, inGroup⟩, rfl⟩

theorem filing?_isSome_iff (text : String) :
    (filing? marker group text).isSome = true ↔ Accepts marker group text := by
  have inGroup_iff (marked : List Char) : (TagLine.ofMarked 0 0 marked).inGroup group = true ↔
      ∀ wanted, group = some wanted → (markedIdentifier marked).group = wanted := by
    cases group <;> simp [TagLine.inGroup, TagLine.ofMarked]
  rw [Option.isSome_iff_exists]
  constructor
  · intro filed
    obtain ⟨entry, filed⟩ := filed
    obtain ⟨marked, split, inGroup, -⟩ := filing?_eq_some_iff.mp filed
    exact ⟨marked, split, (inGroup_iff marked).mp inGroup⟩
  · intro accepts
    obtain ⟨marked, split, inGroup⟩ := accepts
    exact ⟨_, filing?_eq_some_iff.mpr ⟨marked, split, (inGroup_iff marked).mpr inGroup, rfl⟩⟩

instance (text : String) : Decidable (Accepts marker group text) :=
  decidable_of_iff _ (filing?_isSome_iff text)

theorem filing?_group (wanted text : String) :
    filing? marker (some wanted) text =
      (filing? marker none text).filter fun filed => filed.1.group == wanted := by
  unfold filing? TagLine.accept?
  cases TagLine.ofLine? marker 0 text with
  | none => rfl
  | some line =>
    by_cases same : line.identifier.group = wanted
    · simp [Option.filter_some, TagLine.inGroup, TagLine.entry, same]
    · simp [Option.filter_some, TagLine.inGroup, TagLine.entry, same]

end Lines

section Filing
variable {marker : String} {group : Option String} {lines : List String}

theorem extract_eq_fileAll : extract marker group lines =
    Keyed.fileAll [] (lines.filterMap (filing? marker group)) := by
  rw [extract, ← tagLines_entries, Keyed.fileAll, List.foldl_map]
  rfl

theorem extract_ordered : (extract marker group lines).Ordered := by
  rw [extract_eq_fileAll]
  exact Keyed.fileAll_ordered Keyed.ordered_nil _

theorem extract_filled : (extract marker group lines).Filled := by
  rw [extract_eq_fileAll]
  exact Keyed.fileAll_filled (by simp [Keyed.Filled]) _

theorem extract_allItems :
    (extract marker group lines).allItems.length = (tagLines marker group lines).length := by
  rw [extract_eq_fileAll, Keyed.fileAll_allItems, ← tagLines_entries, List.length_map]
  simp [Keyed.allItems]

theorem mem_keys_extract (id : Identifier) : id ∈ (extract marker group lines).keys ↔
    ∃ line ∈ tagLines marker group lines, line.identifier = id := by
  rw [extract_eq_fileAll, Keyed.mem_keys_fileAll, ← tagLines_entries]
  simp [Keyed.keys, TagLine.entry]

theorem itemsAt_extract (id : Identifier) : (extract marker group lines).itemsAt id =
    ((lines.filterMap (filing? marker group)).filter fun filed => filed.1 = id).map Prod.snd := by
  rw [extract_eq_fileAll, Keyed.itemsAt_fileAll Keyed.ordered_nil]
  rfl

theorem itemsAt_extract_append (front back : List String) (id : Identifier) :
    (extract marker group (front ++ back)).itemsAt id =
      (extract marker group front).itemsAt id ++ (extract marker group back).itemsAt id := by
  rw [itemsAt_extract, itemsAt_extract, itemsAt_extract, List.filterMap_append,
    List.filter_append, List.map_append]

theorem extract_allItems_eq_countP : (extract marker group lines).allItems.length =
    lines.countP fun line => Accepts marker group line := by
  rw [extract_allItems, ← List.length_map, tagLines_entries, List.length_filterMap_eq_countP]
  simp only [← filing?_isSome_iff, Bool.decide_eq_true]

theorem extract_group (wanted : String) : extract marker (some wanted) lines =
    (extract marker none lines).restrict fun id => id.group == wanted := by
  have chosen : filing? marker (some wanted) = fun text =>
      (filing? marker none text).filter fun filed => filed.1.group == wanted :=
    funext (filing?_group wanted)
  rw [extract_eq_fileAll, extract_eq_fileAll, Keyed.restrict_fileAll Keyed.ordered_nil,
    List.filter_filterMap, chosen]
  rfl

end Filing

namespace Identifier

/-- By the bytes of the group, and within a group by those of the name. -/
def BytesBefore (id other : Identifier) : Prop :=
  utf8 id.group < utf8 other.group ∨ (id.group = other.group ∧ utf8 id.name < utf8 other.name)

theorem bytesBefore_iff (id other : Identifier) : id.BytesBefore other ↔ id < other := by
  rw [BytesBefore, utf8_lt_iff, utf8_lt_iff]
  rfl

end Identifier

theorem extract_bytes_ascend (marker : String) (group : Option String) (lines : List String) :
    (extract marker group lines).keys.Pairwise Identifier.BytesBefore := by
  apply List.Pairwise.imp _ extract_ordered
  intro id other less
  exact (Identifier.bytesBefore_iff id other).mpr less

/-- The files of two texts in a row are those of the first continued by those of the second. No
    file is empty, all of them together hold one body for every accepted line, and the identifiers
    ascend in the order of their bytes. A filter for a group leaves the files of that group. -/
theorem extract_files (marker : String) (front back : List String) :
    (∀ group,
      (∀ id, (extract marker group (front ++ back)).itemsAt id =
        (extract marker group front).itemsAt id ++ (extract marker group back).itemsAt id) ∧
      (extract marker group front).Filled ∧
      (extract marker group front).allItems.length =
        front.countP (fun line => Accepts marker group line) ∧
      (extract marker group front).keys.Pairwise Identifier.BytesBefore) ∧
    ∀ group, extract marker (some group) front =
      (extract marker none front).restrict fun id => id.group == group := by
  constructor
  · intro group
    exact ⟨itemsAt_extract_append front back, extract_filled, extract_allItems_eq_countP,
      extract_bytes_ascend marker group front⟩
  · intro group
    exact extract_group group

end CommentTags
