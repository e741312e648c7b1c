import CommentTags.Keyed

/- Filing treats items alike, so it commutes with a change of the items and loses none of them. -/
namespace CommentTags
namespace Keyed
variable {κ α β : Type}

def mapItems (entries : Keyed κ (List α)) (change : α → β) : Keyed κ (List β) :=
  entries.map fun (key, items) => (key, items.map change)

theorem mapItems_keys (entries : Keyed κ (List α)) (change : α → β) :
    (entries.mapItems change).map Prod.fst = entries.map Prod.fst := by
  simp [mapItems, Function.comp_def]

theorem mapItems_cons (key : κ) (items : List α) (later : Keyed κ (List α)) (change : α → β) :
    mapItems ((key, items) :: later) change = (key, items.map change) :: later.mapItems change :=
  rfl

def HoldsItem (entries : Keyed κ (List α)) (item : α) : Prop := ∃ entry ∈ entries, item ∈ entry.2

theorem holdsItem_nil (item : α) : ¬HoldsItem ([] : Keyed κ (List α)) item := by
  simp [HoldsItem]

theorem holdsItem_cons (key : κ) (items : List α) (later : Keyed κ (List α)) (item : α) :
    HoldsItem ((key, items) :: later) item ↔ item ∈ items ∨ later.HoldsItem item := by
  simp [HoldsItem]

section Ordered
variable [DecidableEq κ]

theorem find?_mapItems (entries : Keyed κ (List α)) (change : α → β) (key : κ) :
    (entries.mapItems change).find? key = (entries.find? key).map (List.map change) := by
  induction entries with
  | nil => rfl
  | cons entry later ih =>
    obtain ⟨first, items⟩ := entry
    rw [mapItems_cons]
    simp only [find?]
    split
    · rfl
    · exact ih

variable [LT κ] [DecidableLT κ]

theorem mapItems_file (entries : Keyed κ (List α)) (key : κ) (item : α) (change : α → β) :
    (entries.file key item).mapItems change =
      (entries.mapItems change).file key (change item) := by
  unfold file
  induction entries with
  | nil => rfl
  | cons entry later ih =>
    obtain ⟨first, items⟩ := entry
    rw [mapItems_cons]
    simp only [alter]
    split
    · simp [mapItems]
    · split
      · rfl
      · rw [mapItems_cons, ih]

theorem file_holdsItem (entries : Keyed κ (List α)) (key : κ) (item other : α) :
    (entries.file key item).HoldsItem other ↔ other = item ∨ entries.HoldsItem other := by
  unfold file
  induction entries with
  | nil => simp [alter, HoldsItem]
  | cons entry later ih =>
    obtain ⟨first, items⟩ := entry
    simp only [alter]
    split
    · simp only [holdsItem_cons, Option.getD_some, List.mem_append, List.mem_singleton]
      exact or_assoc.trans or_left_comm
    · split
      · simp [holdsItem_cons]
      · rw [holdsItem_cons, holdsItem_cons, ih, or_left_comm]

end Ordered
end Keyed
end CommentTags
