import CommentTags.Proofs.KeyedOrder

/- Filing one item after another. The file of a key holds the items that were filed under it, in the
   order in which they came, and what is filed under one key makes no difference to the others. So
   taking the items out, file by file, and filing them again restores the files. -/
namespace CommentTags
namespace Keyed
variable {κ α : Type}

def restrict (entries : Keyed κ α) (chosen : κ → Bool) : Keyed κ α :=
  entries.filter fun entry => chosen entry.1

theorem restrict_append (front back : Keyed κ α) (chosen : κ → Bool) :
    restrict (front ++ back) chosen = front.restrict chosen ++ back.restrict chosen :=
  List.filter_append ..

theorem restrict_cons (first : κ) (value : α) (later : Keyed κ α) (chosen : κ → Bool) :
    restrict ((first, value) :: later) chosen =
      if chosen first then (first, value) :: later.restrict chosen else later.restrict chosen :=
  List.filter_cons

theorem mem_keys_of_restrict {entries : Keyed κ α} {chosen : κ → Bool} {key : κ}
    (member : key ∈ (entries.restrict chosen).keys) : key ∈ entries.keys := by
  obtain ⟨entry, kept, rfl⟩ := List.mem_map.mp member
  exact List.mem_map_of_mem (List.mem_filter.mp kept).1

section Files
variable [DecidableEq κ] [LT κ] [DecidableLT κ]

def itemsAt (entries : Keyed κ (List α)) (key : κ) : List α := (entries.find? key).getD []

def fileAll (entries : Keyed κ (List α)) (items : List (κ × α)) : Keyed κ (List α) :=
  items.foldl (fun filed (key, item) => filed.file key item) entries

theorem fileAll_cons (entries : Keyed κ (List α)) (key : κ) (item : α) (later : List (κ × α)) :
    entries.fileAll ((key, item) :: later) = (entries.file key item).fileAll later := by
  rw [fileAll, List.foldl_cons, fileAll]

theorem fileAll_append (entries : Keyed κ (List α)) (items later : List (κ × α)) :
    entries.fileAll (items ++ later) = (entries.fileAll items).fileAll later := by
  rw [fileAll, List.foldl_append, fileAll, fileAll]

theorem mem_keys_fileAll (entries : Keyed κ (List α)) (items : List (κ × α)) (key : κ) :
    key ∈ (entries.fileAll items).keys ↔ key ∈ items.map Prod.fst ∨ key ∈ entries.keys := by
  induction items generalizing entries with
  | nil => simp [fileAll]
  | cons first later ih =>
    rw [fileAll_cons, ih, file, mem_keys_alter, List.map_cons, List.mem_cons]
    exact or_left_comm.trans or_assoc.symm

theorem fileAll_holdsItem (entries : Keyed κ (List α)) (items : List (κ × α)) (item : α) :
    (entries.fileAll items).HoldsItem item ↔
      item ∈ items.map Prod.snd ∨ entries.HoldsItem item := by
  induction items generalizing entries with
  | nil => simp [fileAll]
  | cons first later ih =>
    rw [fileAll_cons, ih, file_holdsItem, List.map_cons, List.mem_cons]
    exact or_left_comm.trans or_assoc.symm

theorem fileAll_allItems (entries : Keyed κ (List α)) (items : List (κ × α)) :
    (entries.fileAll items).allItems.length = entries.allItems.length + items.length := by
  induction items generalizing entries with
  | nil => simp [fileAll]
  | cons first later ih =>
    rw [fileAll_cons, ih, file_allItems, List.length_cons]
    omega

theorem fileAll_filled {entries : Keyed κ (List α)} (filled : entries.Filled)
    (items : List (κ × α)) : (entries.fileAll items).Filled := by
  induction items generalizing entries with
  | nil => exact filled
  | cons first later ih => exact ih (file_filled filled first.1 first.2)

variable [Trans (fun a b : κ => a < b) (fun a b => a < b) fun a b => a < b]
  [Std.Trichotomous fun a b : κ => a < b]

theorem fileAll_ordered {entries : Keyed κ (List α)} (ordered : entries.Ordered)
    (items : List (κ × α)) : (entries.fileAll items).Ordered := by
  induction items generalizing entries with
  | nil => exact ordered
  | cons first later ih => exact ih (ordered_alter ordered first.1 _)

end Files

section Order
variable [DecidableEq κ] [LT κ] [DecidableLT κ] [Std.Irrefl fun a b : κ => a < b]
  [Trans (fun a b : κ => a < b) (fun a b => a < b) fun a b => a < b]

theorem find?_alter {entries : Keyed κ α} (ordered : entries.Ordered) (key other : κ)
    (change : Option α → α) :
    (entries.alter key change).find? other =
      if other = key then some (change (entries.find? key)) else entries.find? other := by
  obtain ⟨front, back, passed, ⟨value, rfl⟩ | ⟨rfl, ahead⟩⟩ := exists_place entries key
  · have missing := passed.missing
    rw [alter_append passed, alter_here]
    by_cases here : other = key
    · simp [here, find?_append, find?_missing missing, find?]
    · simp [here, find?_append, find?]
  · have missing := passed.missing
    have missing' : key ∉ back.keys := missing_of_above (above_of_ahead ahead ordered.suffix)
    rw [alter_append passed, alter_ahead ahead]
    by_cases here : other = key
    · simp [here, find?_append, find?_missing missing, find?_missing missing', find?]
    · simp [here, find?_append, find?]

theorem itemsAt_file {entries : Keyed κ (List α)} (ordered : entries.Ordered) (key other : κ)
    (item : α) :
    (entries.file key item).itemsAt other =
      entries.itemsAt other ++ if key = other then [item] else [] := by
  rw [itemsAt, file, find?_alter ordered]
  by_cases same : other = key
  · simp [same, itemsAt]
  · simp [same, Ne.symm same, itemsAt]

/-- What is filed under a key that is not chosen makes no difference to the chosen ones. -/
theorem restrict_file {entries : Keyed κ (List α)} (ordered : entries.Ordered)
    (chosen : κ → Bool) (key : κ) (item : α) :
    (entries.file key item).restrict chosen =
      if chosen key then (entries.restrict chosen).file key item else entries.restrict chosen := by
  unfold file
  obtain ⟨front, back, passed, ⟨items, rfl⟩ | ⟨rfl, ahead⟩⟩ := exists_place entries key
  · have stillPassed : Passed key (front.restrict chosen) :=
      fun k member => passed k (mem_keys_of_restrict member)
    rw [alter_append passed, alter_here]
    simp only [restrict_append, restrict_cons]
    split
    · rw [alter_append stillPassed, alter_here]
    · rfl
  · have stillPassed : Passed key (front.restrict chosen) :=
      fun k member => passed k (mem_keys_of_restrict member)
    have stillAhead : Ahead key (back.restrict chosen) :=
      ahead_of_above fun k member =>
        above_of_ahead ahead ordered.suffix k (mem_keys_of_restrict member)
    rw [alter_append passed, alter_ahead ahead]
    simp only [restrict_append, restrict_cons]
    split
    · rw [alter_append stillPassed, alter_ahead stillAhead]
    · rfl

variable [Std.Trichotomous fun a b : κ => a < b]

theorem find?_insert_all {kept : Keyed κ α} (ordered : kept.Ordered) (fields : List (κ × α))
    (key : κ) :
    (fields.foldl (fun kept (key, value) => kept.insert key value) kept).find? key =
      (find? fields.reverse key).or (kept.find? key) := by
  induction fields generalizing kept with
  | nil => rfl
  | cons first later ih =>
    obtain ⟨place, value⟩ := first
    have inserted : (kept.insert place value).Ordered := ordered_alter ordered place _
    refine (ih inserted).trans ?_
    rw [insert, find?_alter ordered, List.reverse_cons, find?_append, Option.or_assoc]
    by_cases same : key = place <;> simp [same, find?]

theorem find?_ofList (fields : List (κ × α)) (key : κ) :
    (ofList fields).find? key = find? fields.reverse key := by
  rw [ofList, find?_insert_all ordered_nil]
  exact Option.or_none

theorem itemsAt_fileAll {entries : Keyed κ (List α)} (ordered : entries.Ordered)
    (items : List (κ × α)) (key : κ) :
    (entries.fileAll items).itemsAt key =
      entries.itemsAt key ++ (items.filter fun filed => filed.1 = key).map Prod.snd := by
  induction items generalizing entries with
  | nil => simp [fileAll]
  | cons first later ih =>
    obtain ⟨place, item⟩ := first
    have filedOrdered : (entries.file place item).Ordered := ordered_alter ordered place _
    rw [fileAll_cons, ih filedOrdered, itemsAt_file ordered]
    by_cases same : place = key
    · simp [same]
    · simp [same]

theorem restrict_fileAll {entries : Keyed κ (List α)} (ordered : entries.Ordered)
    (items : List (κ × α)) (chosen : κ → Bool) :
    (entries.fileAll items).restrict chosen =
      (entries.restrict chosen).fileAll (items.filter fun filed => chosen filed.1) := by
  induction items generalizing entries with
  | nil => simp [fileAll]
  | cons first later ih =>
    obtain ⟨place, item⟩ := first
    have filedOrdered : (entries.file place item).Ordered := ordered_alter ordered place _
    rw [fileAll_cons, ih filedOrdered, restrict_file ordered, List.filter_cons]
    split
    · rw [fileAll_cons]
    · simp

end Order

def filings (entries : Keyed κ (List α)) : List (κ × α) :=
  entries.flatMap fun (key, items) => items.map (key, ·)

theorem filings_cons (key : κ) (items : List α) (later : Keyed κ (List α)) :
    filings ((key, items) :: later) = items.map (key, ·) ++ later.filings := List.flatMap_cons

section Refiling
variable [LT κ] {front : Keyed κ (List α)} {key : κ}

theorem passed_of_below [Std.Irrefl fun a b : κ => a < b]
    [Trans (fun a b : κ => a < b) (fun a b => a < b) fun a b => a < b]
    (below : ∀ k ∈ front.keys, k < key) : Passed key front := by
  intro k member
  have less := below k member
  refine ⟨fun same => missing_of_below below (same ▸ member), ?_⟩
  intro more
  exact Std.Irrefl.irrefl k (Trans.trans less more)

variable [DecidableEq κ] [DecidableLT κ]

theorem file_new (passed : Passed key front) (item : α) :
    front.file key item = front ++ [(key, [item])] := by
  rw [file, ← List.append_nil front, alter_append passed, alter_ahead (by simp [Ahead, keys])]
  simp

theorem fileAll_last (passed : Passed key front) (items more : List α) :
    (front ++ [(key, items)]).fileAll (more.map (key, ·)) = front ++ [(key, items ++ more)] := by
  induction more generalizing items with
  | nil => simp [fileAll]
  | cons item more ih =>
    rw [List.map_cons, fileAll_cons, file, alter_append passed, alter_here, ih]
    simp

variable [Std.Irrefl fun a b : κ => a < b]
  [Trans (fun a b : κ => a < b) (fun a b => a < b) fun a b => a < b]

/-- The files that stand there already come before those that are filed. -/
theorem fileAll_behind {later : Keyed κ (List α)} (ordered : Ordered (front ++ later))
    (filled : later.Filled) : front.fileAll later.filings = front ++ later := by
  induction later generalizing front with
  | nil => simp [fileAll, filings]
  | cons entry later ih =>
    obtain ⟨key, items⟩ := entry
    obtain ⟨some, further⟩ := List.forall_mem_cons.mp filled
    have passed := passed_of_below ((ordered_place_iff front later key items).mp ordered).2.1
    have moved : Ordered ((front ++ [(key, items)]) ++ later) := by simpa using ordered
    cases items with
    | nil => exact absurd rfl some
    | cons item more =>
      rw [filings_cons, fileAll_append, List.map_cons, fileAll_cons, file_new passed,
        fileAll_last passed, List.singleton_append, ih moved further]
      simp

theorem fileAll_filings {filed : Keyed κ (List α)} (ordered : filed.Ordered)
    (filled : filed.Filled) : fileAll [] filed.filings = filed :=
  fileAll_behind (by simpa using ordered) filled

variable [Std.Trichotomous fun a b : κ => a < b]

theorem mem_of_filings {items : List (κ × α)} {item : α}
    (member : (key, item) ∈ (fileAll [] items).filings) : (key, item) ∈ items := by
  obtain ⟨⟨place, file⟩, there, inside⟩ := List.mem_flatMap.mp member
  obtain ⟨_, inside, same⟩ := List.mem_map.mp inside
  obtain ⟨rfl, rfl⟩ := Prod.mk.inj same
  have found := find?_of_mem (fileAll_ordered ordered_nil items) there
  have kept : (fileAll [] items).itemsAt place = file := by rw [itemsAt, found, Option.getD_some]
  rw [← kept, itemsAt_fileAll ordered_nil] at inside
  simpa [itemsAt, find?] using inside

end Refiling
end Keyed
end CommentTags
