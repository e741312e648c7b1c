import CommentTags.Proofs.Keyed

/- Entries are kept in ascending order of their keys, one for each key. A change under a key leaves
   the entries of all other keys alone, so of a list of entries those stay that no later entry of
   the same key replaces. -/
namespace CommentTags
namespace Keyed
variable {κ α : Type}

def keys (entries : Keyed κ α) : List κ := entries.map Prod.fst

def allItems (entries : Keyed κ (List α)) : List α := entries.flatMap Prod.snd

def Filled (entries : Keyed κ (List α)) : Prop := ∀ entry ∈ entries, entry.2 ≠ []

theorem filter_allItems_le (entries : Keyed κ (List α)) (chosen : κ × List α → Bool) :
    (allItems (entries.filter chosen)).length ≤ entries.allItems.length := by
  induction entries with
  | nil => simp [allItems]
  | cons entry later ih =>
    simp only [allItems, List.filter_cons] at ih ⊢
    split <;> simp only [List.flatMap_cons, List.length_append] <;> omega

theorem filter_allItems_iff {entries : Keyed κ (List α)} (filled : entries.Filled)
    (chosen : κ × List α → Bool) :
    (allItems (entries.filter chosen)).length = entries.allItems.length ↔
      ∀ entry ∈ entries, chosen entry = true := by
  constructor
  · intro same
    induction entries with
    | nil => simp
    | cons entry later ih =>
      obtain ⟨here, further⟩ := List.forall_mem_cons.mp filled
      have some := List.length_pos_iff.mpr here
      have within := filter_allItems_le later chosen
      simp only [allItems, List.filter_cons, List.flatMap_cons, List.length_append]
        at ih same within
      split at same
      · rename_i first
        simp only [List.flatMap_cons, List.length_append] at same
        exact List.forall_mem_cons.mpr ⟨first, ih further (by omega)⟩
      · omega
  · intro all
    rw [List.filter_eq_self.mpr all]

def IsLast (fields : List (κ × α)) (entry : κ × α) : Prop :=
  ∃ front back, fields = front ++ entry :: back ∧ entry.1 ∉ keys back

theorem isLast_nil (entry : κ × α) : ¬IsLast [] entry := by
  rintro ⟨front, back, split, -⟩
  simp at split

theorem isLast_cons (first entry : κ × α) (later : List (κ × α)) :
    IsLast (first :: later) entry ↔
      IsLast later entry ∨ (entry = first ∧ entry.1 ∉ keys later) := by
  constructor
  · rintro ⟨front, back, split, last⟩
    cases front with
    | nil =>
      obtain ⟨rfl, rfl⟩ := List.cons.inj split
      exact .inr ⟨rfl, last⟩
    | cons other front =>
      obtain ⟨-, rfl⟩ := List.cons.inj split
      exact .inl ⟨front, back, rfl, last⟩
  · rintro (⟨front, back, rfl, last⟩ | ⟨rfl, last⟩)
    · exact ⟨first :: front, back, rfl, last⟩
    · exact ⟨[], later, rfl, last⟩

theorem keys_append (front back : Keyed κ α) : keys (front ++ back) = front.keys ++ back.keys :=
  List.map_append

theorem keys_cons (key : κ) (value : α) (later : Keyed κ α) :
    keys ((key, value) :: later) = key :: later.keys := List.map_cons

section Find
variable [DecidableEq κ]

theorem find?_append (front back : Keyed κ α) (key : κ) :
    find? (front ++ back) key = (front.find? key).or (back.find? key) := by
  induction front with
  | nil => rw [List.nil_append, find?, Option.none_or]
  | cons entry front ih =>
    obtain ⟨first, value⟩ := entry
    rw [List.cons_append, find?, find?, ih]
    split <;> simp

theorem find?_missing {entries : Keyed κ α} {key : κ} (missing : key ∉ entries.keys) :
    entries.find? key = none := by
  induction entries with
  | nil => rfl
  | cons entry later ih =>
    obtain ⟨first, value⟩ := entry
    rw [keys_cons, List.mem_cons, not_or] at missing
    obtain ⟨other, further⟩ := missing
    rw [find?, if_neg other]
    exact ih further

end Find

section Place
variable [LT κ] {front back : Keyed κ α} {key : κ}

/-- Entries that a change under the key passes over. -/
def Passed (key : κ) (front : Keyed κ α) : Prop := ∀ k ∈ front.keys, key ≠ k ∧ ¬key < k

theorem Passed.missing (passed : Passed key front) : key ∉ front.keys := by
  intro member
  exact (passed key member).1 rfl

def Ahead (key : κ) (back : Keyed κ α) : Prop := ∀ k ∈ back.keys.head?, key ≠ k ∧ key < k

variable [DecidableLT κ] [DecidableEq κ]

/-- A change under a key takes place at the entry of the key or in front of a greater key. -/
theorem exists_place (entries : Keyed κ α) (key : κ) :
    ∃ front back : Keyed κ α, Passed key front ∧
      ((∃ value, entries = front ++ (key, value) :: back) ∨
        (entries = front ++ back ∧ Ahead key back)) := by
  induction entries with
  | nil => exact ⟨[], [], by simp [Passed, keys], .inr ⟨rfl, by simp [Ahead, keys]⟩⟩
  | cons entry later ih =>
    obtain ⟨first, held⟩ := entry
    by_cases same : key = first
    · exact ⟨[], later, by simp [Passed, keys], .inl ⟨held, by simp [same]⟩⟩
    · by_cases less : key < first
      · have ahead : Ahead key ((first, held) :: later) := by simp [Ahead, keys, same, less]
        exact ⟨[], _, by simp [Passed, keys], .inr ⟨rfl, ahead⟩⟩
      · obtain ⟨front, back, passed, place⟩ := ih
        have further : Passed key ((first, held) :: front) := by
          intro k member
          rcases List.mem_cons.mp member with rfl | inside
          · exact ⟨same, less⟩
          · exact passed k inside
        refine ⟨(first, held) :: front, back, further, ?_⟩
        rcases place with ⟨value, rfl⟩ | ⟨rfl, ahead⟩
        · exact .inl ⟨value, rfl⟩
        · exact .inr ⟨rfl, ahead⟩

theorem alter_append (passed : Passed key front) (change : Option α → α) :
    (front ++ back).alter key change = front ++ back.alter key change := by
  induction front with
  | nil => rfl
  | cons entry front ih =>
    obtain ⟨first, value⟩ := entry
    obtain ⟨other, notLess⟩ := passed first (by simp [keys])
    have further : Passed key front := by
      intro k member
      exact passed k (List.mem_cons_of_mem first member)
    rw [List.cons_append, alter, if_neg other, if_neg notLess, ih further, List.cons_append]

theorem alter_here (value : α) (change : Option α → α) :
    alter ((key, value) :: back) key change = (key, change (some value)) :: back := by
  rw [alter, if_pos rfl]

theorem alter_ahead (ahead : Ahead key back) (change : Option α → α) :
    back.alter key change = (key, change none) :: back := by
  cases back with
  | nil => rfl
  | cons entry later =>
    obtain ⟨first, value⟩ := entry
    obtain ⟨other, less⟩ := ahead first (by simp [keys])
    rw [alter, if_neg other, if_pos less]

theorem mem_keys_alter (entries : Keyed κ α) (key other : κ) (change : Option α → α) :
    other ∈ (entries.alter key change).keys ↔ other = key ∨ other ∈ entries.keys := by
  obtain ⟨front, back, passed, ⟨value, rfl⟩ | ⟨rfl, ahead⟩⟩ := exists_place entries key
  · rw [alter_append passed, alter_here]
    simp only [keys_append, keys_cons, List.mem_append, List.mem_cons]
    grind
  · rw [alter_append passed, alter_ahead ahead]
    simp only [keys_append, keys_cons, List.mem_append, List.mem_cons]
    exact or_left_comm

theorem file_allItems (entries : Keyed κ (List α)) (key : κ) (item : α) :
    (entries.file key item).allItems.length = entries.allItems.length + 1 := by
  unfold file
  obtain ⟨front, back, passed, ⟨items, rfl⟩ | ⟨rfl, ahead⟩⟩ := exists_place entries key
  · rw [alter_append passed, alter_here]
    simp [allItems]
    omega
  · rw [alter_append passed, alter_ahead ahead]
    simp [allItems]
    omega

theorem file_filled {entries : Keyed κ (List α)} (filled : entries.Filled) (key : κ) (item : α) :
    (entries.file key item).Filled := by
  unfold file
  obtain ⟨front, back, passed, ⟨items, rfl⟩ | ⟨rfl, ahead⟩⟩ := exists_place entries key
  · rw [alter_append passed, alter_here]
    simp only [Filled, List.forall_mem_append, List.forall_mem_cons] at filled ⊢
    exact ⟨filled.1, by simp, filled.2.2⟩
  · rw [alter_append passed, alter_ahead ahead]
    simp only [Filled, List.forall_mem_append, List.forall_mem_cons] at filled ⊢
    exact ⟨filled.1, by simp, filled.2⟩

end Place

def Ordered [LT κ] (entries : Keyed κ α) : Prop := entries.keys.Pairwise (· < ·)

section Ordered
variable [LT κ] {entries front back : Keyed κ α} {key : κ}

theorem ordered_nil : Ordered ([] : Keyed κ α) := List.Pairwise.nil

theorem ordered_place_iff (front back : Keyed κ α) (key : κ) (value : α) :
    Ordered (front ++ (key, value) :: back) ↔
      Ordered (front ++ back) ∧ (∀ k ∈ front.keys, k < key) ∧ ∀ k ∈ back.keys, key < k := by
  simp only [Ordered, keys_append, keys_cons, List.pairwise_append, List.pairwise_cons,
    List.forall_mem_cons]
  grind

theorem Ordered.suffix (ordered : Ordered (front ++ back)) : back.Ordered := by
  rw [Ordered, keys_append, List.pairwise_append] at ordered
  exact ordered.2.1

theorem below_of_passed [Std.Trichotomous fun a b : κ => a < b] (passed : Passed key front) :
    ∀ k ∈ front.keys, k < key := by
  intro k member
  obtain ⟨other, notLess⟩ := passed k member
  by_cases below : k < key
  · exact below
  · exact absurd (Std.Trichotomous.trichotomous _ _ notLess below) other

theorem above_of_ahead [Trans (fun a b : κ => a < b) (fun a b => a < b) fun a b => a < b]
    (ahead : Ahead key back) (ordered : back.Ordered) : ∀ k ∈ back.keys, key < k := by
  intro k member
  cases back with
  | nil => simp [keys] at member
  | cons entry later =>
    obtain ⟨-, less⟩ := ahead entry.1 (by simp [keys])
    rcases List.mem_cons.mp member with rfl | further
    · exact less
    · exact Trans.trans less ((List.pairwise_cons.mp ordered).1 k further)

theorem ordered_alter [DecidableLT κ] [DecidableEq κ] [Std.Trichotomous fun a b : κ => a < b]
    [Trans (fun a b : κ => a < b) (fun a b => a < b) fun a b => a < b] (ordered : entries.Ordered)
    (key : κ) (change : Option α → α) : (entries.alter key change).Ordered := by
  obtain ⟨front, back, passed, ⟨value, rfl⟩ | ⟨rfl, ahead⟩⟩ := exists_place entries key
  · rw [alter_append passed, alter_here, ordered_place_iff]
    exact (ordered_place_iff front back key value).mp ordered
  · rw [alter_append passed, alter_ahead ahead, ordered_place_iff]
    exact ⟨ordered, below_of_passed passed, above_of_ahead ahead ordered.suffix⟩

variable [Std.Irrefl fun a b : κ => a < b]

theorem Ordered.nodup (ordered : entries.Ordered) : entries.keys.Nodup := by
  apply List.Pairwise.imp _ ordered
  rintro a _ less rfl
  exact Std.Irrefl.irrefl a less

theorem missing_of_above (above : ∀ k ∈ back.keys, key < k) : key ∉ back.keys := by
  intro member
  exact Std.Irrefl.irrefl key (above key member)

theorem ahead_of_above (above : ∀ k ∈ back.keys, key < k) : Ahead key back := by
  intro k first
  have less := above k (List.mem_of_mem_head? first)
  refine ⟨?_, less⟩
  intro same
  rw [same] at less
  exact Std.Irrefl.irrefl k less

theorem missing_of_below (below : ∀ k ∈ front.keys, k < key) : key ∉ front.keys := by
  intro member
  exact Std.Irrefl.irrefl key (below key member)

variable [DecidableEq κ]

theorem find?_of_mem (ordered : entries.Ordered) {value : α} (member : (key, value) ∈ entries) :
    entries.find? key = some value := by
  obtain ⟨front, back, rfl⟩ := List.append_of_mem member
  have below := ((ordered_place_iff front back key value).mp ordered).2.1
  rw [find?_append, find?_missing (missing_of_below below), find?, if_pos rfl, Option.none_or]

variable [DecidableLT κ] [Trans (fun a b : κ => a < b) (fun a b => a < b) fun a b => a < b]

theorem mem_insert_iff (ordered : entries.Ordered) (key : κ) (value : α) (entry : κ × α) :
    entry ∈ entries.insert key value ↔
      entry = (key, value) ∨ (entry ∈ entries ∧ entry.1 ≠ key) := by
  unfold insert
  have others {part : Keyed κ α} (missing : key ∉ part.keys) : entry ∈ part → entry.1 ≠ key := by
    rintro member rfl
    exact missing (List.mem_map_of_mem member)
  obtain ⟨front, back, passed, ⟨old, rfl⟩ | ⟨rfl, ahead⟩⟩ := exists_place entries key
  · obtain ⟨-, below, above⟩ := (ordered_place_iff front back key old).mp ordered
    have before := others (missing_of_below below)
    have behind := others (missing_of_above above)
    rw [alter_append passed, alter_here]
    simp only [List.mem_append, List.mem_cons]
    grind
  · have before := others passed.missing
    have behind := others (missing_of_above (above_of_ahead ahead ordered.suffix))
    rw [alter_append passed, alter_ahead ahead]
    simp only [List.mem_append, List.mem_cons]
    grind

variable [Std.Trichotomous fun a b : κ => a < b]

/-- Putting fields in one after the other keeps the last of each key, and what was there before
    under other keys. -/
theorem insert_all {kept : Keyed κ α} (ordered : kept.Ordered) (fields : List (κ × α)) :
    let filed := fields.foldl (fun kept (key, value) => kept.insert key value) kept
    filed.Ordered ∧ ∀ entry, entry ∈ filed ↔
      IsLast fields entry ∨ (entry ∈ kept ∧ entry.1 ∉ keys fields) := by
  induction fields generalizing kept with
  | nil => exact ⟨ordered, fun entry => by simp [isLast_nil, keys]⟩
  | cons first later ih =>
    obtain ⟨key, value⟩ := first
    obtain ⟨sorted, members⟩ := ih (ordered_alter ordered key fun _ => value)
    refine ⟨sorted, fun entry => (members entry).trans ?_⟩
    rw [← insert, mem_insert_iff ordered, isLast_cons]
    simp only [keys, List.map_cons, List.mem_cons, not_or]
    grind

theorem ordered_ofList (fields : List (κ × α)) : (ofList fields).Ordered :=
  (insert_all ordered_nil fields).1

theorem mem_ofList_iff (fields : List (κ × α)) (entry : κ × α) :
    entry ∈ ofList fields ↔ IsLast fields entry :=
  ((insert_all ordered_nil fields).2 entry).trans (by simp)

end Ordered
end Keyed
end CommentTags
