/- Sets of code points, written as ascending lists of closed ranges. -/
namespace CommentTags.Unicode

structure Range where
  first : Nat
  last : Nat
deriving DecidableEq

/-- The ranges ascend, so the first one that starts beyond the code point ends the search. -/
def covers (code : Nat) : List Range → Bool
  | [] => false
  | range :: later =>
    if code < range.first then false
    else if code ≤ range.last then true
    else covers code later

def Ascending : List Range → Prop
  | [] => True
  | range :: later =>
    range.first ≤ range.last ∧ (∀ next ∈ later.head?, range.last < next.first) ∧ Ascending later

instance : (ranges : List Range) → Decidable (Ascending ranges)
  | [] => isTrue trivial
  | range :: later =>
    have : Decidable (Ascending later) := instDecidableAscending later
    inferInstanceAs (Decidable
      (range.first ≤ range.last ∧ (∀ next ∈ later.head?, range.last < next.first) ∧
        Ascending later))

theorem first_beyond (range : Range) (later : List Range) (ascending : Ascending (range :: later)) :
    ∀ other ∈ later, range.last < other.first := by
  induction later generalizing range with
  | nil => simp
  | cons next rest ih =>
    obtain ⟨_, gap, tail⟩ := ascending
    have here : range.last < next.first := gap next (by simp)
    intro other member
    rcases List.mem_cons.mp member with same | further
    · exact same ▸ here
    · have := ih next tail other further
      have := tail.1
      omega

theorem covers_iff (code : Nat) (ranges : List Range) (ascending : Ascending ranges) :
    covers code ranges = true ↔ ∃ range ∈ ranges, range.first ≤ code ∧ code ≤ range.last := by
  induction ranges with
  | nil => simp [covers]
  | cons range later ih =>
    have beyond := first_beyond range later ascending
    simp only [covers]
    split
    · rename_i before
      simp only [Bool.false_eq_true, false_iff]
      rintro ⟨other, member, start, _⟩
      rcases List.mem_cons.mp member with same | further
      · subst same; omega
      · have := beyond other further
        have := ascending.1
        omega
    · split
      · rename_i reached within
        simp only [true_iff]
        exact ⟨range, by simp, by omega, within⟩
      · rename_i reached outside
        rw [ih ascending.2.2]
        constructor
        · rintro ⟨other, member, bounds⟩
          exact ⟨other, by simp [member], bounds⟩
        · rintro ⟨other, member, bounds⟩
          rcases List.mem_cons.mp member with same | further
          · subst same; omega
          · exact ⟨other, further, bounds⟩

end CommentTags.Unicode
