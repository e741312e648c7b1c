import CommentTags.Proofs.Text.Runs
import CommentTags.Token.Class
import CommentTags.Token.Integer

/- Which characters belong to a name: no white space and none of the signs that stand between the
   parts of a tag, but every digit and every letter of an integer literal. -/
namespace CommentTags
namespace Unicode

def Apart (ranges others : List Range) : Prop :=
  ∀ range ∈ ranges, ∀ other ∈ others, other.last < range.first ∨ range.last < other.first

instance (ranges others : List Range) : Decidable (Apart ranges others) :=
  inferInstanceAs (Decidable (∀ range ∈ ranges, ∀ other ∈ others, _))

theorem covers_of_apart {code : Nat} {ranges others : List Range} (apart : Apart ranges others)
    (ascending : Ascending ranges) (ascending' : Ascending others)
    (covered : covers code ranges = true) : covers code others = false := by
  obtain ⟨range, member, lower, upper⟩ := (covers_iff code ranges ascending).mp covered
  cases both : covers code others with
  | false => rfl
  | true =>
    obtain ⟨other, member', lower', upper'⟩ := (covers_iff code others ascending').mp both
    have gap := apart range member other member'
    omega

theorem whiteSpace_apart_alphabetic : Apart whiteSpace alphabetic := by decide +kernel

theorem whiteSpace_apart_numeric : Apart whiteSpace numeric := by decide +kernel

theorem alphabetic_small_letter {c : Char} (bounds : 97 ≤ c.toNat ∧ c.toNat ≤ 122) :
    isAlphabetic c = true :=
  (covers_iff _ _ alphabetic_ascending).mpr ⟨⟨0x61, 0x7A⟩, by decide, bounds⟩

theorem alphabetic_capital_letter {c : Char} (bounds : 65 ≤ c.toNat ∧ c.toNat ≤ 90) :
    isAlphabetic c = true :=
  (covers_iff _ _ alphabetic_ascending).mpr ⟨⟨0x41, 0x5A⟩, by decide, bounds⟩

theorem numeric_digit {c : Char} (bounds : 48 ≤ c.toNat ∧ c.toNat ≤ 57) : isNumeric c = true :=
  (covers_iff _ _ numeric_ascending).mpr ⟨⟨0x30, 0x39⟩, by decide, bounds⟩

end Unicode
open Unicode

theorem white_space_not_in_tag_name {c : Char} (white : isWhiteSpace c = true) :
    isTagNameInterior c = false := by
  have letter : isAlphabetic c = false :=
    covers_of_apart whiteSpace_apart_alphabetic whiteSpace_ascending alphabetic_ascending white
  have number : isNumeric c = false :=
    covers_of_apart whiteSpace_apart_numeric whiteSpace_ascending numeric_ascending white
  have other (sign : Char) (dark : isWhiteSpace sign = false) : c ≠ sign := by
    intro same
    rw [same, dark] at white
    exact Bool.noConfusion white
  simp [isTagNameInterior, isNameInterior, letter, number, other '_' (by decide),
    other '.' (by decide), other '-' (by decide), other ':' (by decide)]

theorem name_interior_in_tag_name {c : Char} (inside : isNameInterior c = true) :
    isTagNameInterior c = true := by
  simp [isTagNameInterior, inside]

theorem tag_name_interior_not_white {c : Char} (inside : isTagNameInterior c = true) :
    isWhiteSpace c = false := by
  cases white : isWhiteSpace c with
  | false => rfl
  | true => simp [white_space_not_in_tag_name white] at inside

theorem name_interior_not_white {c : Char} (inside : isNameInterior c = true) :
    isWhiteSpace c = false :=
  tag_name_interior_not_white (name_interior_in_tag_name inside)

theorem name_start_not_white {c : Char} (first : isNameStart c = true) : isWhiteSpace c = false :=
  name_interior_not_white (name_start_is_interior c first)

theorem white_space_not_in_name {c : Char} (white : isWhiteSpace c = true) :
    isNameInterior c = false := by
  cases inside : isNameInterior c with
  | false => rfl
  | true => simp [name_interior_not_white inside] at white

theorem digitValue_code_iff (radix : Nat) (c : Char) (value : Nat) :
    digitValue radix c = some value ↔ value < radix ∧ (c.toNat = 48 + value ∧ value < 10 ∨
      10 ≤ value ∧ value < 16 ∧ (c.toNat = 87 + value ∨ c.toNat = 55 + value)) := by
  simp only [digitValue, Char.le_def, UInt32.le_iff_toNat_le, Char.toNat_val]
  by_cases decimal : 48 ≤ c.toNat ∧ c.toNat ≤ 57
  · simp [decimal]
    omega
  · by_cases small : 97 ≤ c.toNat ∧ c.toNat ≤ 102
    · simp [decimal, small]
      omega
    · by_cases capital : 65 ≤ c.toNat ∧ c.toNat ≤ 70
      · simp [decimal, small, capital]
        omega
      · simp [decimal, small, capital]
        omega

/-- Letters are digits of radices beyond ten only. -/
theorem digit_code {radix : Nat} {c : Char} (digit : (digitValue radix c).isSome) :
    48 ≤ c.toNat ∧ c.toNat ≤ 57 ∨ 10 < radix ∧
      (97 ≤ c.toNat ∧ c.toNat ≤ 102 ∨ 65 ≤ c.toNat ∧ c.toNat ≤ 70) := by
  obtain ⟨value, read⟩ := Option.isSome_iff_exists.mp digit
  have code := (digitValue_code_iff radix c value).mp read
  omega

theorem digit_in_name {radix : Nat} {c : Char} (digit : (digitValue radix c).isSome) :
    isNameInterior c = true := by
  rcases digit_code digit with decimal | ⟨_, small | capital⟩
  · simp [isNameInterior, numeric_digit decimal]
  · simp [isNameInterior, alphabetic_small_letter ⟨small.1, by omega⟩]
  · simp [isNameInterior, alphabetic_capital_letter ⟨capital.1, by omega⟩]

theorem radix_letter_in_name {c : Char} (marks : (markedRadix c).isSome) :
    isNameInterior c = true := by
  unfold markedRadix at marks
  split at marks <;> first | decide | simp at marks

end CommentTags
