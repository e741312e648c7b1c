import CommentTags.Proofs.Token.Apart

/- The form of an integer literal and the number it stands for. The longest literal at the front of
   a text is found again whatever follows, as long as that cannot belong to a name. -/
namespace CommentTags

def MarksRadix (letter : Char) (radix : Nat) : Prop :=
  (radix = 16 ∧ (letter = 'x' ∨ letter = 'X')) ∨ (radix = 8 ∧ (letter = 'o' ∨ letter = 'O')) ∨
    (radix = 2 ∧ (letter = 'b' ∨ letter = 'B'))

/-- What a digit is worth in every radix that has it. -/
def worth? (c : Char) : Option Nat := "0123456789abcdef".toList.idxOf? c.toLower

def IsDigit (radix : Nat) (c : Char) : Prop := ∃ value, worth? c = some value ∧ value < radix

theorem markedRadix_eq_some_iff (letter : Char) (radix : Nat) :
    markedRadix letter = some radix ↔ MarksRadix letter radix := by
  unfold markedRadix MarksRadix
  split <;> simp_all [eq_comm]

theorem markedRadix_eq_none_iff (letter : Char) :
    markedRadix letter = none ↔ ∀ radix, ¬ MarksRadix letter radix := by
  simp only [Option.eq_none_iff_forall_ne_some, ne_eq, markedRadix_eq_some_iff]

theorem MarksRadix.positive {letter : Char} {radix : Nat} (marks : MarksRadix letter radix) :
    0 < radix := by
  rcases marks with ⟨rfl, _⟩ | ⟨rfl, _⟩ | ⟨rfl, _⟩ <;> decide

theorem worth?_beyond {c : Char} (beyond : 128 ≤ c.toNat) : worth? c = none := by
  have same : c.toLower = c := by
    refine dif_neg fun capital => ?_
    have within : c.toNat ≤ 90 := UInt32.le_iff_toNat_le.mp capital.2
    omega
  rw [worth?, same, List.idxOf?_eq_none_iff]
  intro member
  have small : "0123456789abcdef".toList.all (·.toNat < 128) = true := by decide
  have within := of_decide_eq_true (List.all_eq_true.mp small c member)
  omega

theorem worth?_eq_digitValue (c : Char) : worth? c = digitValue 16 c := by
  by_cases ascii : c.toNat < 128
  · have table : ∀ code < 128, worth? (Char.ofNat code) = digitValue 16 (Char.ofNat code) := by
      decide +kernel
    rw [← Char.ofNat_toNat c]
    exact table c.toNat ascii
  · rw [worth?_beyond (by omega), eq_comm, Option.eq_none_iff_forall_ne_some]
    intro value read
    have code := (digitValue_code_iff 16 c value).mp read
    omega

theorem digitValue_eq_some_iff (radix : Nat) (c : Char) (value : Nat) :
    digitValue radix c = some value ↔ worth? c = some value ∧ value < radix := by
  rw [worth?_eq_digitValue, digitValue_code_iff, digitValue_code_iff]
  omega

theorem isSome_digitValue_iff (radix : Nat) (c : Char) :
    (digitValue radix c).isSome ↔ IsDigit radix c := by
  simp only [Option.isSome_iff_exists, digitValue_eq_some_iff, IsDigit]

namespace IntegerLiteral

structure WellFormed (literal : IntegerLiteral) : Prop where
  sign : literal.sign = [] ∨ literal.sign = ['+'] ∨ literal.sign = ['-']
  radix : (literal.radixMark = [] ∧ literal.radix = 10) ∨
    ∃ letter, literal.radixMark = ['0', letter] ∧ MarksRadix letter literal.radix
  something : literal.digits ≠ []
  digits : ∀ c ∈ literal.digits, IsDigit literal.radix c

/-- Without a mark, a zero in front of further digits makes a literal octal. -/
def base (literal : IntegerLiteral) : Nat :=
  if literal.radixMark = [] ∧ literal.digits.head? = some '0' ∧ 1 < literal.digits.length then 8
  else literal.radix

/-- The number that `digits` make behind digits worth `total`. -/
def magnitude (radix total : Nat) (digits : List Char) : Nat :=
  digits.foldl (fun total c => total * radix + (worth? c).getD 0) total

def signed (literal : IntegerLiteral) (magnitude : Nat) : Int :=
  if literal.sign = ['-'] then -magnitude else magnitude

structure Denotes (literal : IntegerLiteral) (value : Int64) : Prop where
  digits : ∀ c ∈ literal.digits, IsDigit literal.base c
  value : value.toInt = literal.signed (magnitude literal.base 0 literal.digits)

theorem unit_mul (literal : IntegerLiteral) (total : Nat) :
    literal.unit * total = literal.signed total := by
  unfold unit signed
  split
  · exact Int.neg_one_mul _
  · exact Int.one_mul _

theorem WellFormed.readable {literal : IntegerLiteral} (formed : literal.WellFormed) :
    ∀ c ∈ literal.digits, (digitValue literal.radix c).isSome :=
  fun c member => (isSome_digitValue_iff _ c).mpr (formed.digits c member)

theorem magnitude_cons (radix total : Nat) (c : Char) (further : List Char) :
    magnitude radix total (c :: further) =
      magnitude radix (total * radix + (worth? c).getD 0) further := rfl

theorem magnitude_grows {radix : Nat} (positive : 0 < radix) (total : Nat) (digits : List Char) :
    total ≤ magnitude radix total digits := by
  induction digits generalizing total with
  | nil => exact Nat.le_refl total
  | cons c further ih =>
    rw [magnitude_cons]
    have later := ih (total * radix + (worth? c).getD 0)
    have scaled := Nat.le_mul_of_pos_right total positive
    omega

theorem fits_of_smaller {unit : Int} {small large : Nat} (signed : unit = 1 ∨ unit = -1)
    (smaller : small ≤ large) (fitting : fits (unit * large)) : fits (unit * small) := by
  unfold fits at *
  rcases signed with rfl | rfl <;> omega

theorem unit_signed (literal : IntegerLiteral) : literal.unit = 1 ∨ literal.unit = -1 := by
  unfold unit
  split
  · exact .inr rfl
  · exact .inl rfl

/-- Overflow on the way to the last digit means overflow at the last digit. -/
theorem accumulate_eq_ok_iff {radix : Nat} {unit : Int} (positive : 0 < radix)
    (signed : unit = 1 ∨ unit = -1) (total : Nat) (digits : List Char) (result : Int)
    (fitting : fits (unit * total)) :
    accumulate radix unit (unit * total) digits = .ok result ↔
      (∀ c ∈ digits, IsDigit radix c) ∧
        result = unit * magnitude radix total digits ∧ fits result := by
  induction digits generalizing total with
  | nil =>
    simp only [accumulate, magnitude, List.foldl_nil, Except.ok.injEq]
    constructor
    · intro same
      exact ⟨by simp, same.symm, same ▸ fitting⟩
    · intro exact
      exact exact.2.1.symm
  | cons c further ih =>
    rw [magnitude_cons]
    cases read : digitValue radix c with
    | none => simp [accumulate, read, ← isSome_digitValue_iff]
    | some digit =>
      obtain ⟨worth, small⟩ := (digitValue_eq_some_iff radix c digit).mp read
      have known : IsDigit radix c := ⟨digit, worth, small⟩
      have extended : unit * (total : Int) * radix + unit * digit =
          unit * ((total * radix + digit : Nat) : Int) := by
        rw [Int.natCast_add, Int.natCast_mul, Int.mul_add, Int.mul_assoc]
      simp only [accumulate, read, worth, extended, Option.getD_some, List.forall_mem_cons, known,
        true_and]
      split
      · rename_i fitting'
        exact ih (total * radix + digit) fitting'
      · rename_i beyond
        simp only [reduceCtorEq, false_iff]
        rintro ⟨_, rfl, fitting'⟩
        exact beyond (fits_of_smaller signed (magnitude_grows positive _ _) fitting')

theorem toInt_ofInt_of_fits {total : Int} (fitting : fits total) :
    (Int64.ofInt total).toInt = total := by
  unfold fits at fitting
  exact Int64.toInt_ofInt_of_le fitting.1 (by omega)

theorem toInt_fits (value : Int64) : fits value.toInt := by
  have lower := value.le_toInt
  have upper := value.toInt_lt
  unfold fits
  omega

theorem WellFormed.radix_positive {literal : IntegerLiteral} (formed : literal.WellFormed) :
    0 < literal.radix := by
  rcases formed.radix with ⟨_, ten⟩ | ⟨letter, _, marks⟩
  · omega
  · exact marks.positive

theorem numeral_base (literal : IntegerLiteral) :
    literal.numeral = (literal.base, literal.digits) ∨
      (literal.base = 8 ∧ ∃ further, literal.digits = '0' :: further ∧
        literal.numeral = (8, further)) := by
  unfold numeral base
  split
  · rename_i digit further unmarked digits
    refine .inr ⟨by simp [unmarked, digits], digit :: further, digits, rfl⟩
  · rename_i short
    refine .inl ?_
    rw [if_neg]
    rintro ⟨unmarked, zero, several⟩
    cases digits : literal.digits with
    | nil => simp [digits] at zero
    | cons c further =>
      cases further with
      | nil => simp [digits] at several
      | cons digit further =>
        simp only [digits, List.head?_cons, Option.some.injEq] at zero
        exact short digit further unmarked (zero ▸ digits)

theorem base_positive {literal : IntegerLiteral} (formed : literal.WellFormed) :
    0 < literal.base := by
  have positive := formed.radix_positive
  unfold base
  split <;> omega

theorem accumulate_numeral_eq_ok_iff {literal : IntegerLiteral} (formed : literal.WellFormed)
    (result : Int) :
    accumulate literal.numeral.1 literal.unit 0 literal.numeral.2 = .ok result ↔
      (∀ c ∈ literal.digits, IsDigit literal.base c) ∧
        result = literal.signed (magnitude literal.base 0 literal.digits) ∧ fits result := by
  rw [← unit_mul]
  have positive := base_positive formed
  have signed := literal.unit_signed
  have nothing : literal.unit * ((0 : Nat) : Int) = 0 := by simp
  have fitting : fits (literal.unit * ((0 : Nat) : Int)) := by rw [nothing]; decide
  rcases literal.numeral_base with all | ⟨octal, further, digits, rest⟩
  · rw [all, ← accumulate_eq_ok_iff positive signed 0 literal.digits result fitting, nothing]
  · have zero : worth? '0' = some 0 := by decide
    have known : IsDigit 8 '0' := ⟨0, zero, by decide⟩
    have counted := accumulate_eq_ok_iff (show 0 < 8 by decide) signed 0 further result fitting
    rw [rest, octal, digits, magnitude_cons, zero]
    simpa [nothing, zero, known] using counted

theorem value_eq_ok_iff {literal : IntegerLiteral} (formed : literal.WellFormed) (value : Int64) :
    literal.value = .ok value ↔ literal.Denotes value := by
  have counted := accumulate_numeral_eq_ok_iff formed
  unfold IntegerLiteral.value convert
  simp only
  constructor
  · intro read
    split at read
    · rename_i total summed
      obtain ⟨digits, same, fitting⟩ := (counted total).mp summed
      refine ⟨digits, ?_⟩
      rw [← Except.ok.inj read, toInt_ofInt_of_fits fitting, same]
    · simp at read
    · split at read <;> simp at read
  · intro denotes
    have summed := (counted value.toInt).mpr ⟨denotes.digits, denotes.value, toInt_fits value⟩
    rw [summed]
    simp

theorem splitSign_of_sign {sign rest : List Char}
    (form : sign = [] ∨ sign = ['+'] ∨ sign = ['-'])
    (unsigned : sign = [] → ∀ c ∈ rest.head?, c ≠ '+' ∧ c ≠ '-') :
    splitSign (sign ++ rest) = (sign, rest) := by
  rcases form with rfl | rfl | rfl
  · cases rest with
    | nil => rfl
    | cons c rest =>
      obtain ⟨plus, minus⟩ := unsigned rfl c (by simp)
      simp only [List.nil_append]
      unfold splitSign
      split
      · simp_all
      · simp_all
      · rfl
  · rfl
  · rfl

theorem decimal_digit_marks_nothing {c : Char} (digit : (digitValue 10 c).isSome) :
    markedRadix c = none := by
  unfold markedRadix
  split <;> first | rfl | exact absurd digit (by decide)

theorem splitRadixMark_unmarked {digits rest : List Char} (something : digits ≠ [])
    (decimal : ∀ c ∈ digits, (digitValue 10 c).isSome) (stops : Stops isNameInterior rest) :
    splitRadixMark (digits ++ rest) = ([], 10, digits ++ rest) := by
  cases digits with
  | nil => exact absurd rfl something
  | cons d further =>
    have unmarked : ∀ letter ∈ (further ++ rest).head?, markedRadix letter = none := by
      intro letter first
      cases further with
      | nil =>
        have outside := stops letter (by simpa using first)
        cases marks : markedRadix letter with
        | none => rfl
        | some radix => simp [radix_letter_in_name (c := letter) (by simp [marks])] at outside
      | cons e further =>
        obtain rfl : e = letter := by simpa using first
        exact decimal_digit_marks_nothing (decimal e (by simp))
    rw [List.cons_append]
    unfold splitRadixMark
    split
    · rename_i letter later front
      obtain ⟨_, follows⟩ := List.cons.inj front
      have nothing := unmarked letter (by simp [follows])
      rw [front, nothing]
    · rfl

theorem splitRadixMark_marked {letter : Char} {radix : Nat} (marks : MarksRadix letter radix)
    (rest : List Char) : splitRadixMark ('0' :: letter :: rest) = (['0', letter], radix, rest) := by
  simp [splitRadixMark, (markedRadix_eq_some_iff letter radix).mpr marks]

theorem digit_not_sign {radix : Nat} {c : Char} (digit : (digitValue radix c).isSome) :
    c ≠ '+' ∧ c ≠ '-' := by
  have code := digit_code digit
  constructor
  · rintro rfl
    simp at code
  · rintro rfl
    simp at code

theorem WellFormed.unsigned {literal : IntegerLiteral} (formed : literal.WellFormed)
    (rest : List Char) :
    ∀ c ∈ (literal.radixMark ++ (literal.digits ++ rest)).head?, c ≠ '+' ∧ c ≠ '-' := by
  intro c first
  rcases formed.radix with ⟨unmarked, _⟩ | ⟨letter, marked, _⟩
  · cases digits : literal.digits with
    | nil => exact absurd digits formed.something
    | cons d further =>
      obtain rfl : d = c := by simpa [unmarked, digits] using first
      exact digit_not_sign (formed.readable d (by simp [digits]))
  · obtain rfl : '0' = c := by simpa [marked] using first
    decide

theorem WellFormed.splitRadixMark_parts {literal : IntegerLiteral} (formed : literal.WellFormed)
    {rest : List Char} (stops : Stops isNameInterior rest) :
    splitRadixMark (literal.radixMark ++ (literal.digits ++ rest)) =
      (literal.radixMark, literal.radix, literal.digits ++ rest) := by
  rcases formed.radix with ⟨unmarked, ten⟩ | ⟨letter, marked, marks⟩
  · rw [unmarked, ten, List.nil_append]
    exact splitRadixMark_unmarked formed.something (ten ▸ formed.readable) stops
  · rw [marked]
    exact splitRadixMark_marked marks _

theorem split_text {literal : IntegerLiteral} (formed : literal.WellFormed) {rest : List Char}
    (stops : Stops isNameInterior rest) : split (literal.text ++ rest) = (literal, rest) := by
  have ends : Stops (fun c => (digitValue literal.radix c).isSome) rest :=
    stops_narrow (fun _ => digit_in_name) stops
  rw [IntegerLiteral.text, List.append_assoc, List.append_assoc]
  unfold split
  rw [splitSign_of_sign formed.sign (fun _ => formed.unsigned rest)]
  simp only [formed.splitRadixMark_parts stops]
  rw [takeWhile_run formed.readable ends, dropWhile_run formed.readable ends]

theorem split_digits (text : List Char) :
    ∀ c ∈ (split text).1.digits, IsDigit (split text).1.radix c := by
  intro c member
  have read := List.mem_takeWhile_imp member
  exact (isSome_digitValue_iff _ c).mp read

theorem split_wellFormed (text : List Char) (something : (split text).1.digits ≠ []) :
    (split text).1.WellFormed where
  sign := by
    simp only [split]
    unfold splitSign
    split <;> simp
  radix := by
    simp only [split]
    unfold CommentTags.splitRadixMark
    split
    · rename_i letter _ _
      cases marks : markedRadix letter with
      | some radix => exact .inr ⟨letter, rfl, (markedRadix_eq_some_iff letter radix).mp marks⟩
      | none => exact .inl ⟨rfl, rfl⟩
    · exact .inl ⟨rfl, rfl⟩
  something := something
  digits := split_digits text

end IntegerLiteral
end CommentTags
