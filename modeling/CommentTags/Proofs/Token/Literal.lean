import Mathlib.Algebra.Group.Int.Defs
import CommentTags.Proofs.Token.Integer
import CommentTags.Token.Scalar

/- The literal at the front of a text and the number that it stands for. The literal is the longest
   one that stands there. It is a token exactly if it has digits, if behind a leading zero all of
   them are octal, and if its number fits 64 bits; otherwise all of it is shown as an error. -/
namespace CommentTags
namespace IntegerLiteral

/-- The literal takes what it can from the front of the text and leaves `rest`. A mark is taken
    wherever one stands, so the digits behind it may be missing. -/
structure Longest (text : List Char) (literal : IntegerLiteral) (rest : List Char) : Prop where
  whole : text = literal.text ++ rest
  sign : (literal.sign = [] ∧ ∀ c ∈ text.head?, c ≠ '+' ∧ c ≠ '-') ∨ literal.sign = ['+'] ∨
    literal.sign = ['-']
  radix : (literal.radixMark = [] ∧ literal.radix = 10 ∧ ∀ letter back,
      literal.digits ++ rest = '0' :: letter :: back → ∀ radix, ¬ MarksRadix letter radix) ∨
    ∃ letter, literal.radixMark = ['0', letter] ∧ MarksRadix letter literal.radix
  digits : ∀ c ∈ literal.digits, IsDigit literal.radix c
  ends : ∀ c ∈ rest.head?, ¬ IsDigit literal.radix c

/-- The number without regard to its size. Digits that are none of the base count as zeros. -/
def number (literal : IntegerLiteral) : Int :=
  literal.signed (magnitude literal.base 0 literal.digits)

structure Valued (literal : IntegerLiteral) : Prop where
  something : literal.digits ≠ []
  octal : literal.radixMark = [] → literal.digits.head? = some '0' → 1 < literal.digits.length →
    ∀ c ∈ literal.digits, '0' ≤ c ∧ c ≤ '7'
  range : -2 ^ 63 ≤ literal.number ∧ literal.number ≤ 2 ^ 63 - 1

theorem splitRadixMark_plain {text : List Char}
    (plain : ∀ letter back, text = '0' :: letter :: back → ∀ radix, ¬ MarksRadix letter radix) :
    splitRadixMark text = ([], 10, text) := by
  unfold splitRadixMark
  split
  · rename_i letter back
    rw [(markedRadix_eq_none_iff letter).mpr (plain letter back rfl)]
  · rfl

theorem splitSign_form (text : List Char) :
    ((splitSign text).1 = [] ∧ ∀ c ∈ text.head?, c ≠ '+' ∧ c ≠ '-') ∨
      (splitSign text).1 = ['+'] ∨ (splitSign text).1 = ['-'] := by
  unfold splitSign
  split
  · exact .inr (.inl rfl)
  · exact .inr (.inr rfl)
  · rename_i noPlus noMinus
    refine .inl ⟨rfl, ?_⟩
    intro c first
    cases text with
    | nil => simp at first
    | cons d rest =>
      obtain rfl : d = c := by simpa using first
      constructor
      · rintro rfl
        exact noPlus rest rfl
      · rintro rfl
        exact noMinus rest rfl

variable {text rest : List Char} {literal : IntegerLiteral}

theorem split_of_longest (longest : Longest text literal rest) : split text = (literal, rest) := by
  obtain ⟨rfl, sign, radix, digits, ends⟩ := longest
  have signed : splitSign (literal.text ++ rest) =
      (literal.sign, literal.radixMark ++ (literal.digits ++ rest)) := by
    rw [IntegerLiteral.text, List.append_assoc, List.append_assoc]
    rcases sign with ⟨none, plain⟩ | plus | minus
    · apply splitSign_of_sign (.inl none)
      intro _
      simpa [IntegerLiteral.text, none] using plain
    · exact splitSign_of_sign (.inr (.inl plus)) (by simp [plus])
    · exact splitSign_of_sign (.inr (.inr minus)) (by simp [minus])
  have marked : splitRadixMark (literal.radixMark ++ (literal.digits ++ rest)) =
      (literal.radixMark, literal.radix, literal.digits ++ rest) := by
    rcases radix with ⟨none, ten, plain⟩ | ⟨letter, mark, marks⟩
    · rw [none, ten, List.nil_append, splitRadixMark_plain plain]
    · rw [mark]
      exact splitRadixMark_marked marks _
  have inside : ∀ c ∈ literal.digits, (digitValue literal.radix c).isSome :=
    fun c member => (isSome_digitValue_iff _ c).mpr (digits c member)
  have stops : Stops (fun c => (digitValue literal.radix c).isSome) rest := by
    intro c first
    have outside := ends c first
    rwa [← isSome_digitValue_iff, Bool.not_eq_true] at outside
  unfold split
  rw [signed]
  simp only [marked]
  rw [takeWhile_run inside stops, dropWhile_run inside stops]

theorem split_longest (text : List Char) : Longest text (split text).1 (split text).2 where
  whole := (split_append text).symm
  sign := splitSign_form text
  radix := by
    simp only [split]
    rw [List.takeWhile_append_dropWhile]
    unfold splitRadixMark
    split
    · rename_i letter back _
      cases marks : markedRadix letter with
      | some radix => exact .inr ⟨letter, rfl, (markedRadix_eq_some_iff letter radix).mp marks⟩
      | none =>
        refine .inl ⟨rfl, rfl, ?_⟩
        intro other later same
        simp only [List.cons.injEq, true_and] at same
        rw [← same.1]
        exact (markedRadix_eq_none_iff letter).mp marks
    · rename_i short
      exact .inl ⟨rfl, rfl, fun letter back same => absurd same (short letter back)⟩
  digits := split_digits text
  ends := by
    intro c first
    have outside : (digitValue (split text).1.radix c).isSome = false :=
      dropWhile_stops _ _ c first
    rw [← isSome_digitValue_iff, outside]
    exact Bool.false_ne_true

theorem split_eq_iff (text : List Char) (literal : IntegerLiteral) (rest : List Char) :
    split text = (literal, rest) ↔ Longest text literal rest := by
  constructor
  · intro found
    have longest := split_longest text
    rwa [found] at longest
  · exact split_of_longest

theorem Longest.wellFormed (longest : Longest text literal rest) (something : literal.digits ≠ []) :
    literal.WellFormed := by
  have found := split_of_longest longest
  have formed := split_wellFormed text (by rw [found]; exact something)
  rw [found] at formed
  exact formed

theorem octal_digit_iff (c : Char) : IsDigit 8 c ↔ '0' ≤ c ∧ c ≤ '7' := by
  have bounds : ('0' ≤ c ∧ c ≤ '7') ↔ 48 ≤ c.toNat ∧ c.toNat ≤ 55 := by
    simp only [Char.le_def, UInt32.le_iff_toNat_le]
    exact Iff.rfl
  simp only [bounds, ← isSome_digitValue_iff, Option.isSome_iff_exists, digitValue_code_iff]
  constructor
  · rintro ⟨value, octal, code⟩
    omega
  · intro within
    exact ⟨c.toNat - 48, by omega⟩

theorem base_cases (literal : IntegerLiteral) :
    literal.base = 8 ∨ literal.base = literal.radix := by
  unfold base
  split
  · exact .inl rfl
  · exact .inr rfl

theorem base_digits_iff (digits : ∀ c ∈ literal.digits, IsDigit literal.radix c) :
    (∀ c ∈ literal.digits, IsDigit literal.base c) ↔
      (literal.radixMark = [] → literal.digits.head? = some '0' → 1 < literal.digits.length →
        ∀ c ∈ literal.digits, '0' ≤ c ∧ c ≤ '7') := by
  simp only [← octal_digit_iff]
  unfold base
  split
  · rename_i led
    exact ⟨fun octal _ _ _ => octal, fun octal => octal led.1 led.2.1 led.2.2⟩
  · rename_i plain
    refine ⟨fun _ unmarked zero several => absurd ⟨unmarked, zero, several⟩ plain, fun _ => digits⟩

theorem number_fits_iff : fits literal.number ↔
    -2 ^ 63 ≤ literal.number ∧ literal.number ≤ 2 ^ 63 - 1 := by
  unfold fits
  omega

theorem value_eq_ok_iff_valued (formed : literal.WellFormed) (value : Int64) :
    literal.value = .ok value ↔ literal.Valued ∧ value.toInt = literal.number := by
  rw [value_eq_ok_iff formed]
  constructor
  · intro denotes
    have worth : value.toInt = literal.number := denotes.value
    have fitting : fits literal.number := worth ▸ toInt_fits value
    exact ⟨⟨formed.something, (base_digits_iff formed.digits).mp denotes.digits,
      number_fits_iff.mp fitting⟩, worth⟩
  · rintro ⟨valued, worth⟩
    exact ⟨(base_digits_iff formed.digits).mpr valued.octal, worth⟩

theorem accumulate_digit_flaw {radix : Nat} {unit total : Int} {digits : List Char}
    (flawed : accumulate radix unit total digits = .error .digit) :
    ∃ c ∈ digits, digitValue radix c = none := by
  induction digits generalizing total with
  | nil => simp [accumulate] at flawed
  | cons c further ih =>
    cases read : digitValue radix c with
    | none => exact ⟨c, by simp, read⟩
    | some digit =>
      simp only [accumulate, read] at flawed
      split at flawed
      · obtain ⟨d, member, none⟩ := ih flawed
        exact ⟨d, by simp [member], none⟩
      · simp at flawed

/-- Without a mark only octal digits can be wrong, because the others were read as digits. -/
theorem value_fault (formed : literal.WellFormed) {fault : Fault}
    (failed : literal.value = .error fault) :
    fault = .outOfRange (String.ofList literal.text) ∨
      fault = .notOctal (String.ofList literal.text) := by
  unfold value convert at failed
  simp only at failed
  split at failed
  · simp at failed
  · exact .inl (Except.error.inj failed).symm
  · rename_i flawed
    split at failed
    · exact .inr (Except.error.inj failed).symm
    · rename_i notOctal
      obtain ⟨c, member, none⟩ := accumulate_digit_flaw flawed
      rcases literal.numeral_base with all | ⟨octal, further, digits, rest⟩
      · rw [all] at notOctal none member
        have digit := formed.readable c member
        rw [← literal.base_cases.resolve_left notOctal, none] at digit
        simp at digit
      · rw [rest] at notOctal
        exact absurd rfl notOctal

def meaning (literal : IntegerLiteral) : Except Fault Int64 :=
  if literal.digits = [] then
    .error (if literal.radixMark = [] then .noDigit
      else .noDigitAfter (String.ofList literal.radixMark))
  else literal.value

end IntegerLiteral

theorem append_ne_of_take_ne {first second : String} (count : Nat)
    (long : count ≤ first.toList.length ∧ count ≤ second.toList.length)
    (differ : first.toList.take count ≠ second.toList.take count) (more further : String) :
    first ++ more ≠ second ++ further := by
  intro same
  apply differ
  rw [← List.take_append_of_le_length long.1, ← List.take_append_of_le_length long.2,
    ← String.toList_append, ← String.toList_append, same]

def Fault.OfInteger (fault : Fault) : Prop :=
  fault = .noDigit ∨ (∃ mark, fault = .noDigitAfter mark) ∨
    (∃ text, fault = .notOctal text) ∨ ∃ text, fault = .outOfRange text

theorem Fault.OfInteger.shown {fault : Fault} (cause : fault.OfInteger) :
    fault.layer = .lexical ∧ ∀ text, fault.message ≠ "Invalid integer literal " ++ text := by
  rcases cause with rfl | ⟨mark, rfl⟩ | ⟨literal, rfl⟩ | ⟨literal, rfl⟩
  · have message : noDigit.message = "Expected a digit" ++ "" := String.append_empty.symm
    rw [message]
    exact ⟨rfl, append_ne_of_take_ne 1 (by decide) (by decide) _⟩
  · have message : (noDigitAfter mark).message = "Expected digits after '" ++ (mark ++ "'") :=
      String.append_assoc
    rw [message]
    exact ⟨rfl, append_ne_of_take_ne 1 (by decide) (by decide) _⟩
  · have message : (notOctal literal).message = "Invalid octal literal " ++ literal := rfl
    rw [message]
    exact ⟨rfl, append_ne_of_take_ne 9 (by decide) (by decide) _⟩
  · have message : (outOfRange literal).message =
        "Integer literal " ++ (literal ++ " is out of range") := String.append_assoc
    rw [message]
    exact ⟨rfl, append_ne_of_take_ne 3 (by decide) (by decide) _⟩

section Meaning
open IntegerLiteral
variable {literal : IntegerLiteral} {text rest : List Char}

theorem meaning_eq_ok_iff (longest : Longest text literal rest) (value : Int64) :
    literal.meaning = .ok value ↔ literal.Valued ∧ value.toInt = literal.number := by
  unfold meaning
  split
  · rename_i nothing
    simp only [reduceCtorEq, false_iff, not_and]
    intro valued
    exact absurd nothing valued.something
  · rename_i something
    exact value_eq_ok_iff_valued (longest.wellFormed something) value

theorem meaning_fault (longest : Longest text literal rest) {fault : Fault}
    (failed : literal.meaning = .error fault) : fault.OfInteger := by
  unfold meaning at failed
  split at failed
  · rw [← Except.error.inj failed]
    split
    · exact .inl rfl
    · exact .inr (.inl ⟨_, rfl⟩)
  · rename_i something
    rcases value_fault (longest.wellFormed something) failed with beyond | notOctal
    · exact .inr (.inr (.inr ⟨_, beyond⟩))
    · exact .inr (.inr (.inl ⟨_, notOctal⟩))

theorem readIntegerToken_eq {here : Cursor} (longest : Longest here.rest literal rest) :
    readIntegerToken here =
      match literal.meaning with
      | .error fault => .error ⟨fault, here.position, (here.move literal.text rest).position⟩
      | .ok value =>
        .ok (⟨.int (String.ofList literal.text) value, none⟩, here.move literal.text rest) := by
  unfold readIntegerToken readInteger meaning
  rw [split_of_longest longest]
  by_cases nothing : literal.digits = []
  · simp only [nothing, if_true, Reading.fail]
  · cases worth : literal.value <;> simp only [nothing, if_false, Reading.read, worth]

end Meaning

def Fault.OfQuoted (fault : Fault) : Prop :=
  fault = .openString ∨ fault = .openBacktick ∨ ∃ c, fault = .badEscape c

section Faults
variable {here : Cursor} {error : TagError} {c : Char} {rest : List Char}

theorem readEscaped_fault {opening place : Position} {content text : List Char}
    (failed : (readEscaped opening content place text).result = .error error) :
    error.fault.OfQuoted := by
  fun_induction readEscaped opening content place text with
  | case1 | case3 => exact .inl (congrArg TagError.fault (Except.error.inj failed)).symm
  | case2 => simp [Reading.read] at failed
  | case5 _ _ escaped =>
    exact .inr (.inr ⟨escaped, (congrArg TagError.fault (Except.error.inj failed)).symm⟩)
  | case4 _ _ _ _ _ _ ih => exact ih failed
  | case6 _ _ _ _ _ _ ih => exact ih failed

theorem readVerbatim_fault {opening : Position}
    (failed : (readVerbatim opening here).result = .error error) : error.fault.OfQuoted := by
  unfold readVerbatim at failed
  simp only at failed
  split at failed
  · exact .inr (.inl (congrArg TagError.fault (Except.error.inj failed)).symm)
  · simp [Reading.read] at failed

theorem readQuotedToken_fault (front : here.rest = c :: rest) (quoted : startsQuoted c = true)
    (failed : readQuotedToken here = .error error) : error.fault.OfQuoted := by
  unfold readQuotedToken at failed
  split at failed
  · rename_i cause beyond outcome
    rw [← Except.error.inj failed]
    have failed' := congrArg Reading.result outcome
    unfold readQuoted at failed'
    split at failed'
    · exact readEscaped_fault failed'
    · exact readVerbatim_fault failed'
    · rename_i double back
      rcases (by simpa [startsQuoted] using quoted : c = '"' ∨ c = '`') with rfl | rfl
      · exact absurd front (double rest)
      · exact absurd front (back rest)
  · simp at failed

theorem readNameToken_reads (front : here.rest = c :: rest) (start : isNameStart c = true) :
    readNameToken here ≠ .error error := by
  unfold readNameToken readName
  simp [front, start, Reading.read]

end Faults

section Tokens
open IntegerLiteral

theorem readToken_fault_cases {place : Place} {here : Cursor} {error : TagError}
    (failed : readToken place here = .error error) :
    (here.rest = [] ∧ error.fault = .noInput) ∨ error.fault.OfInteger ∨ error.fault.OfQuoted ∨
      ∃ c, error.fault = .unexpected c place := by
  unfold readToken at failed
  split at failed
  · rename_i nothing
    exact .inl ⟨nothing, (congrArg TagError.fault (Except.error.inj failed)).symm⟩
  · rename_i c rest front
    split at failed
    · have longest := split_longest here.rest
      rw [readIntegerToken_eq longest] at failed
      cases meant : (split here.rest).1.meaning with
      | ok value => simp [meant] at failed
      | error fault =>
        simp only [meant] at failed
        rw [← Except.error.inj failed]
        exact .inr (.inl (meaning_fault longest meant))
    · split at failed
      · rename_i quoted
        exact .inr (.inr (.inl (readQuotedToken_fault front quoted failed)))
      · split at failed
        · rename_i start
          exact absurd failed (readNameToken_reads front start)
        · exact .inr (.inr (.inr ⟨c, (congrArg TagError.fault (Except.error.inj failed)).symm⟩))

theorem readToken_fault {place : Place} {here : Cursor} {error : TagError}
    (failed : readToken place here = .error error) (literal : String) :
    error.fault ≠ .notInteger literal := by
  rcases readToken_fault_cases failed with ⟨-, cause⟩ | cause | cause | ⟨c, cause⟩
  · simp [cause]
  · rcases cause with cause | ⟨_, cause⟩ | ⟨_, cause⟩ | ⟨_, cause⟩ <;> simp [cause]
  · rcases cause with cause | cause | ⟨_, cause⟩ <;> simp [cause]
  · simp [cause]

theorem startsInteger_iff (c : Char) :
    startsInteger c = true ↔ c = '+' ∨ c = '-' ∨ c.isDigit = true := by
  simp [startsInteger, or_assoc]

/-- A text that begins like an integer is read up to the end of its longest literal. That is an
    integer of the text and the number of the literal, or an error that shows the literal. -/
theorem readToken_integer (place : Place) (here : Cursor) :
    (∀ error, readToken place here = .error error →
      ∀ literal, error.fault ≠ .notInteger literal) ∧
    ∀ c tail, here.rest = c :: tail → c = '+' ∨ c = '-' ∨ c.isDigit = true →
      ∃ literal rest, (∀ other later,
          Longest here.rest other later ↔ other = literal ∧ later = rest) ∧
        (literal.Valued → ∃ value : Int64, value.toInt = literal.number ∧
          readToken place here = .ok
            (⟨.int (String.ofList literal.text) value, none⟩, here.move literal.text rest)) ∧
        (¬ literal.Valued → ∃ fault : Fault,
          readToken place here =
            .error ⟨fault, here.position, (here.move literal.text rest).position⟩ ∧
          fault.layer = .lexical ∧
          ∀ text, fault.message ≠ "Invalid integer literal " ++ text) := by
  constructor
  · intro error failed literal
    exact readToken_fault failed literal
  · intro c tail front starts
    have longest := split_longest here.rest
    have integer : readToken place here = readIntegerToken here := by
      rw [readToken, front]
      simp only [(startsInteger_iff c).mpr starts, if_true]
    rw [integer, readIntegerToken_eq longest]
    refine ⟨(split here.rest).1, (split here.rest).2, ?_, ?_, ?_⟩
    · intro other later
      rw [← split_eq_iff, ← Prod.mk.injEq, eq_comm]
    · intro valued
      have worth := toInt_ofInt_of_fits (number_fits_iff.mpr valued.range)
      have meant := (meaning_eq_ok_iff longest _).mpr ⟨valued, worth⟩
      exact ⟨_, worth, by rw [meant]⟩
    · intro unvalued
      cases meant : (split here.rest).1.meaning with
      | ok value => exact absurd ((meaning_eq_ok_iff longest value).mp meant).1 unvalued
      | error fault => exact ⟨fault, rfl, (meaning_fault longest meant).shown⟩

theorem least_integer_read :
    let here := Cursor.start "-0X8000000000000000)".toList
    let literal : IntegerLiteral := ⟨['-'], ['0', 'X'], 16, "8000000000000000".toList⟩
    literal.Valued ∧ Longest here.rest literal [')'] ∧
      (∃ value : Int64, value.toInt = -2 ^ 63 ∧ readToken .value here =
        .ok (⟨.int "-0X8000000000000000" value, none⟩, ⟨⟨19, 19⟩, [')']⟩)) ∧
      ∃ fault : Fault, fault.layer = .lexical ∧
        readToken .value (.start "08)".toList) = .error ⟨fault, ⟨0, 0⟩, ⟨2, 2⟩⟩ := by
  intro here literal
  have valued : literal.Valued := ⟨by decide, by decide, by decide⟩
  have longest : Longest here.rest literal [')'] := (split_eq_iff _ _ _).mp (by decide)
  obtain ⟨found, rest, only, read, -⟩ :=
    (readToken_integer .value here).2 '-' _ rfl (.inr (.inl rfl))
  obtain ⟨rfl, rfl⟩ := (only literal [')']).mp longest
  obtain ⟨value, worth, taken⟩ := read valued
  refine ⟨valued, longest, ⟨value, worth.trans (by decide), taken⟩, ?_⟩
  let wrong : IntegerLiteral := ⟨[], [], 10, "08".toList⟩
  have unvalued : ¬ wrong.Valued := fun valued =>
    absurd (valued.octal rfl rfl (by decide) '8' (by decide)) (by decide)
  obtain ⟨found, rest, only, -, failed⟩ :=
    (readToken_integer .value (.start "08)".toList)).2 '0' _ rfl (.inr (.inr rfl))
  obtain ⟨rfl, rfl⟩ := (only wrong [')']).mp ((split_eq_iff _ _ _).mp (by decide))
  obtain ⟨fault, shown, lexical, -⟩ := failed unvalued
  exact ⟨fault, lexical, shown⟩

end Tokens
end CommentTags
