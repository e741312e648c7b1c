import CommentTags.Token.Reading

/- Integer literals: an optional sign, an optional radix mark, and a run of digits. Values are
   64-bit, and without a mark a zero in front of further digits makes them octal. -/
namespace CommentTags

/-- `digits` belong to `radix`, the one `radixMark` names, or ten if there is no mark. -/
structure IntegerLiteral where
  sign : List Char
  radixMark : List Char
  radix : Nat
  digits : List Char
deriving DecidableEq

def markedRadix : Char → Option Nat
  | 'x' | 'X' => some 16
  | 'o' | 'O' => some 8
  | 'b' | 'B' => some 2
  | _ => none

def digitValue (radix : Nat) (c : Char) : Option Nat :=
  let value :=
    if '0' ≤ c ∧ c ≤ '9' then c.toNat - '0'.toNat
    else if 'a' ≤ c ∧ c ≤ 'f' then c.toNat - 'a'.toNat + 10
    else if 'A' ≤ c ∧ c ≤ 'F' then c.toNat - 'A'.toNat + 10
    else radix
  if value < radix then some value else none

def splitSign : List Char → List Char × List Char
  | '+' :: rest => (['+'], rest)
  | '-' :: rest => (['-'], rest)
  | text => ([], text)

def splitRadixMark : List Char → List Char × Nat × List Char
  | '0' :: letter :: rest =>
    match markedRadix letter with
    | some radix => (['0', letter], radix, rest)
    | none => ([], 10, '0' :: letter :: rest)
  | text => ([], 10, text)

namespace IntegerLiteral

def text (literal : IntegerLiteral) : List Char :=
  literal.sign ++ literal.radixMark ++ literal.digits

/-- The longest literal at the front of a text, and what follows it. Its digits may be missing. -/
def split (text : List Char) : IntegerLiteral × List Char :=
  let (sign, unsigned) := splitSign text
  let (radixMark, radix, unmarked) := splitRadixMark unsigned
  let isDigit := fun c => (digitValue radix c).isSome
  (⟨sign, radixMark, radix, unmarked.takeWhile isDigit⟩, unmarked.dropWhile isDigit)

def numeral (literal : IntegerLiteral) : Nat × List Char :=
  match literal.radixMark, literal.digits with
  | [], '0' :: digit :: further => (8, digit :: further)
  | _, digits => (literal.radix, digits)

def fits (value : Int) : Prop := -9223372036854775808 ≤ value ∧ value ≤ 9223372036854775807

instance (value : Int) : Decidable (fits value) :=
  inferInstanceAs (Decidable (_ ∧ _))

inductive Flaw
  | digit
  | range
deriving DecidableEq

/-- Extends `total` digit by digit. The unit is 1 or -1, so a negative value is never built from
    a positive one, which may be out of range. -/
def accumulate (radix : Nat) (unit total : Int) : List Char → Except Flaw Int
  | [] => .ok total
  | c :: further =>
    match digitValue radix c with
    | none => .error .digit
    | some digit =>
      let extended := total * radix + unit * digit
      if fits extended then accumulate radix unit extended further else .error .range

def unit (literal : IntegerLiteral) : Int := if literal.sign = ['-'] then -1 else 1

def convert (text : List Char) (unit : Int) (radix : Nat) (digits : List Char) :
    Except Fault Int64 :=
  match accumulate radix unit 0 digits with
  | .ok total => .ok (Int64.ofInt total)
  | .error .range => .error (.outOfRange (String.ofList text))
  | .error .digit =>
    if radix = 8 then .error (.notOctal (String.ofList text))
    else .error (.notInteger (String.ofList text))

def value (literal : IntegerLiteral) : Except Fault Int64 :=
  let (radix, digits) := literal.numeral
  convert literal.text literal.unit radix digits

theorem splitSign_append (text : List Char) : (splitSign text).1 ++ (splitSign text).2 = text := by
  unfold splitSign; split <;> rfl

theorem splitRadixMark_append (text : List Char) :
    (splitRadixMark text).1 ++ (splitRadixMark text).2.2 = text := by
  unfold splitRadixMark
  split
  · split <;> rfl
  · rfl

theorem split_append (text : List Char) : (split text).1.text ++ (split text).2 = text := by
  simp only [split, IntegerLiteral.text, List.append_assoc]
  rw [List.takeWhile_append_dropWhile, splitRadixMark_append, splitSign_append]

end IntegerLiteral

def readInteger (here : Cursor) : Reading IntegerLiteral :=
  let (literal, rest) := IntegerLiteral.split here.rest
  let beyond := here.move literal.text rest
  if literal.digits = [] then
    let fault := if literal.radixMark = [] then .noDigit
      else .noDigitAfter (String.ofList literal.radixMark)
    .fail fault here.position beyond
  else .read literal beyond

theorem readInteger_passes (here : Cursor) :
    here.Passes (IntegerLiteral.split here.rest).1.text (readInteger here).cursor := by
  have move := Cursor.move_passes here _ _ (IntegerLiteral.split_append here.rest).symm
  unfold readInteger
  simp only
  split <;> exact move

theorem readInteger_digits (here : Cursor) (literal : IntegerLiteral)
    (read : (readInteger here).result = .ok literal) :
    literal = (IntegerLiteral.split here.rest).1 ∧ literal.digits ≠ [] := by
  unfold readInteger at read
  simp only at read
  split at read
  · simp [Reading.fail] at read
  · rename_i present
    simp only [Reading.read, Except.ok.injEq] at read
    exact ⟨read.symm, read ▸ present⟩

end CommentTags
