import CommentTags.Proofs.Token.Integer
import CommentTags.Proofs.Token.Quoted
import CommentTags.Token.Scalar

/- The ways to write one scalar. A token is read exactly where one of them stands, and behind it
   no character of a name may follow. -/
namespace CommentTags

def IsName (interior : Char → Bool) : List Char → Prop
  | [] => False
  | c :: tail => isNameStart c = true ∧ ∀ d ∈ tail, interior d = true

instance (interior : Char → Bool) (name : List Char) : Decidable (IsName interior name) :=
  match name with
  | [] => .isFalse id
  | c :: tail => decidable_of_iff (isNameStart c = true ∧ tail.all interior = true)
      (and_congr_right fun _ => List.all_eq_true)

theorem name_interior {interior : Char → Bool} {name : List Char} (valid : IsName interior name)
    (wide : ∀ c, isNameStart c = true → interior c = true) : ∀ c ∈ name, interior c = true := by
  cases name with
  | nil => exact valid.elim
  | cons first tail =>
    intro c member
    rcases List.mem_cons.mp member with rfl | further
    · exact wide c valid.1
    · exact valid.2 c further

theorem name_unique {interior : Char → Bool} {name other rest later : List Char}
    (valid : IsName interior name) (stops : Stops interior rest)
    (valid' : IsName interior other) (stops' : Stops interior later)
    (same : name ++ rest = other ++ later) : name = other ∧ rest = later := by
  cases name with
  | nil => exact valid.elim
  | cons first tail =>
    cases other with
    | nil => exact valid'.elim
    | cons first' tail' =>
      obtain ⟨rfl, tails⟩ := List.cons.inj same
      obtain ⟨rfl, rests⟩ := run_unique valid.2 stops valid'.2 stops' tails
      exact ⟨rfl, rests⟩

theorem readName_complete {interior : Char → Bool} {here : Cursor} {name rest : List Char}
    (valid : IsName interior name) (stops : Stops interior rest)
    (unread : here.rest = name ++ rest) :
    readName interior here = .read name (here.move name rest) := by
  cases name with
  | nil => exact valid.elim
  | cons first tail =>
    unfold readName
    simp only [unread, List.cons_append, valid.1, if_true, Cursor.takeRun, Cursor.move_rest]
    rw [takeWhile_run valid.2 stops, dropWhile_run valid.2 stops, Cursor.move_move]
    rfl

theorem readName_sound {interior : Char → Bool} {here beyond : Cursor} {name : List Char}
    (read : readName interior here = ⟨.ok name, beyond⟩) :
    IsName interior name ∧ here.Passes name beyond := by
  have moved := readName_passes interior here
  rw [read] at moved
  rcases moved with ⟨passed, same, _, move⟩ | ⟨error, failed, _⟩
  · obtain rfl := Except.ok.inj same
    refine ⟨?_, move⟩
    unfold readName at read
    split at read
    · simp [Reading.fail] at read
    · split at read
      · rename_i start
        simp only [Reading.read, Cursor.takeRun, Reading.mk.injEq, Except.ok.injEq] at read
        rw [← read.1]
        exact ⟨start, fun d member => List.mem_takeWhile_imp member⟩
      · simp [Reading.fail] at read
  · simp at failed

inductive ScalarSpelling
  | integer (literal : IntegerLiteral) (value : Int64)
  | quoted (items : List QuotedChar)
  | verbatim (content : List Char)
  | bare (name : List Char)
deriving DecidableEq

namespace ScalarSpelling

def Valid : ScalarSpelling → Prop
  | integer literal value => literal.WellFormed ∧ literal.Denotes value
  | quoted items => ∀ item ∈ items, item.Valid
  | verbatim content => '`' ∉ content
  | bare name => IsName isNameInterior name

def text : ScalarSpelling → List Char
  | integer literal _ => literal.text
  | quoted items => '"' :: (items.flatMap QuotedChar.text ++ ['"'])
  | verbatim content => '`' :: (content ++ ['`'])
  | bare name => name

def bareScalar : List Char → Scalar
  | ['t', 'r', 'u', 'e'] => .bool true
  | ['f', 'a', 'l', 's', 'e'] => .bool false
  | name => .string (String.ofList name)

def scalar : ScalarSpelling → Scalar
  | integer literal value => .int (String.ofList literal.text) value
  | quoted items => .string (String.ofList (items.map QuotedChar.meaning))
  | verbatim content => .string (String.ofList content)
  | bare name => bareScalar name

def bareName? : ScalarSpelling → Option String
  | bare name => some (String.ofList name)
  | _ => none

def token (spelling : ScalarSpelling) : Token := ⟨spelling.scalar, spelling.bareName?⟩

theorem ofName_eq_bareScalar (name : List Char) : Scalar.ofName name = bareScalar name := by
  unfold Scalar.ofName bareScalar
  split
  · rename_i same
    rw [same]
    rfl
  · rename_i noTrue
    split
    · rename_i same
      rw [same]
      rfl
    · rename_i noFalse
      split
      · exact absurd rfl noTrue
      · exact absurd rfl noFalse
      · rfl

end ScalarSpelling

theorem name_start_no_digit {c : Char} (start : isNameStart c = true) : c.isDigit = false := by
  cases digit : c.isDigit with
  | false => rfl
  | true =>
    have apart : Unicode.Apart [⟨48, 57⟩] Unicode.alphabetic := by decide +kernel
    have bounds : 48 ≤ c.toNat ∧ c.toNat ≤ 57 := by
      simpa [Char.isDigit, UInt32.le_iff_toNat_le] using digit
    have covered : Unicode.covers c.toNat [⟨48, 57⟩] = true := by
      simp [Unicode.covers, bounds]
    have letter : Unicode.isAlphabetic c = false :=
      Unicode.covers_of_apart apart (by decide) Unicode.alphabetic_ascending covered
    have underscore : c ≠ '_' := by
      rintro rfl
      simp at bounds
    simp [isNameStart, letter, underscore] at start

theorem name_start_no_integer {c : Char} (start : isNameStart c = true) :
    startsInteger c = false := by
  have other (sign : Char) (outside : isNameStart sign = false) : c ≠ sign := by
    rintro rfl
    simp [start] at outside
  simp [startsInteger, other '+' (by decide), other '-' (by decide), name_start_no_digit start]

theorem name_start_no_quote {c : Char} (start : isNameStart c = true) :
    startsQuoted c = false := by
  have other (sign : Char) (outside : isNameStart sign = false) : c ≠ sign := by
    rintro rfl
    simp [start] at outside
  simp [startsQuoted, other '"' (by decide), other '`' (by decide)]

theorem decimal_digit_isDigit {c : Char} (digit : (digitValue 10 c).isSome) :
    c.isDigit = true := by
  have bounds : 48 ≤ c.toNat ∧ c.toNat ≤ 57 := by
    rcases digit_code digit with decimal | ⟨beyond, _⟩
    · exact decimal
    · omega
  simpa [Char.isDigit, UInt32.le_iff_toNat_le] using bounds

/-- Behind its sign a literal begins with a decimal digit, be it the zero of a mark. -/
theorem unsigned_starts {literal : IntegerLiteral} (formed : literal.WellFormed) :
    ∃ c rest, literal.radixMark ++ literal.digits = c :: rest ∧ c.isDigit = true := by
  rcases formed.radix with ⟨unmarked, ten⟩ | ⟨letter, marked, _⟩
  · cases digits : literal.digits with
    | nil => exact absurd digits formed.something
    | cons c further =>
      have digit := formed.readable c (by simp [digits])
      exact ⟨c, further, by simp [unmarked], decimal_digit_isDigit (ten ▸ digit)⟩
  · exact ⟨'0', letter :: literal.digits, by simp [marked], rfl⟩

theorem integer_starts {literal : IntegerLiteral} (formed : literal.WellFormed) :
    ∃ c rest, literal.text = c :: rest ∧ startsInteger c = true := by
  obtain ⟨c, rest, unsigned, digit⟩ := unsigned_starts formed
  rw [IntegerLiteral.text, List.append_assoc, unsigned]
  rcases formed.sign with plain | plus | minus
  · exact ⟨c, rest, by simp [plain], by simp [startsInteger, digit]⟩
  · exact ⟨'+', c :: rest, by simp [plus], rfl⟩
  · exact ⟨'-', c :: rest, by simp [minus], rfl⟩

/-- The plus sign of a number cannot be taken for the one in front of a linked tag. -/
theorem scalar_plus {spelling : ScalarSpelling} (valid : spelling.Valid) {tail : List Char}
    (text : spelling.text = '+' :: tail) : ∃ c rest, tail = c :: rest ∧ isNameStart c = false := by
  cases spelling with
  | integer literal value =>
    obtain ⟨c, rest, unsigned, digit⟩ := unsigned_starts valid.1
    rw [ScalarSpelling.text, IntegerLiteral.text, List.append_assoc, unsigned] at text
    rcases valid.1.sign with plain | plus | minus
    · simp only [plain, List.nil_append, List.cons.injEq] at text
      simp [text.1] at digit
    · simp only [plus, List.cons_append, List.nil_append, List.cons.injEq, true_and] at text
      refine ⟨c, rest, text.symm, ?_⟩
      cases start : isNameStart c with
      | false => rfl
      | true => simp [name_start_no_digit start] at digit
    · simp [minus] at text
  | quoted | verbatim => simp [ScalarSpelling.text] at text
  | bare name =>
    subst text
    exact absurd valid.1 (by decide)

theorem readIntegerToken_complete {here : Cursor} {literal : IntegerLiteral} {value : Int64}
    {rest : List Char} (formed : literal.WellFormed) (denotes : literal.Denotes value)
    (stops : Stops isNameInterior rest) (unread : here.rest = literal.text ++ rest) :
    readIntegerToken here =
      .ok (⟨.int (String.ofList literal.text) value, none⟩, here.move literal.text rest) := by
  have found : IntegerLiteral.split here.rest = (literal, rest) :=
    unread ▸ IntegerLiteral.split_text formed stops
  have worth := (IntegerLiteral.value_eq_ok_iff formed value).mpr denotes
  simp only [readIntegerToken, readInteger, found, formed.something, if_false, Reading.read, worth]

theorem readIntegerToken_sound {here beyond : Cursor} {token : Token}
    (read : readIntegerToken here = .ok (token, beyond)) :
    ∃ spelling : ScalarSpelling, spelling.Valid ∧ here.Passes spelling.text beyond ∧
      token = spelling.token := by
  have moved := readInteger_passes here
  have digits := readInteger_digits here
  unfold readIntegerToken at read
  split at read
  · simp at read
  · rename_i literal after outcome
    simp only [outcome] at moved digits
    obtain ⟨found, something⟩ := digits literal rfl
    have formed : literal.WellFormed :=
      found ▸ IntegerLiteral.split_wellFormed here.rest (found ▸ something)
    split at read
    · simp at read
    · rename_i value worth
      simp only [Except.ok.injEq, Prod.mk.injEq] at read
      obtain ⟨rfl, rfl⟩ := read
      have denotes := (IntegerLiteral.value_eq_ok_iff formed value).mp worth
      exact ⟨.integer literal value, ⟨formed, denotes⟩, found ▸ moved, rfl⟩

theorem readQuotedToken_double {here : Cursor} {items : List QuotedChar} {rest : List Char}
    (valid : ∀ item ∈ items, item.Valid)
    (unread : here.rest = '"' :: (items.flatMap QuotedChar.text ++ '"' :: rest)) :
    readQuotedToken here =
      .ok (⟨.string (String.ofList (items.map QuotedChar.meaning)), none⟩,
        here.move ('"' :: (items.flatMap QuotedChar.text ++ ['"'])) rest) := by
  have read := readEscaped_complete here.position [] (here.position.past '"') items valid rest
  simp only [readQuotedToken, readQuoted, unread, read, Reading.read, List.reverse_nil,
    List.nil_append, Cursor.move, Position.after_cons]

theorem readQuotedToken_backtick {here : Cursor} {content rest : List Char}
    (free : '`' ∉ content) (unread : here.rest = '`' :: (content ++ '`' :: rest)) :
    readQuotedToken here =
      .ok (⟨.string (String.ofList content), none⟩,
        here.move ('`' :: (content ++ ['`'])) rest) := by
  have read := readVerbatim_complete here.position free
    (Cursor.skip_eq_move unread ▸ Cursor.move_rest _ _ _)
  simp only [readQuotedToken, readQuoted, unread, read, Reading.read]
  rw [Cursor.skip_eq_move unread, Cursor.move_move, List.singleton_append]

theorem readQuotedToken_sound {here beyond : Cursor} {token : Token}
    (read : readQuotedToken here = .ok (token, beyond)) :
    ∃ spelling : ScalarSpelling, spelling.Valid ∧ here.Passes spelling.text beyond ∧
      token = spelling.token := by
  unfold readQuotedToken at read
  split at read
  · simp at read
  · rename_i text after outcome
    simp only [Except.ok.injEq, Prod.mk.injEq] at read
    obtain ⟨rfl, rfl⟩ := read
    unfold readQuoted at outcome
    split at outcome
    · rename_i rest front
      obtain ⟨items, valid, rfl, moved⟩ := readEscaped_sound outcome
      refine ⟨.quoted items, valid, ?_, by simp [ScalarSpelling.token, ScalarSpelling.scalar,
        ScalarSpelling.bareName?]⟩
      have opened : here.Passes ['"'] ⟨here.position.past '"', rest⟩ := by
        simp [Cursor.Passes, front]
      exact Cursor.passes_append opened moved
    · rename_i rest front
      obtain ⟨free, moved⟩ := readVerbatim_sound outcome
      refine ⟨.verbatim text, free, ?_, rfl⟩
      exact Cursor.passes_append (Cursor.skip_passes front) moved
    · simp [Reading.fail] at outcome

theorem readNameToken_complete {here : Cursor} {name rest : List Char}
    (valid : IsName isNameInterior name) (stops : Stops isNameInterior rest)
    (unread : here.rest = name ++ rest) :
    readNameToken here = .ok (ScalarSpelling.token (.bare name), here.move name rest) := by
  simp only [readNameToken, readName_complete valid stops unread, Reading.read,
    ScalarSpelling.ofName_eq_bareScalar]
  rfl

theorem readNameToken_sound {here beyond : Cursor} {token : Token}
    (read : readNameToken here = .ok (token, beyond)) :
    ∃ spelling : ScalarSpelling, spelling.Valid ∧ here.Passes spelling.text beyond ∧
      token = spelling.token := by
  unfold readNameToken at read
  split at read
  · simp at read
  · rename_i name after outcome
    simp only [Except.ok.injEq, Prod.mk.injEq] at read
    obtain ⟨rfl, rfl⟩ := read
    obtain ⟨valid, moved⟩ := readName_sound outcome
    refine ⟨.bare name, valid, moved, ?_⟩
    rw [ScalarSpelling.ofName_eq_bareScalar]
    rfl

theorem readToken_complete (place : Place) {here : Cursor} {spelling : ScalarSpelling}
    {rest : List Char} (valid : spelling.Valid) (stops : Stops isNameInterior rest)
    (unread : here.rest = spelling.text ++ rest) :
    readToken place here = .ok (spelling.token, here.move spelling.text rest) := by
  cases spelling with
  | integer literal value =>
    obtain ⟨formed, denotes⟩ := valid
    obtain ⟨c, later, text, starts⟩ := integer_starts formed
    have front : here.rest = c :: (later ++ rest) := by
      rw [unread, ScalarSpelling.text, text, List.cons_append]
    rw [readToken, front]
    simp only [starts, if_true]
    exact readIntegerToken_complete formed denotes stops unread
  | quoted items =>
    have front : here.rest = '"' :: (items.flatMap QuotedChar.text ++ '"' :: rest) := by
      rw [unread]
      simp [ScalarSpelling.text]
    rw [readToken, front]
    simp only [show startsInteger '"' = false from rfl, show startsQuoted '"' = true from rfl]
    exact readQuotedToken_double valid front
  | verbatim content =>
    have front : here.rest = '`' :: (content ++ '`' :: rest) := by
      rw [unread]
      simp [ScalarSpelling.text]
    rw [readToken, front]
    simp only [show startsInteger '`' = false from rfl, show startsQuoted '`' = true from rfl]
    exact readQuotedToken_backtick valid front
  | bare name =>
    cases name with
    | nil => exact valid.elim
    | cons c tail =>
      have front : here.rest = c :: (tail ++ rest) := unread
      have start : isNameStart c = true := valid.1
      rw [readToken, front]
      simp only [name_start_no_integer start, name_start_no_quote start, start]
      exact readNameToken_complete valid stops unread

theorem readToken_sound {place : Place} {here beyond : Cursor} {token : Token}
    (read : readToken place here = .ok (token, beyond)) :
    ∃ spelling : ScalarSpelling, spelling.Valid ∧ here.Passes spelling.text beyond ∧
      token = spelling.token := by
  unfold readToken at read
  split at read
  · simp at read
  · split at read
    · exact readIntegerToken_sound read
    · split at read
      · exact readQuotedToken_sound read
      · split at read
        · exact readNameToken_sound read
        · simp at read

theorem scalar_spelling_unique {spelling other : ScalarSpelling} {rest later : List Char}
    (valid : spelling.Valid) (stops : Stops isNameInterior rest)
    (valid' : other.Valid) (stops' : Stops isNameInterior later)
    (same : spelling.text ++ rest = other.text ++ later) : spelling = other ∧ rest = later := by
  let here := Cursor.start (spelling.text ++ rest)
  have read : readToken .value here = .ok (spelling.token, here.move spelling.text rest) :=
    readToken_complete .value valid stops rfl
  have read' : readToken .value here = .ok (other.token, here.move other.text later) :=
    readToken_complete .value valid' stops' same
  have results := Except.ok.inj (read.symm.trans read')
  have tokens : spelling.token = other.token := congrArg Prod.fst results
  have rests : rest = later := congrArg (fun result => result.2.rest) results
  have texts : spelling.text = other.text := List.append_cancel_right (rests ▸ same)
  refine ⟨?_, rests⟩
  simp only [ScalarSpelling.token, Token.mk.injEq] at tokens
  obtain ⟨scalars, names⟩ := tokens
  cases spelling with
  | integer literal value =>
    cases other with
    | integer literal' value' =>
      have found := IntegerLiteral.split_text valid.1 stops
      have found' := IntegerLiteral.split_text valid'.1 stops'
      simp only [ScalarSpelling.text] at same
      rw [same, found'] at found
      simp only [ScalarSpelling.scalar, Scalar.int.injEq] at scalars
      rw [(Prod.mk.inj found).1, scalars.2]
    | quoted | verbatim => simp [ScalarSpelling.scalar] at scalars
    | bare => simp [ScalarSpelling.bareName?] at names
  | quoted items =>
    cases other with
    | integer => simp [ScalarSpelling.scalar] at scalars
    | quoted items' =>
      simp only [ScalarSpelling.scalar, Scalar.string.injEq] at scalars
      rw [quoted_chars_unique valid valid' (String.ofList_injective scalars)]
    | verbatim => simp [ScalarSpelling.text] at texts
    | bare => simp [ScalarSpelling.bareName?] at names
  | verbatim content =>
    cases other with
    | integer => simp [ScalarSpelling.scalar] at scalars
    | quoted => simp [ScalarSpelling.text] at texts
    | verbatim content' =>
      simp only [ScalarSpelling.scalar, Scalar.string.injEq] at scalars
      rw [String.ofList_injective scalars]
    | bare => simp [ScalarSpelling.bareName?] at names
  | bare name =>
    cases other with
    | integer | quoted | verbatim => simp [ScalarSpelling.bareName?] at names
    | bare name' =>
      simp only [ScalarSpelling.bareName?, Option.some.injEq] at names
      rw [String.ofList_injective names]

end CommentTags
