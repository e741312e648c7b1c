import CommentTags.Proofs.Text.Bytes
import CommentTags.Proofs.Token.Integer
import CommentTags.Token.Scalar

/- The token readers once more, moving by bytes. A sign and a digit are taken to be one byte wide,
   a radix mark two, a closing backtick one more than its content. Every look at the text is
   checked, none fails, and what is read is what the readers on cursors read. -/
namespace CommentTags
namespace ByteCursor

abbrev Outcome (α : Type) : Type := Except TagError α × ByteCursor

def fail? {α : Type} (fault : Fault) (start : Position) (here : ByteCursor) :
    Option (Outcome α) := do
  return (.error ⟨fault, start, ← here.position?⟩, here)

def readName? (interior : Char → Bool) (here : ByteCursor) : Option (Outcome (List Char)) := do
  match ← here.peek? 0 with
  | none => here.fail? (.noName none) (← here.position?)
  | some c =>
    if isNameStart c then
      let beyond ← skipRun? interior Char.utf8Size Char.utf8Size_pos (here.advance c.utf8Size)
      return (.ok (← pieceOf? here.text here.offset beyond.offset), beyond)
    else here.fail? (.noName (some c)) (← here.position?)

def radixAhead? : Option Char → Option Char → Option Nat
  | some '0', some letter => markedRadix letter
  | _, _ => none

def readInteger? (here : ByteCursor) : Option (Outcome (List Char)) := do
  let start ← here.position?
  let first ← here.peek? 0
  let unsigned := if first = some '+' ∨ first = some '-' then here.advance 1 else here
  let radix? := radixAhead? (← unsigned.peek? 0) (← unsigned.peek? 1)
  let unmarked := if radix?.isSome then unsigned.advance 2 else unsigned
  let isDigit := fun c => (digitValue (radix?.getD 10) c).isSome
  let beyond ← skipRun? isDigit (fun _ => 1) (fun _ => Nat.one_pos) unmarked
  if beyond.offset = unmarked.offset then
    if radix?.isSome then
      let radixMark ← pieceOf? here.text (unmarked.offset - 2) unmarked.offset
      beyond.fail? (.noDigitAfter (String.ofList radixMark)) start
    else beyond.fail? .noDigit start
  else return (.ok (← pieceOf? here.text here.offset beyond.offset), beyond)

def readEscaped? (opening : Position) (content : List Char) (here : ByteCursor) :
    Option (Outcome (List Char)) :=
  match _taken : here.next? with
  | none => none
  | some (none, behind) => behind.fail? .openString opening
  | some (some c, behind) =>
    if c = '"' then some (.ok content.reverse, behind)
    else if c = '\\' then
      behind.position?.bind fun start =>
        match _escaped : behind.next? with
        | none => none
        | some (none, beyond) => beyond.fail? .openString opening
        | some (some escaped, beyond) =>
          if needsEscape escaped then readEscaped? opening (escaped :: content) beyond
          else beyond.fail? (.badEscape escaped) start
    else readEscaped? opening (c :: content) behind
termination_by byteLength here.text - here.offset
decreasing_by
  · have first := next?_further _taken
    have second := next?_further _escaped
    omega
  · exact next?_further _taken

def readVerbatim? (opening : Position) (here : ByteCursor) : Option (Outcome (List Char)) := do
  let rest ← here.rest?
  let bytes := byteLength (rest.takeWhile (· != '`'))
  if '`' ∈ rest then
    return (.ok (← pieceOf? here.text here.offset (here.offset + bytes)), here.advance (bytes + 1))
  else here.toEnd.fail? .openBacktick opening

def readQuoted? (here : ByteCursor) : Option (Outcome (List Char)) := do
  let opening ← here.position?
  match ← here.peek? 0 with
  | some '"' => readEscaped? opening [] (here.advance 1)
  | some '`' => readVerbatim? opening (here.advance 1)
  | _ => here.fail? .noQuote opening

end ByteCursor

namespace IntegerLiteral

def unsigned? (literal : List Char) : Option (Int × List Char) :=
  match literal.head? with
  | some '+' => (cutAt? 1 literal).map fun (_, unsigned) => (1, unsigned)
  | some '-' => (cutAt? 1 literal).map fun (_, unsigned) => (-1, unsigned)
  | _ => some (1, literal)

/-- The unit, the radix and the digits, cut out of the text of a literal. -/
def numeral? (literal : List Char) : Option (Int × Nat × List Char) := do
  let (unit, unsigned) ← unsigned? literal
  match unsigned with
  | '0' :: letter :: digits =>
    match markedRadix letter with
    | some radix => return (unit, radix, digits)
    | none => (cutAt? 1 unsigned).map fun (_, digits) => (unit, 8, digits)
  | _ => return (unit, 10, unsigned)

def value? (literal : List Char) : Option (Except Fault Int64) := do
  let (unit, radix, digits) ← numeral? literal
  return convert literal unit radix digits

end IntegerLiteral

def Reading.bytes {α : Type} (text : List Char) (reading : Reading α) : ByteCursor.Outcome α :=
  (reading.result, reading.cursor.bytes text)

namespace IntegerLiteral

theorem splitSign_width (text : List Char) :
    byteLength (splitSign text).1 =
      if text[0]? = some '+' ∨ text[0]? = some '-' then 1 else 0 := by
  unfold splitSign
  split
  · rfl
  · rfl
  · rename_i plus minus
    cases text with
    | nil => simp
    | cons c rest =>
      have plus' : c ≠ '+' := fun same => plus rest (by rw [same])
      have minus' : c ≠ '-' := fun same => minus rest (by rw [same])
      simp [plus', minus']

theorem splitRadixMark_ahead (text : List Char) :
    (splitRadixMark text).2.1 = (ByteCursor.radixAhead? text[0]? text[1]?).getD 10 ∧
      byteLength (splitRadixMark text).1 =
        (if (ByteCursor.radixAhead? text[0]? text[1]?).isSome then 2 else 0) := by
  unfold splitRadixMark
  split
  · rename_i letter rest
    have ahead : ByteCursor.radixAhead? ('0' :: letter :: rest)[0]? ('0' :: letter :: rest)[1]? =
        markedRadix letter := rfl
    rw [ahead]
    cases marks : markedRadix letter with
    | none => simp
    | some radix =>
      have narrow : letter.utf8Size = 1 := by
        unfold markedRadix at marks
        split at marks <;> first | rfl | simp at marks
      simp [narrow]
      rfl
  · rename_i unmarked
    have ahead : ByteCursor.radixAhead? text[0]? text[1]? = none := by
      unfold ByteCursor.radixAhead?
      split
      · rename_i letter zero follows
        obtain ⟨_, first⟩ := List.getElem?_eq_some_iff.mp zero
        match text with
        | d :: e :: rest =>
          obtain rfl : d = '0' := by simpa using zero
          exact (unmarked e rest rfl).elim
      · rfl
    simp [ahead]

end IntegerLiteral

section Agreement
variable {here : Cursor} {text : List Char}

theorem fail_bytes {α : Type} (fault : Fault) (start : Position) (on : here.On text) :
    (here.bytes text).fail? fault start =
      some ((Reading.fail fault start here : Reading α).bytes text) := by
  simp [ByteCursor.fail?, Cursor.bytes_position? on, Reading.bytes, Reading.fail]

theorem readName_bytes (interior : Char → Bool) (on : here.On text) :
    (here.bytes text).readName? interior = some ((readName interior here).bytes text) := by
  unfold ByteCursor.readName? readName
  rw [Cursor.bytes_peek? on]
  cases unread : here.rest with
  | nil => simp [Cursor.peek, unread, Cursor.bytes_position? on, fail_bytes _ _ on]
  | cons c rest =>
    simp only [Cursor.peek, unread, List.getElem?_cons_zero, Option.bind_eq_bind, Option.bind_some]
    split
    · have first := Cursor.skip_passes unread
      have moved : (here.bytes text).advance c.utf8Size = here.skip.bytes text :=
        Cursor.bytes_advance first (by simp)
      have run := Cursor.bytes_skipRun? interior Char.utf8Size_pos (fun _ _ => rfl)
        (on.passes first)
      have name := Cursor.piece_passed on
        (Cursor.passes_append first (Cursor.takeRun_passes here.skip interior))
      rw [moved, run, ← Cursor.skip_eq_move unread]
      simp [name, Reading.bytes, Reading.read]
    · simp [Cursor.bytes_position? on, fail_bytes _ _ on]

end Agreement

namespace Cursor

def unsigned (here : Cursor) : Cursor :=
  here.move (splitSign here.rest).1 (splitSign here.rest).2

def unmarked (here : Cursor) : Cursor :=
  here.move (splitRadixMark here.rest).1 (splitRadixMark here.rest).2.2

theorem unsigned_passes (here : Cursor) :
    here.Passes (splitSign here.rest).1 here.unsigned :=
  move_passes _ _ _ (IntegerLiteral.splitSign_append here.rest).symm

theorem unmarked_passes (here : Cursor) :
    here.Passes (splitRadixMark here.rest).1 here.unmarked :=
  move_passes _ _ _ (IntegerLiteral.splitRadixMark_append here.rest).symm

def digitRun (here : Cursor) : List Char × Cursor :=
  here.unmarked.takeRun fun c => (digitValue (splitRadixMark here.rest).2.1 c).isSome

theorem digitRun_passes (here : Cursor) : here.unmarked.Passes here.digitRun.1 here.digitRun.2 :=
  takeRun_passes _ _

end Cursor

theorem digit_width {radix : Nat} {c : Char} (digit : (digitValue radix c).isSome) :
    c.utf8Size = 1 := by
  have code := digit_code digit
  rw [Char.utf8Size_eq_one_iff, UInt32.le_iff_toNat_le]
  simp only [Char.toNat_val]
  rw [show (127 : UInt32).toNat = 127 from rfl]
  omega

section Integers
variable {here : Cursor} {text : List Char}

theorem unsigned_bytes (here : Cursor) (text : List Char) :
    (if here.peek 0 = some '+' ∨ here.peek 0 = some '-' then (here.bytes text).advance 1
      else here.bytes text) = here.unsigned.bytes text := by
  have width := IntegerLiteral.splitSign_width here.rest
  split
  · rename_i sign
    exact Cursor.bytes_advance here.unsigned_passes (width.trans (if_pos sign))
  · rename_i unsigned
    rw [← Cursor.bytes_advance here.unsigned_passes (width.trans (if_neg unsigned))]
    rfl

theorem unmarked_bytes (here : Cursor) (text : List Char) :
    (if (ByteCursor.radixAhead? (here.peek 0) (here.peek 1)).isSome = true then
      (here.bytes text).advance 2 else here.bytes text) = here.unmarked.bytes text := by
  have width := (IntegerLiteral.splitRadixMark_ahead here.rest).2
  split
  · rename_i marked
    exact Cursor.bytes_advance here.unmarked_passes (width.trans (if_pos marked))
  · rename_i unmarked
    rw [← Cursor.bytes_advance here.unmarked_passes (width.trans (if_neg unmarked))]
    rfl

theorem radixMark_bytes (on : here.On text)
    (marked : (ByteCursor.radixAhead? (here.peek 0) (here.peek 1)).isSome = true) :
    (splitRadixMark here.rest).1 ≠ [] ∧ pieceOf? text (here.unmarked.position.offset - 2)
      here.unmarked.position.offset = some (splitRadixMark here.rest).1 := by
  have move := here.unmarked_passes
  have two : byteLength (splitRadixMark here.rest).1 = 2 :=
    (IntegerLiteral.splitRadixMark_ahead here.rest).2.trans (if_pos marked)
  have back : here.unmarked.position.offset - 2 = here.position.offset := by
    rw [Cursor.passes_offset move, two]
    omega
  constructor
  · intro none
    simp [none] at two
  · rw [back, Cursor.piece_passed on move]

theorem digits_bytes (on : here.On text) :
    ByteCursor.skipRun?
        (fun c =>
          (digitValue ((ByteCursor.radixAhead? (here.peek 0) (here.peek 1)).getD 10) c).isSome)
        (fun _ => 1) (fun _ => Nat.one_pos) (here.unmarked.bytes text) =
      some (here.digitRun.2.bytes text) := by
  have radix := (IntegerLiteral.splitRadixMark_ahead here.rest).1
  have run := Cursor.bytes_skipRun?
    (fun c => (digitValue (splitRadixMark here.rest).2.1 c).isSome)
    (fun _ => Nat.one_pos) (fun c digit => (digit_width digit).symm)
    (on.passes here.unmarked_passes)
  rw [radix] at run
  rw [Cursor.digitRun, radix]
  exact run

theorem readInteger_cursor (here : Cursor) :
    (readInteger here).cursor = here.unsigned.digitRun.2 := by
  have moved : here.move (IntegerLiteral.split here.rest).1.text
      (IntegerLiteral.split here.rest).2 = here.unsigned.digitRun.2 := by
    simp only [Cursor.digitRun, Cursor.takeRun, Cursor.unmarked, Cursor.unsigned,
      Cursor.move_rest, Cursor.move_move]
    rfl
  unfold readInteger
  simp only
  split <;> exact moved

theorem readInteger_fails {here : Cursor} (nothing : here.unsigned.digitRun.1 = []) :
    (readInteger here).result = .error ⟨if (splitRadixMark here.unsigned.rest).1 = [] then .noDigit
      else .noDigitAfter (String.ofList (splitRadixMark here.unsigned.rest).1), here.position,
      here.unsigned.digitRun.2.position⟩ := by
  have cursor := readInteger_cursor here
  unfold readInteger at cursor ⊢
  have digits : (IntegerLiteral.split here.rest).1.digits = [] := nothing
  simp only [digits, if_true] at cursor ⊢
  rw [← cursor]
  rfl

theorem readInteger_reads {here : Cursor} (something : here.unsigned.digitRun.1 ≠ []) :
    (readInteger here).result = .ok (IntegerLiteral.split here.rest).1 := by
  have digits : (IntegerLiteral.split here.rest).1.digits ≠ [] := something
  unfold readInteger
  simp only [digits, if_false]
  rfl

theorem readInteger_bytes (on : here.On text) :
    (here.bytes text).readInteger? = some ((readInteger here).result.map IntegerLiteral.text,
      (readInteger here).cursor.bytes text) := by
  have onUnsigned := on.passes here.unsigned_passes
  have onUnmarked := onUnsigned.passes here.unsigned.unmarked_passes
  have digits := here.unsigned.digitRun_passes
  have onBeyond := onUnmarked.passes digits
  unfold ByteCursor.readInteger?
  simp only [Cursor.bytes_position? on, Cursor.bytes_peek? on, Option.bind_eq_bind,
    Option.bind_some, unsigned_bytes, Cursor.bytes_peek? onUnsigned, unmarked_bytes,
    digits_bytes onUnsigned]
  simp only [Cursor.bytes_offset, Cursor.bytes_text, fail_bytes _ _ onBeyond]
  have moved := Cursor.passes_offset digits
  rw [readInteger_cursor]
  by_cases nothing : here.unsigned.digitRun.1 = []
  · have still : here.unsigned.digitRun.2.position.offset =
        here.unsigned.unmarked.position.offset := by simp [moved, nothing]
    rw [if_pos still, readInteger_fails nothing]
    split
    · rename_i marked
      obtain ⟨something, mark⟩ := radixMark_bytes onUnsigned marked
      rw [mark, if_neg something]
      rfl
    · rename_i unmarked
      have width := (IntegerLiteral.splitRadixMark_ahead here.unsigned.rest).2
      have none : (splitRadixMark here.unsigned.rest).1 = [] :=
        (byteLength_eq_zero_iff _).mp (width.trans (if_neg unmarked))
      rw [if_pos none]
      rfl
  · have further : here.unsigned.digitRun.2.position.offset ≠
        here.unsigned.unmarked.position.offset := by
      have := mt (byteLength_eq_zero_iff here.unsigned.digitRun.1).mp nothing
      omega
    have whole := Cursor.piece_passed on (Cursor.passes_append (Cursor.passes_append
      here.unsigned_passes here.unsigned.unmarked_passes) digits)
    rw [if_neg further, readInteger_reads nothing, whole]
    rfl

end Integers

section Quotes
variable {here : Cursor} {text : List Char}

theorem on_next {place : Position} {c : Char} {rest : List Char}
    (on : Cursor.On ⟨place, c :: rest⟩ text) : Cursor.On ⟨place.past c, rest⟩ text :=
  on.passes (Cursor.skip_passes rfl)

theorem next_bytes {place : Position} {c : Char} {rest : List Char}
    (on : Cursor.On ⟨place, c :: rest⟩ text) :
    (Cursor.bytes ⟨place, c :: rest⟩ text).next? =
      some (some c, Cursor.bytes ⟨place.past c, rest⟩ text) := by
  rw [Cursor.bytes_next? on]
  simp [Cursor.next, Cursor.move]

theorem end_bytes {place : Position} (on : Cursor.On ⟨place, []⟩ text) :
    (Cursor.bytes ⟨place, []⟩ text).next? = some (none, Cursor.bytes ⟨place, []⟩ text) :=
  Cursor.bytes_next? on

theorem readEscaped_bytes (opening : Position) (content : List Char) {place : Position}
    {rest : List Char} (on : Cursor.On ⟨place, rest⟩ text) :
    ByteCursor.readEscaped? opening content (Cursor.bytes ⟨place, rest⟩ text) =
      some ((readEscaped opening content place rest).bytes text) := by
  fun_induction readEscaped opening content place rest with
  | case1 =>
    rw [ByteCursor.readEscaped?, end_bytes on]
    exact fail_bytes _ _ on
  | case2 =>
    rw [ByteCursor.readEscaped?, next_bytes on]
    rfl
  | case3 =>
    have on' := on_next on
    rw [ByteCursor.readEscaped?, next_bytes on]
    simp only [Char.reduceEq, if_false, if_true, Cursor.bytes_position? on', Option.bind_some]
    rw [end_bytes on']
    exact fail_bytes _ _ on'
  | case4 content place escaped later needed _ ih =>
    have on' := on_next on
    rw [ByteCursor.readEscaped?, next_bytes on]
    simp only [Char.reduceEq, if_false, if_true, Cursor.bytes_position? on', Option.bind_some]
    rw [next_bytes on']
    simp [needed, ih (on_next on')]
  | case5 content place escaped later plain =>
    have on' := on_next on
    rw [ByteCursor.readEscaped?, next_bytes on]
    simp only [Char.reduceEq, if_false, if_true, Cursor.bytes_position? on', Option.bind_some]
    rw [next_bytes on']
    simp [plain, fail_bytes _ _ (on_next on')]
  | case6 content place c rest notQuote notBackslash ih =>
    rw [ByteCursor.readEscaped?, next_bytes on]
    simp [notQuote, notBackslash, ih (on_next on)]

theorem backtick_behind (text : List Char) :
    ('`' ∉ text ∧ text.dropWhile (· != '`') = []) ∨
      ('`' ∈ text ∧ ∃ rest, text.dropWhile (· != '`') = '`' :: rest) := by
  have whole : text.takeWhile (· != '`') ++ text.dropWhile (· != '`') = text :=
    List.takeWhile_append_dropWhile
  cases behind : text.dropWhile (· != '`') with
  | nil =>
    refine .inl ⟨?_, rfl⟩
    intro member
    rw [← whole, behind, List.append_nil] at member
    simpa using List.mem_takeWhile_imp member
  | cons c rest =>
    have outside := dropWhile_stops (· != '`') text c (by simp [behind])
    obtain rfl : c = '`' := by simpa using outside
    refine .inr ⟨?_, rest, rfl⟩
    rw [← whole, behind]
    simp

theorem readVerbatim_bytes (opening : Position) (on : here.On text) :
    (here.bytes text).readVerbatim? opening = some ((readVerbatim opening here).bytes text) := by
  have run := Cursor.takeRun_passes here (· != '`')
  have onBeyond := on.passes run
  unfold ByteCursor.readVerbatim? readVerbatim
  simp only [Cursor.bytes_rest? on, Option.bind_eq_bind, Option.bind_some]
  rcases backtick_behind here.rest with ⟨absent, nothing⟩ | ⟨present, rest, front⟩
  · have unread : (here.takeRun (· != '`')).2.rest = [] := nothing
    rw [if_neg absent, unread, Cursor.bytes_toEnd onBeyond unread]
    exact fail_bytes _ _ onBeyond
  · have unread : (here.takeRun (· != '`')).2.rest = '`' :: rest := front
    have content := Cursor.piece_passed on run
    rw [Cursor.passes_offset run] at content
    have moved : (here.bytes text).advance (byteLength (here.takeRun (· != '`')).1 + 1) =
        (here.takeRun (· != '`')).2.skip.bytes text :=
      Cursor.bytes_advance (Cursor.passes_append run (Cursor.skip_passes unread))
        (byteLength_append _ _)
    rw [if_pos present, unread]
    rw [← show (here.takeRun (· != '`')).1 = here.rest.takeWhile (· != '`') from rfl, moved]
    simp only [Cursor.bytes_text, Cursor.bytes_offset, content]
    rfl

theorem readQuoted_bytes (on : here.On text) :
    (here.bytes text).readQuoted? = some ((readQuoted here).bytes text) := by
  unfold ByteCursor.readQuoted? readQuoted
  rw [Cursor.bytes_position? on, Cursor.bytes_peek? on]
  cases unread : here.rest with
  | nil => simp [Cursor.peek, unread, fail_bytes _ _ on]
  | cons c rest =>
    have first := Cursor.skip_passes unread
    have moved (narrow : c.utf8Size = 1) : (here.bytes text).advance 1 = here.skip.bytes text :=
      Cursor.bytes_advance first (by simp [narrow])
    simp only [Cursor.peek, unread, List.getElem?_cons_zero, Option.bind_eq_bind, Option.bind_some]
    by_cases quote : c = '"'
    · subst quote
      have skipped : here.skip = ⟨here.position.past '"', rest⟩ := by
        rw [Cursor.skip_eq_move unread]
        simp [Cursor.move]
      rw [moved rfl, skipped]
      exact readEscaped_bytes _ _ (skipped ▸ on.passes first)
    · by_cases backtick : c = '`'
      · subst backtick
        rw [moved rfl]
        exact readVerbatim_bytes _ (on.passes first)
      · split <;> simp_all [fail_bytes _ _ on]

end Quotes

namespace IntegerLiteral

theorem unsigned_cut {literal : IntegerLiteral} (formed : literal.WellFormed) :
    unsigned? literal.text = some (literal.unit, literal.radixMark ++ literal.digits) := by
  unfold unsigned? IntegerLiteral.text unit
  rcases formed.sign with unsigned | plus | minus
  · have dark := formed.unsigned []
    rw [List.append_nil] at dark
    rw [unsigned, List.nil_append]
    split
    · rename_i first
      exact absurd rfl (dark '+' first).1
    · rename_i first
      exact absurd rfl (dark '-' first).2
    · rfl
  · have cut := cutAt?_byteLength ['+'] (literal.radixMark ++ literal.digits)
    rw [plus]
    exact congrArg (Option.map fun (_, unsigned) => ((1 : Int), unsigned)) cut
  · have cut := cutAt?_byteLength ['-'] (literal.radixMark ++ literal.digits)
    rw [minus]
    exact congrArg (Option.map fun (_, unsigned) => ((-1 : Int), unsigned)) cut

theorem numeral_cut {literal : IntegerLiteral} (formed : literal.WellFormed) :
    numeral? literal.text = some (literal.unit, literal.numeral) := by
  simp only [numeral?, unsigned_cut formed, Option.bind_eq_bind, Option.bind_some]
  rcases formed.radix with ⟨unmarked, ten⟩ | ⟨letter, marked, marks⟩
  · have decimal := formed.readable
    rw [ten] at decimal
    simp only [numeral, unmarked, ten, List.nil_append]
    split
    · rename_i letter further octal
      have nothing : markedRadix letter = none :=
        decimal_digit_marks_nothing (decimal letter (by simp [octal]))
      have zero : cutAt? 1 ('0' :: letter :: further) = some (['0'], letter :: further) :=
        cutAt?_byteLength ['0'] (letter :: further)
      rw [octal, nothing]
      simp only [zero, Option.map_some]
    · rename_i short
      split
      · rename_i letter further _ octal
        exact (short letter further octal).elim
      · rfl
  · simp [numeral, marked, (markedRadix_eq_some_iff letter _).mpr marks]

/-- The value does not depend on what the reader of the literal has found out. -/
theorem value_cut {literal : IntegerLiteral} (formed : literal.WellFormed) :
    value? literal.text = some literal.value := by
  simp only [value?, numeral_cut formed, Option.bind_eq_bind, Option.bind_some]
  rfl

end IntegerLiteral
end CommentTags
