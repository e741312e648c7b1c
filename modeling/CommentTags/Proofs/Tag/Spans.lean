import CommentTags.Proofs.Tag.Refusals
import CommentTags.Proofs.Token.Bytes
import CommentTags.Proofs.Token.Spans

/- Where a run stands in its text and where it shows an error. The last opening parenthesis stands
   at or in front of the cursor, so whatever stretch is shown, it begins where it must. -/
namespace CommentTags
namespace Config

/-- The cursor stands in the text, and so does the opening, with nothing but text in between. -/
def Stands (text : List Char) (s : Config) : Prop :=
  ∃ opened front inside, (Cursor.start text).Passes front opened ∧ opened.Passes inside s.cursor ∧
    s.opening = opened.position

theorem Stands.on {text : List Char} {s : Config} (stands : s.Stands text) : s.cursor.On text := by
  obtain ⟨opened, front, inside, toOpening, toCursor, _⟩ := stands
  exact ⟨front ++ inside, Cursor.passes_append toOpening toCursor⟩

theorem stands_of_on {text : List Char} {s : Config} (on : s.cursor.On text)
    (opening : s.opening = s.cursor.position) : s.Stands text := by
  obtain ⟨front, move⟩ := on
  exact ⟨s.cursor, front, [], move, Cursor.passes_nothing _, opening⟩

section Moves
variable {options : Options} {s after : Config} {c : Char} {rest text : List Char}

theorem step_passes (front : s.cursor.rest = c :: rest) (stepped : step options s c = .ok after) :
    ∃ passed, s.cursor.Passes passed after.cursor := by
  rcases step_advances front stepped with ⟨passed, _, move⟩ | ⟨still, _, _⟩
  · exact ⟨passed, move⟩
  · exact ⟨[], still ▸ Cursor.passes_nothing _⟩

theorem move_opening (move : Move options s c after) :
    after.opening = s.opening ∨ after.opening = s.cursor.position ∨
      after.opening = after.cursor.position := by
  cases move with
  | opening => exact .inr (.inl rfl)
  | link => exact .inr (.inr rfl)
  | comma | close => exact .inl (addArgument_opening s)
  | _ => exact .inl rfl

theorem stands_step (stands : s.Stands text) (front : s.cursor.rest = c :: rest)
    (stepped : step options s c = .ok after) : after.Stands text := by
  obtain ⟨passed, move⟩ := step_passes front stepped
  have on := stands.on
  rcases move_opening (move_of_step stepped) with same | here | beyond
  · obtain ⟨opened, front, inside, toOpening, toCursor, opening⟩ := stands
    exact ⟨opened, front, inside ++ passed, toOpening, Cursor.passes_append toCursor move,
      same.trans opening⟩
  · obtain ⟨front, toCursor⟩ := on
    exact ⟨s.cursor, front, passed, toCursor, move, here⟩
  · exact stands_of_on (on.passes move) beyond

end Moves

section Errors
variable {options : Options} {s : Config} {c : Char} {rest text : List Char} {error : TagError}

theorem Stands.shows (stands : s.Stands text) (shows : s.cursor.Shows error) :
    (Cursor.start text).Shows error := by
  obtain ⟨front, move⟩ := stands.on
  exact shows.behind move

theorem shows_opening (stands : s.Stands text) {beyond : Cursor} {passed : List Char}
    (fault : Fault) (move : s.cursor.Passes passed beyond) :
    (Cursor.start text).Shows ⟨fault, s.opening, beyond.position⟩ := by
  obtain ⟨opened, front, inside, toOpening, toCursor, opening⟩ := stands
  rw [opening]
  exact (Cursor.shows_passed fault (Cursor.passes_append toCursor move)).behind toOpening

theorem step_shows (stands : s.Stands text) (front : s.cursor.rest = c :: rest)
    (failed : step options s c = .error error) : (Cursor.start text).Shows error := by
  have skipped := Cursor.skip_passes front
  cases refusal_of_step failed with
  | name _ failed => exact stands.shows (readName_shows failed)
  | scalar _ failed => exact stands.shows (readToken_shows failed)
  | mixed | several => exact shows_opening stands _ skipped
  | deep => exact stands.shows (Cursor.shows_passed _ skipped)
  | _ => exact stands.shows (s.cursor.shows_point _)

theorem finish_error (failed : s.finish = .error error) :
    error = ⟨.openArguments, s.opening, s.cursor.position⟩ ∨
      ∃ fault, error = ⟨fault, s.cursor.position, s.cursor.position⟩ := by
  unfold finish at failed
  split at failed <;> simp_all [fail, eq_comm]

theorem finish_shows (stands : s.Stands text) (failed : s.finish = .error error) :
    (Cursor.start text).Shows error := by
  rcases finish_error failed with rfl | ⟨fault, rfl⟩
  · exact shows_opening stands _ (Cursor.passes_nothing _)
  · exact stands.shows (s.cursor.shows_point fault)

theorem run_shows (stands : s.Stands text) (failed : (run options s).2 = .error error) :
    (Cursor.start text).Shows error := by
  fun_induction run options s with
  | case1 s => exact finish_shows stands failed
  | case2 s c rest front cause stepped =>
    rw [← Except.error.inj failed]
    exact step_shows stands front stepped
  | case3 s c rest front after stepped ih => exact ih (stands_step stands front stepped) failed

end Errors

inductive Reaches (options : Options) : Config → Config → Prop
  | here (s : Config) : Reaches options s s
  | step {s middle after : Config} {c : Char} {rest : List Char}
      (front : s.cursor.rest = c :: rest) (stepped : step options s c = .ok middle)
      (further : Reaches options middle after) : Reaches options s after

theorem stands_reached {options : Options} {s after : Config} {text : List Char}
    (stands : s.Stands text) (reached : Reaches options s after) : after.Stands text := by
  induction reached with
  | here => exact stands
  | step front stepped further ih => exact ih (stands_step stands front stepped)

theorem start_stands (text : List Char) : (start [] (.start text)).Stands text :=
  stands_of_on (Cursor.start_on text) rfl

end Config

/-- Whatever is done at the cursor can be done by bytes alone. No look at the text fails, and what
    is read there and the place behind it are the same. -/
structure Cursor.ByteExact (text : List Char) (here : Cursor) : Prop where
  position : (here.bytes text).position? = some here.position
  peek : ∀ ahead, (here.bytes text).peek? ahead = some (here.peek ahead)
  next : (here.bytes text).next? = some (here.next.1, here.next.2.bytes text)
  takeRest : (here.bytes text).takeRest? = some (here.takeRest.1, here.takeRest.2.bytes text)
  name : ∀ interior,
    (here.bytes text).readName? interior = some ((readName interior here).bytes text)
  quoted : (here.bytes text).readQuoted? = some ((readQuoted here).bytes text)
  integer : (here.bytes text).readInteger? =
    some ((readInteger here).result.map IntegerLiteral.text, (readInteger here).cursor.bytes text)
  numeral : ∀ literal, (readInteger here).result = .ok literal →
    IntegerLiteral.numeral? literal.text = some (literal.unit, literal.numeral)
  value : ∀ literal, (readInteger here).result = .ok literal →
    IntegerLiteral.value? literal.text = some literal.value

theorem Cursor.On.byteExact {here : Cursor} {text : List Char} (on : here.On text) :
    here.ByteExact text where
  position := Cursor.bytes_position? on
  peek := Cursor.bytes_peek? on
  next := Cursor.bytes_next? on
  takeRest := Cursor.bytes_takeRest? on
  name interior := readName_bytes interior on
  quoted := readQuoted_bytes on
  integer := readInteger_bytes on
  numeral literal read := by
    obtain ⟨rfl, something⟩ := readInteger_digits here literal read
    exact IntegerLiteral.numeral_cut (IntegerLiteral.split_wellFormed here.rest something)
  value literal read := by
    obtain ⟨rfl, something⟩ := readInteger_digits here literal read
    exact IntegerLiteral.value_cut (IntegerLiteral.split_wellFormed here.rest something)

namespace Tag

theorem parse_shows {options : Options} {text : String} {error : TagError}
    (failed : parse options text = .error error) :
    (Cursor.start (trimEnd text.toList)).Shows error :=
  Config.run_shows (Config.start_stands _) failed

/-- An error is shown by a stretch of the trimmed text. On the way there, and on the way to a tag,
    no step by bytes leaves the text or ends inside a character. -/
theorem parse_error_located (options : Options) (text : String) :
    let trimmed := trimEnd text.toList
    (∀ error, parse options text = .error error →
      error.start.offset ≤ error.stop.offset ∧ error.stop.offset ≤ byteLength trimmed ∧
      error.start.Marks trimmed ∧ error.stop.Marks trimmed ∧
      (⟨error.start.offset⟩ : String.Pos.Raw).IsValid (String.ofList trimmed) ∧
      (⟨error.stop.offset⟩ : String.Pos.Raw).IsValid (String.ofList trimmed)) ∧
    ∀ s, Config.Reaches options (.start [] (.start trimmed)) s → s.cursor.ByteExact trimmed := by
  intro trimmed
  constructor
  · intro error failed
    obtain ⟨first, last, before, shown, toFirst, toLast, start, stop⟩ := parse_shows failed
    have onFirst := (Cursor.start_on trimmed).passes toFirst
    have onLast := onFirst.passes toLast
    rw [start, stop]
    refine ⟨?_, onLast.marks.within, onFirst.marks, onLast.marks, onFirst.marks.isValid,
      onLast.marks.isValid⟩
    rw [Cursor.passes_offset toLast]
    omega
  · intro s reached
    exact (Config.stands_reached (Config.start_stands trimmed) reached).on.byteExact

theorem bad_escape_located :
    let trimmed := trimEnd "é=\"ü\\ñ  ".toList
    parse {} "é=\"ü\\ñ  " = .error ⟨.badEscape 'ñ', ⟨5, 7⟩, ⟨6, 9⟩⟩ ∧
      (⟨5, 7⟩ : Position).Marks trimmed ∧
      (⟨7⟩ : String.Pos.Raw).IsValid (String.ofList trimmed) ∧
      (Cursor.start trimmed).ByteExact trimmed := by
  intro trimmed
  have failed : parse {} "é=\"ü\\ñ  " = .error ⟨.badEscape 'ñ', ⟨5, 7⟩, ⟨6, 9⟩⟩ := by
    decide +kernel
  have located := parse_error_located {} "é=\"ü\\ñ  "
  obtain ⟨-, -, marks, -, valid, -⟩ := located.1 _ failed
  exact ⟨failed, marks, valid, located.2 _ (.here _)⟩

end Tag
end CommentTags
