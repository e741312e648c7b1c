import CommentTags.Text.Position

/- A place in a text together with what is left to read there. The end of the text is an empty
   remainder, so it cannot be mistaken for a character. -/
namespace CommentTags

structure Cursor where
  position : Position
  rest : List Char
deriving DecidableEq

namespace Cursor

def start (text : List Char) : Cursor := ⟨.start, text⟩

def peek (here : Cursor) (ahead : Nat) : Option Char := here.rest[ahead]?

/-- Moves over `passed`, which the caller has split off the front, to `rest`. -/
def move (here : Cursor) (passed rest : List Char) : Cursor := ⟨here.position.after passed, rest⟩

def next (here : Cursor) : Option Char × Cursor :=
  match here.rest with
  | [] => (none, here)
  | c :: rest => (some c, here.move [c] rest)

def skip (here : Cursor) : Cursor := here.next.2

def takeRest (here : Cursor) : List Char × Cursor := (here.rest, here.move here.rest [])

def takeRun (here : Cursor) (belongs : Char → Bool) : List Char × Cursor :=
  let run := here.rest.takeWhile belongs
  (run, here.move run (here.rest.dropWhile belongs))

/-- The cursor moved from `here` over exactly `passed` to `beyond`. -/
def Passes (here : Cursor) (passed : List Char) (beyond : Cursor) : Prop :=
  here.rest = passed ++ beyond.rest ∧ beyond.position = here.position.after passed

theorem passes_nothing (here : Cursor) : here.Passes [] here := ⟨rfl, rfl⟩

theorem passes_append {here middle beyond : Cursor} {first second : List Char}
    (one : here.Passes first middle) (two : middle.Passes second beyond) :
    here.Passes (first ++ second) beyond := by
  refine ⟨by rw [one.1, two.1, List.append_assoc], ?_⟩
  rw [two.2, one.2, Position.after_append]

theorem move_passes (here : Cursor) (passed rest : List Char) (split : here.rest = passed ++ rest) :
    here.Passes passed (here.move passed rest) := ⟨split, rfl⟩

theorem takeRun_passes (here : Cursor) (belongs : Char → Bool) :
    here.Passes (here.takeRun belongs).1 (here.takeRun belongs).2 :=
  move_passes _ _ _ List.takeWhile_append_dropWhile.symm

theorem takeRest_passes (here : Cursor) : here.Passes here.takeRest.1 here.takeRest.2 :=
  move_passes _ _ _ (List.append_nil _).symm

theorem skip_passes {here : Cursor} {c : Char} {rest : List Char} (front : here.rest = c :: rest) :
    here.Passes [c] here.skip := by
  simp [skip, next, front, Passes, move]

theorem passes_length {here beyond : Cursor} {passed : List Char}
    (move : here.Passes passed beyond) :
    here.rest.length = passed.length + beyond.rest.length := by
  rw [move.1, List.length_append]

end Cursor
end CommentTags
