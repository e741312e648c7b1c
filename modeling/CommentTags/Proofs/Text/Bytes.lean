import CommentTags.Proofs.Text.Runs

/- Places in a text that are known by their byte offsets alone. Every look at the text from there is
   checked: it fails if an offset lies inside a character or beyond the text. Where a cursor stands
   none of them fails. -/
namespace CommentTags

def cutAt? : Nat → List Char → Option (List Char × List Char)
  | 0, text => some ([], text)
  | _ + 1, [] => none
  | offset + 1, c :: rest =>
    if c.utf8Size ≤ offset + 1 then
      (cutAt? (offset + 1 - c.utf8Size) rest).map fun (front, back) => (c :: front, back)
    else none

theorem byteLength_eq_zero_iff (text : List Char) : byteLength text = 0 ↔ text = [] := by
  cases text with
  | nil => simp
  | cons c text =>
    have := c.utf8Size_pos
    simp only [byteLength_cons, List.cons_ne_nil, iff_false]
    omega

theorem cutAt?_byteLength (front back : List Char) :
    cutAt? (byteLength front) (front ++ back) = some (front, back) := by
  induction front with
  | nil => simp [cutAt?]
  | cons c front ih =>
    have positive := c.utf8Size_pos
    obtain ⟨n, bytes⟩ : ∃ n, byteLength (c :: front) = n + 1 :=
      ⟨byteLength (c :: front) - 1, by rw [byteLength_cons]; omega⟩
    have width := byteLength_cons c front
    have enough : n + 1 - c.utf8Size = byteLength front := by omega
    rw [bytes, List.cons_append, cutAt?, if_pos (by omega), enough, ih]
    rfl

theorem cutAt?_sound {offset : Nat} {text front back : List Char}
    (cut : cutAt? offset text = some (front, back)) :
    text = front ++ back ∧ byteLength front = offset := by
  induction text generalizing offset front with
  | nil =>
    cases offset with
    | zero =>
      obtain ⟨rfl, rfl⟩ : [] = front ∧ [] = back := by simpa [cutAt?] using cut
      exact ⟨rfl, rfl⟩
    | succ n => simp [cutAt?] at cut
  | cons c text ih =>
    cases offset with
    | zero =>
      obtain ⟨rfl, rfl⟩ : [] = front ∧ c :: text = back := by simpa [cutAt?] using cut
      exact ⟨rfl, rfl⟩
    | succ n =>
      rw [cutAt?] at cut
      split at cut
      · rename_i fits
        obtain ⟨⟨first, last⟩, inner, same⟩ := Option.map_eq_some_iff.mp cut
        obtain ⟨rfl, rfl⟩ : c :: first = front ∧ last = back := by simpa using same
        obtain ⟨split, bytes⟩ := ih inner
        refine ⟨by rw [split, List.cons_append], ?_⟩
        rw [byteLength_cons, bytes]
        omega
      · simp at cut

theorem cutAt?_eq_some_iff {offset : Nat} {text front back : List Char} :
    cutAt? offset text = some (front, back) ↔ text = front ++ back ∧ byteLength front = offset := by
  constructor
  · exact cutAt?_sound
  · rintro ⟨rfl, rfl⟩
    exact cutAt?_byteLength front back

theorem cutAt?_isSome_iff (offset : Nat) (text : String) :
    (cutAt? offset text.toList).isSome ↔ (⟨offset⟩ : String.Pos.Raw).IsValid text := by
  have bytes (front : List Char) : (String.ofList front).utf8ByteSize = byteLength front := by
    induction front with
    | nil => simp
    | cons c front ih =>
      rw [← List.singleton_append, String.ofList_append, String.utf8ByteSize_append, ih]
      simp
  rw [Option.isSome_iff_exists, String.Pos.Raw.isValid_iff_exists_append]
  constructor
  · rintro ⟨⟨front, back⟩, cut⟩
    obtain ⟨split, same⟩ := cutAt?_sound cut
    refine ⟨String.ofList front, String.ofList back, ?_, ?_⟩
    · rw [← String.ofList_append, ← split, String.ofList_toList]
    · rw [String.Pos.Raw.ext_iff, ← same, ← bytes]
      rfl
  · rintro ⟨front, back, rfl, same⟩
    refine ⟨(front.toList, back.toList), cutAt?_eq_some_iff.mpr ⟨String.toList_append, ?_⟩⟩
    rw [← bytes, String.ofList_toList]
    exact (congrArg String.Pos.Raw.byteIdx same).symm

def pieceOf? (text : List Char) (first last : Nat) : Option (List Char) := do
  let (front, _) ← cutAt? last text
  let (_, piece) ← cutAt? first front
  return piece

/-- A text and the number of bytes in front of the place that is looked at. -/
structure ByteCursor where
  text : List Char
  offset : Nat

namespace ByteCursor

def rest? (here : ByteCursor) : Option (List Char) := (cutAt? here.offset here.text).map Prod.snd

def peek? (here : ByteCursor) (ahead : Nat) : Option (Option Char) := here.rest?.map (·[ahead]?)

def position? (here : ByteCursor) : Option Position :=
  (cutAt? here.offset here.text).map fun (front, _) => ⟨front.length, here.offset⟩

/-- Nothing is checked until the text is looked at again. -/
def advance (here : ByteCursor) (bytes : Nat) : ByteCursor := ⟨here.text, here.offset + bytes⟩

def toEnd (here : ByteCursor) : ByteCursor := ⟨here.text, byteLength here.text⟩

def next? (here : ByteCursor) : Option (Option Char × ByteCursor) := do
  match ← here.peek? 0 with
  | none => return (none, here)
  | some c => return (some c, here.advance c.utf8Size)

def takeRest? (here : ByteCursor) : Option (List Char × ByteCursor) := do
  return (← here.rest?, here.toEnd)

section Looking
variable {here behind : ByteCursor} {c : Char}

theorem peek?_inside (ahead : here.peek? 0 = some (some c)) :
    here.offset < byteLength here.text := by
  obtain ⟨_, unread, first⟩ := Option.map_eq_some_iff.mp ahead
  obtain ⟨⟨front, rest⟩, cut, rfl⟩ := Option.map_eq_some_iff.mp unread
  obtain ⟨split, same⟩ := cutAt?_sound cut
  cases rest with
  | nil => simp at first
  | cons d rest =>
    have positive := d.utf8Size_pos
    rw [split, byteLength_append, byteLength_cons]
    omega

theorem next?_further (taken : here.next? = some (some c, behind)) :
    byteLength behind.text - behind.offset < byteLength here.text - here.offset := by
  cases ahead : here.peek? 0 with
  | none => simp [next?, ahead] at taken
  | some first =>
    cases first with
    | none => simp [next?, ahead] at taken
    | some d =>
      obtain ⟨-, rfl⟩ : d = c ∧ here.advance d.utf8Size = behind := by
        simpa [next?, ahead] using taken
      have inside := peek?_inside ahead
      have positive := d.utf8Size_pos
      simp only [advance]
      omega

end Looking

/-- Passes the characters that belong to a run. Each is taken to be `width` bytes wide. -/
def skipRun? (belongs : Char → Bool) (width : Char → Nat) (wide : ∀ c, 0 < width c)
    (here : ByteCursor) : Option ByteCursor :=
  match _ahead : here.peek? 0 with
  | none => none
  | some none => some here
  | some (some c) =>
    if belongs c then skipRun? belongs width wide (here.advance (width c)) else some here
termination_by byteLength here.text - here.offset
decreasing_by
  have inside := peek?_inside _ahead
  have := wide c
  simp only [advance]
  omega

end ByteCursor

namespace Cursor

def On (here : Cursor) (text : List Char) : Prop := ∃ front, (start text).Passes front here

def bytes (here : Cursor) (text : List Char) : ByteCursor := ⟨text, here.position.offset⟩

@[simp] theorem bytes_text (here : Cursor) (text : List Char) : (here.bytes text).text = text := rfl

@[simp] theorem bytes_offset (here : Cursor) (text : List Char) :
    (here.bytes text).offset = here.position.offset := rfl

theorem start_on (text : List Char) : (start text).On text := ⟨[], passes_nothing _⟩

theorem On.passes {here beyond : Cursor} {text passed : List Char} (on : here.On text)
    (move : here.Passes passed beyond) : beyond.On text := by
  obtain ⟨front, moved⟩ := on
  exact ⟨front ++ passed, passes_append moved move⟩

section Looking
variable {here beyond : Cursor} {text passed : List Char}

theorem passes_offset (move : here.Passes passed beyond) :
    beyond.position.offset = here.position.offset + byteLength passed := by
  rw [move.2]
  rfl

theorem On.cut (on : here.On text) :
    ∃ front, cutAt? here.position.offset text = some (front, here.rest) ∧
      here.position = Position.start.after front := by
  obtain ⟨front, split, place⟩ := on
  refine ⟨front, cutAt?_eq_some_iff.mpr ⟨split, ?_⟩, place⟩
  rw [place]
  simp [Position.after, start, Position.start]

theorem bytes_rest? (on : here.On text) : (here.bytes text).rest? = some here.rest := by
  obtain ⟨front, cut, _⟩ := on.cut
  rw [ByteCursor.rest?, bytes, cut]
  rfl

theorem bytes_peek? (on : here.On text) (ahead : Nat) :
    (here.bytes text).peek? ahead = some (here.peek ahead) := by
  rw [ByteCursor.peek?, bytes_rest? on]
  rfl

theorem bytes_position? (on : here.On text) :
    (here.bytes text).position? = some here.position := by
  obtain ⟨front, cut, place⟩ := on.cut
  rw [ByteCursor.position?, bytes, cut, place]
  simp [Position.after, Position.start]

theorem bytes_advance (move : here.Passes passed beyond) {width : Nat}
    (same : byteLength passed = width) :
    (here.bytes text).advance width = beyond.bytes text := by
  rw [ByteCursor.advance, bytes, bytes, passes_offset move, same]

theorem bytes_toEnd (on : beyond.On text) (nothing : beyond.rest = []) :
    (here.bytes text).toEnd = beyond.bytes text := by
  obtain ⟨front, split, place⟩ := on
  rw [nothing, List.append_nil] at split
  rw [ByteCursor.toEnd, bytes, bytes, place, ByteCursor.mk.injEq]
  exact ⟨rfl, by simp [← split, start, Position.after, Position.start]⟩

theorem piece_passed (on : here.On text) (move : here.Passes passed beyond) :
    pieceOf? text here.position.offset beyond.position.offset = some passed := by
  obtain ⟨front, split, place⟩ := on
  have whole : cutAt? beyond.position.offset text = some (front ++ passed, beyond.rest) := by
    refine cutAt?_eq_some_iff.mpr ⟨?_, ?_⟩
    · rw [List.append_assoc, ← move.1]
      exact split
    · rw [move.2, place]
      simp [start, Position.after, Position.start]
  have behind : cutAt? here.position.offset (front ++ passed) = some (front, passed) := by
    refine cutAt?_eq_some_iff.mpr ⟨rfl, ?_⟩
    rw [place]
    simp [start, Position.after, Position.start]
  simp [pieceOf?, whole, behind]

theorem bytes_next? (on : here.On text) :
    (here.bytes text).next? = some (here.next.1, here.next.2.bytes text) := by
  rw [ByteCursor.next?, bytes_peek? on]
  cases unread : here.rest with
  | nil => simp [peek, next, unread]
  | cons c rest =>
    have moved : (here.bytes text).advance c.utf8Size = here.skip.bytes text :=
      bytes_advance (skip_passes unread) (by simp)
    simp [peek, next, unread, moved, skip]

theorem bytes_takeRest? (on : here.On text) :
    (here.bytes text).takeRest? = some (here.takeRest.1, here.takeRest.2.bytes text) := by
  have moved : (here.bytes text).toEnd = here.takeRest.2.bytes text :=
    bytes_toEnd (on.passes (takeRest_passes here)) rfl
  simp [ByteCursor.takeRest?, bytes_rest? on, moved, takeRest]

theorem bytes_skipRun? (belongs : Char → Bool) {width : Char → Nat} (wide : ∀ c, 0 < width c)
    (exactly : ∀ c, belongs c = true → width c = c.utf8Size) (on : here.On text) :
    ByteCursor.skipRun? belongs width wide (here.bytes text) =
      some ((here.takeRun belongs).2.bytes text) := by
  induction unread : here.rest generalizing here with
  | nil =>
    have stays : (here.takeRun belongs).2 = here := by
      simp only [takeRun, unread, List.takeWhile_nil, List.dropWhile_nil]
      exact move_nothing unread
    have ahead : (here.bytes text).peek? 0 = some none := by simp [bytes_peek? on, peek, unread]
    rw [ByteCursor.skipRun?, ahead, stays]
  | cons c rest ih =>
    have ahead : (here.bytes text).peek? 0 = some (some c) := by
      simp [bytes_peek? on, peek, unread]
    rw [ByteCursor.skipRun?, ahead]
    simp only
    split
    · rename_i belongs'
      have moved : (here.bytes text).advance (width c) = here.skip.bytes text :=
        bytes_advance (skip_passes unread) (by simp [exactly c belongs'])
      have behind : here.skip.rest = rest := by rw [skip_eq_move unread, move_rest]
      rw [moved, ih (on.passes (skip_passes unread)) behind]
      simp only [takeRun, behind, unread, List.takeWhile_cons, List.dropWhile_cons, belongs',
        if_true]
      rw [skip_eq_move unread, move_move, List.singleton_append]
    · rename_i stops
      have stays : (here.takeRun belongs).2 = here := by
        simp only [takeRun, unread, List.takeWhile_cons, List.dropWhile_cons, stops]
        exact move_nothing unread
      rw [stays]

end Looking
end Cursor

/-- The offset falls between two characters of the text, and the column counts those in front. -/
def Position.Marks (text : List Char) (p : Position) : Prop :=
  ∃ front back, cutAt? p.offset text = some (front, back) ∧ p.column = front.length

theorem Cursor.On.marks {here : Cursor} {text : List Char} (on : here.On text) :
    here.position.Marks text := by
  obtain ⟨front, cut, place⟩ := on.cut
  exact ⟨front, here.rest, cut, by simp [place, Position.after, Position.start]⟩

theorem Position.Marks.isValid {text : List Char} {p : Position} (marks : p.Marks text) :
    (⟨p.offset⟩ : String.Pos.Raw).IsValid (String.ofList text) := by
  obtain ⟨front, back, cut, _⟩ := marks
  rw [← cutAt?_isSome_iff, String.toList_ofList, cut]
  rfl

theorem Position.Marks.within {text : List Char} {p : Position} (marks : p.Marks text) :
    p.offset ≤ byteLength text := by
  obtain ⟨front, back, cut, _⟩ := marks
  obtain ⟨rfl, same⟩ := cutAt?_sound cut
  rw [byteLength_append]
  omega

end CommentTags
