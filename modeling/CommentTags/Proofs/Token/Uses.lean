import CommentTags.Proofs.Token.Bytes
import CommentTags.Proofs.Token.Spans

/- A cursor under any use. Looks and readers follow one another in any order, each from where the
   one before it stopped, also where that one failed. What one use keeps of the cursor holds at
   every place that a sequence of them comes to. -/
namespace CommentTags

def Reading.map {α β : Type} (f : α → β) (reading : Reading α) : Reading β :=
  ⟨reading.result.map f, reading.cursor⟩

inductive Use
  | peek (ahead : Nat)
  | next
  | rest
  | integer
  | quoted
  | name (interior : Char → Bool)

namespace Use

/-- Shows the text that is seen or taken. At the end of the text a look and the next character show
    none. -/
def read (here : Cursor) : Use → Reading (Option (List Char))
  | peek ahead => .read ((here.peek ahead).map fun c => [c]) here
  | next => .read (here.next.1.map fun c => [c]) here.next.2
  | rest => .read (some here.takeRest.1) here.takeRest.2
  | integer => (readInteger here).map fun literal => some literal.text
  | quoted => (readQuoted here).map some
  | name interior => (readName interior here).map some

def readBytes? (here : ByteCursor) : Use → Option (ByteCursor.Outcome (Option (List Char)))
  | peek ahead => do return (.ok ((← here.peek? ahead).map fun c => [c]), here)
  | next => do
    let (taken, beyond) ← here.next?
    return (.ok (taken.map fun c => [c]), beyond)
  | rest => do
    let (taken, beyond) ← here.takeRest?
    return (.ok (some taken), beyond)
  | integer => do
    let (result, beyond) ← here.readInteger?
    return (result.map some, beyond)
  | quoted => do
    let (result, beyond) ← here.readQuoted?
    return (result.map some, beyond)
  | name interior => do
    let (result, beyond) ← here.readName? interior
    return (result.map some, beyond)

def isLook : Use → Bool
  | peek _ => true
  | _ => false

/-- Shows the text exactly as it is taken. Quoted text is shown without its quotes and escapes. -/
def isCopy : Use → Bool
  | next | rest | integer | name _ => true
  | peek _ | quoted => false

end Use

structure Visit where
  use : Use
  here : Cursor
  reading : Reading (Option (List Char))

namespace Use

def visits : List Use → Cursor → List Visit
  | [], _ => []
  | use :: later, here => ⟨use, here, use.read here⟩ :: visits later (use.read here).cursor

def visitBytes? : List Use → ByteCursor → Option (List (ByteCursor.Outcome (Option (List Char))))
  | [], _ => some []
  | use :: later, here => do
    let outcome ← use.readBytes? here
    return outcome :: (← visitBytes? later outcome.2)

end Use

/-- What one use keeps of a cursor in the text, whatever comes of it. -/
structure Visit.Safe (text : List Char) (visit : Visit) : Prop where
  before : visit.here.position.Marks text
  behind : visit.reading.cursor.position.Marks text
  forward : visit.here.position.offset ≤ visit.reading.cursor.position.offset
  looked : visit.use.isLook = true → visit.reading.cursor = visit.here
  nameless : ∀ interior error, visit.use = .name interior →
    visit.reading.result = .error error → visit.reading.cursor = visit.here
  copied : ∀ taken, visit.use.isCopy = true → visit.reading.result = .ok (some taken) →
    pieceOf? text visit.here.position.offset visit.reading.cursor.position.offset = some taken
  shown : ∀ error, visit.reading.result = .error error →
    error.start.Marks text ∧ visit.here.position.offset ≤ error.start.offset ∧
      error.start.offset ≤ error.stop.offset ∧ error.stop = visit.reading.cursor.position

section Ends
variable {α : Type}

def Reading.EndsAtCursor (reading : Reading α) : Prop :=
  ∀ error, reading.result = .error error → error.stop = reading.cursor.position

theorem read_ends (value : α) (cursor : Cursor) : (Reading.read value cursor).EndsAtCursor := by
  intro error failed
  simp [Reading.read] at failed

theorem fail_ends (fault : Fault) (start : Position) (cursor : Cursor) :
    (Reading.fail fault start cursor : Reading α).EndsAtCursor := by
  intro error failed
  rw [← Except.error.inj failed]
  rfl

theorem map_ends {β : Type} {reading : Reading α} (ends : reading.EndsAtCursor) (f : α → β) :
    (reading.map f).EndsAtCursor := by
  intro error failed
  refine ends error ?_
  cases outcome : reading.result <;> simp_all [Reading.map, Except.map]

theorem readName_ends (interior : Char → Bool) (here : Cursor) :
    (readName interior here).EndsAtCursor := by
  unfold readName
  split
  · exact fail_ends _ _ _
  · split
    · exact read_ends _ _
    · exact fail_ends _ _ _

theorem readInteger_ends (here : Cursor) : (readInteger here).EndsAtCursor := by
  unfold readInteger
  simp only
  split
  · exact fail_ends _ _ _
  · exact read_ends _ _

theorem readEscaped_ends (opening : Position) (content : List Char) (here : Position)
    (text : List Char) : (readEscaped opening content here text).EndsAtCursor := by
  fun_induction readEscaped opening content here text with
  | case1 | case3 | case5 => exact fail_ends _ _ _
  | case2 => exact read_ends _ _
  | case4 _ _ _ _ _ _ ih => exact ih
  | case6 _ _ _ _ _ _ ih => exact ih

theorem readQuoted_ends (here : Cursor) : (readQuoted here).EndsAtCursor := by
  unfold readQuoted
  split
  · exact readEscaped_ends _ _ _ _
  · unfold readVerbatim
    simp only
    split
    · exact fail_ends _ _ _
    · exact read_ends _ _
  · exact fail_ends _ _ _

end Ends

namespace Use
variable {here : Cursor} {text : List Char}

theorem next_passes (here : Cursor) : ∃ passed, here.Passes passed here.next.2 ∧
    ∀ c, here.next.1 = some c → passed = [c] := by
  cases unread : here.rest with
  | nil => exact ⟨[], by simp [Cursor.next, unread, Cursor.Passes], by simp [Cursor.next, unread]⟩
  | cons c rest =>
    exact ⟨[c], Cursor.skip_passes unread, by simp [Cursor.next, unread]⟩

theorem read_passes (use : Use) (here : Cursor) :
    ∃ passed, here.Passes passed (use.read here).cursor ∧
      ∀ taken, use.isCopy = true → (use.read here).result = .ok (some taken) → passed = taken := by
  cases use with
  | peek ahead => exact ⟨[], here.passes_nothing, by simp [isCopy]⟩
  | next =>
    obtain ⟨passed, move, first⟩ := next_passes here
    refine ⟨passed, move, ?_⟩
    intro taken _ shown
    obtain ⟨c, next, rfl⟩ := Option.map_eq_some_iff.mp (Except.ok.inj shown)
    exact first c next
  | rest =>
    refine ⟨_, here.takeRest_passes, ?_⟩
    intro taken _ shown
    exact Option.some.inj (Except.ok.inj shown)
  | integer =>
    refine ⟨_, readInteger_passes here, ?_⟩
    intro taken _ shown
    cases outcome : (readInteger here).result with
    | error error => simp [read, Reading.map, outcome, Except.map] at shown
    | ok literal =>
      obtain ⟨rfl, _⟩ := readInteger_digits here literal outcome
      simpa [read, Reading.map, outcome, Except.map] using shown
  | quoted =>
    obtain ⟨passed, move, _⟩ := readQuoted_passes here
    exact ⟨passed, move, by simp [isCopy]⟩
  | name interior =>
    rcases readName_passes interior here with ⟨name, found, _, move⟩ | ⟨error, failed, still⟩
    · refine ⟨name, move, ?_⟩
      intro taken _ shown
      simpa [read, Reading.map, found, Except.map] using shown
    · refine ⟨[], ?_, ?_⟩
      · simp only [read, Reading.map, still]
        exact here.passes_nothing
      · intro taken _ shown
        simp [read, Reading.map, failed, Except.map] at shown

theorem map_error {α β : Type} {reading : Reading α} {f : α → β} {error : TagError}
    (failed : (reading.map f).result = .error error) : reading.result = .error error := by
  cases outcome : reading.result <;> simp_all [Reading.map, Except.map]

theorem read_shows {use : Use} {error : TagError} (failed : (use.read here).result = .error error) :
    here.Shows error := by
  cases use with
  | peek | next | rest => simp [read, Reading.read] at failed
  | integer => exact readInteger_shows (map_error failed)
  | quoted => exact readQuoted_shows (map_error failed)
  | name interior => exact readName_shows (map_error failed)

theorem read_ends_at_cursor (use : Use) (here : Cursor) : (use.read here).EndsAtCursor := by
  cases use with
  | peek | next | rest => exact read_ends _ _
  | integer => exact map_ends (readInteger_ends here) _
  | quoted => exact map_ends (readQuoted_ends here) _
  | name interior => exact map_ends (readName_ends interior here) _

theorem read_nameless {interior : Char → Bool} {error : TagError}
    (failed : ((name interior).read here).result = .error error) :
    ((name interior).read here).cursor = here := by
  have failed' := map_error failed
  rcases readName_passes interior here with ⟨name, found, _⟩ | ⟨_, _, still⟩
  · simp [found] at failed'
  · exact still

theorem read_bytes (use : Use) (on : here.On text) :
    use.readBytes? (here.bytes text) = some ((use.read here).bytes text) := by
  cases use with
  | peek ahead => simp [readBytes?, Cursor.bytes_peek? on, read, Reading.read, Reading.bytes]
  | next => simp [readBytes?, Cursor.bytes_next? on, read, Reading.read, Reading.bytes]
  | rest => simp [readBytes?, Cursor.bytes_takeRest? on, read, Reading.read, Reading.bytes]
  | integer =>
    simp only [readBytes?, readInteger_bytes on, read, Reading.map, Reading.bytes,
      Option.bind_eq_bind, Option.bind_some, Option.pure_def]
    cases (readInteger here).result <;> rfl
  | quoted =>
    simp only [readBytes?, readQuoted_bytes on]
    rfl
  | name interior =>
    simp only [readBytes?, readName_bytes interior on]
    rfl

theorem read_safe (use : Use) (on : here.On text) :
    Visit.Safe text ⟨use, here, use.read here⟩ := by
  obtain ⟨passed, move, copy⟩ := read_passes use here
  have onBeyond := on.passes move
  constructor
  case before => exact on.marks
  case behind => exact onBeyond.marks
  case forward =>
    show here.position.offset ≤ (use.read here).cursor.position.offset
    rw [Cursor.passes_offset move]
    exact Nat.le_add_right _ _
  case looked =>
    intro look
    cases use with
    | peek ahead => rfl
    | _ => exact absurd look Bool.false_ne_true
  case nameless =>
    rintro interior error rfl failed
    exact read_nameless failed
  case copied =>
    intro taken copies shown
    rw [← copy taken copies shown]
    exact Cursor.piece_passed on move
  case shown =>
    intro error failed
    obtain ⟨first, last, before, stretch, toFirst, toLast, start, stop⟩ := read_shows failed
    have ends := read_ends_at_cursor use here error failed
    rw [start, stop, Cursor.passes_offset toLast, Cursor.passes_offset toFirst]
    exact ⟨(on.passes toFirst).marks, Nat.le_add_right _ _, Nat.le_add_right _ _,
      stop.symm.trans ends⟩

theorem visits_forward (uses : List Use) (here : Cursor) :
    ∀ visit ∈ visits uses here, here.position.offset ≤ visit.here.position.offset := by
  induction uses generalizing here with
  | nil => simp [visits]
  | cons use later ih =>
    intro visit member
    rcases List.mem_cons.mp member with rfl | further
    · exact Nat.le_refl _
    · obtain ⟨passed, move, _⟩ := read_passes use here
      have beyond := Cursor.passes_offset move
      have := ih _ visit further
      omega

theorem visits_ordered (uses : List Use) (here : Cursor) :
    (visits uses here).Pairwise fun earlier later =>
      earlier.reading.cursor.position.offset ≤ later.here.position.offset := by
  induction uses generalizing here with
  | nil => exact .nil
  | cons use later ih => exact .cons (visits_forward later _) (ih _)

theorem visits_bytes (uses : List Use) (on : here.On text) :
    visitBytes? uses (here.bytes text) =
      some ((visits uses here).map fun visit => visit.reading.bytes text) := by
  induction uses generalizing here with
  | nil => rfl
  | cons use later ih =>
    obtain ⟨passed, move, _⟩ := read_passes use here
    have further := ih (on.passes move)
    simp only [visitBytes?, read_bytes use on, Option.bind_eq_bind, Option.bind_some]
    simp only [Reading.bytes, further, visits, List.map_cons, Option.bind_some, Option.pure_def]

theorem visits_safe (uses : List Use) (on : here.On text) :
    ∀ visit ∈ visits uses here, visit.Safe text := by
  induction uses generalizing here with
  | nil => simp [visits]
  | cons use later ih =>
    obtain ⟨passed, move, _⟩ := read_passes use here
    intro visit member
    rcases List.mem_cons.mp member with rfl | further
    · exact read_safe use on
    · exact ih (on.passes move) visit further

/-- However a cursor is used, no look by bytes leaves the text or splits a character, the cursor
    never goes back, and each use keeps what `Visit.Safe` lists. -/
theorem cursor_safe (text : List Char) (uses : List Use) :
    visitBytes? uses ⟨text, 0⟩ =
        some ((visits uses (.start text)).map fun visit => visit.reading.bytes text) ∧
      (visits uses (.start text)).Pairwise (fun earlier later =>
        earlier.reading.cursor.position.offset ≤ later.here.position.offset) ∧
      ∀ visit ∈ visits uses (.start text), visit.Safe text :=
  ⟨visits_bytes uses (Cursor.start_on text), visits_ordered uses _,
    visits_safe uses (Cursor.start_on text)⟩

theorem mixed_uses_safe :
    let text := "é-0xg\"ü\\n".toList
    let uses : List Use :=
      [.next, .integer, .name isNameInterior, .name isTagNameInterior, .quoted]
    let here : Cursor := ⟨⟨5, 6⟩, "\"ü\\n".toList⟩
    let visit : Visit := ⟨.quoted, here, Use.quoted.read here⟩
    visit ∈ visits uses (.start text) ∧ visit.Safe text ∧
      visit.reading.result = .error ⟨.badEscape 'n', ⟨8, 10⟩, ⟨9, 11⟩⟩ := by
  intro text uses here visit
  have member : visit ∈ visits uses (.start text) := by
    refine List.mem_of_getElem? (i := 4) ?_
    rfl
  exact ⟨member, (cursor_safe text uses).2.2 visit member, rfl⟩

end Use
end CommentTags
