import CommentTags.Proofs.Tag.Moves
import CommentTags.Proofs.Tag.Starts

/- A run over written arguments passes all of them, with the blanks around them, and adds what they
   stand for. The configuration behind each part is given in full. -/
namespace CommentTags
open Unicode
namespace Config

/-- The configuration moved over `passed`, with `rest` left to read. -/
def moved (s : Config) (passed rest : List Char) (stage : Stage) : Config :=
  { s with cursor := s.cursor.move passed rest, stage := stage }

/-- The configuration with other pending parts of an argument. -/
def pend (s : Config) (name : Option String) (value : Option Token) : Config :=
  { s with pendingName := name, pendingValue := value }

def add (s : Config) (arguments : List Argument) : Config :=
  { s with head := ⟨s.head.name, s.head.arguments ++ arguments⟩ }

@[simp] theorem moved_stage (s : Config) (passed rest : List Char) (stage : Stage) :
    (s.moved passed rest stage).stage = stage := rfl

@[simp] theorem pend_stage (s : Config) (name : Option String) (value : Option Token) :
    (s.pend name value).stage = s.stage := rfl

theorem pend_moved (s : Config) (name : Option String) (value : Option Token)
    (passed rest : List Char) (stage : Stage) :
    (s.pend name value).moved passed rest stage = (s.moved passed rest stage).pend name value := rfl

theorem pend_pend (s : Config) (name name' : Option String) (value value' : Option Token) :
    (s.pend name value).pend name' value' = s.pend name' value' := rfl

theorem add_moved (s : Config) (arguments : List Argument) (passed rest : List Char)
    (stage : Stage) :
    (s.moved passed rest stage).add arguments = (s.add arguments).moved passed rest stage := rfl

theorem add_add (s : Config) (first second : List Argument) :
    (s.add first).add second = s.add (first ++ second) := by
  simp only [add, List.append_assoc]

theorem skipTo_eq_moved {s : Config} {c : Char} {rest : List Char}
    (front : s.cursor.rest = c :: rest) (stage : Stage) :
    s.skipTo stage = s.moved [c] rest stage := by
  rw [skipTo, moved, Cursor.skip_eq_move front]

theorem moved_moved (s : Config) (first second middle rest : List Char) (stage stage' : Stage) :
    (s.moved first middle stage).moved second rest stage' =
      s.moved (first ++ second) rest stage' := by
  simp only [moved, Cursor.move_move]

theorem moved_nothing {s : Config} {rest : List Char} (unread : s.cursor.rest = rest) :
    s.moved [] rest s.stage = s := by
  simp only [moved, Cursor.move_nothing unread]

theorem run_of_step {options : Options} {s after : Config} {c : Char} {rest : List Char}
    (front : s.cursor.rest = c :: rest) (stepped : step options s c = .ok after) :
    run options s = run options after := by
  rw [run_step options front, stepped]

theorem step_blank {options : Options} {s : Config} {c : Char} (skips : s.stage.skipsBlanks = true)
    (white : isWhiteSpace c = true) : step options s c = .ok (s.skipTo s.stage) := by
  unfold step
  cases stage : s.stage <;> simp_all [Stage.skipsBlanks, readArgument, endArgument]

theorem run_blanks {options : Options} {s : Config} {blanks rest : List Char} (blank : Blank blanks)
    (skips : s.stage.skipsBlanks = true) (unread : s.cursor.rest = blanks ++ rest) :
    run options s = run options (s.moved blanks rest s.stage) := by
  induction blanks generalizing s with
  | nil =>
    rw [List.nil_append] at unread
    rw [moved_nothing unread]
  | cons b blanks ih =>
    have front : s.cursor.rest = b :: (blanks ++ rest) := unread
    have blank' : Blank blanks := fun c member => blank c (by simp [member])
    rw [run_of_step front (step_blank skips (blank b (by simp))), skipTo_eq_moved front,
      ih (s := s.moved [b] (blanks ++ rest) s.stage) blank' skips rfl, moved_moved]
    rfl

theorem run_pended_blanks {options : Options} {s : Config} {blanks rest : List Char}
    (name : Option String) (value : Option Token) (blank : Blank blanks)
    (skips : s.stage.skipsBlanks = true) (unread : s.cursor.rest = blanks ++ rest) :
    run options (s.pend name value) = run options ((s.moved blanks rest s.stage).pend name value) :=
  run_blanks (s := s.pend name value) blank skips unread

theorem run_name {options : Options} {s : Config} {name rest : List Char}
    (stage : s.stage = .start) (valid : IsName isTagNameInterior name)
    (stops : Stops isTagNameInterior rest) (unread : s.cursor.rest = name ++ rest) :
    run options s = run options
      { s.moved name rest .afterName with head := ⟨String.ofList name, s.head.arguments⟩ } := by
  have read : readName isTagNameInterior s.cursor = .read name (s.cursor.move name rest) :=
    readName_complete valid stops unread
  cases name with
  | nil => exact valid.elim
  | cons c tail =>
    have front : s.cursor.rest = c :: (tail ++ rest) := unread
    have entered : step options s c = .ok { s with stage := .tagName } := by
      simp [step, stage, name_start_not_white valid.1, valid.1]
    rw [run_of_step front entered]
    refine run_of_step (s := { s with stage := .tagName }) front ?_
    simp only [step, read, Reading.read, moved]

theorem step_awaiting {options : Options} {s : Config} {c : Char}
    (awaits : s.stage.awaitsArgument = true) : step options s c = s.readArgument c := by
  unfold step
  cases stage : s.stage <;> simp_all [Stage.awaitsArgument]

theorem run_scalar {options : Options} {s : Config} {spelling : ScalarSpelling} {rest : List Char}
    (awaits : s.stage.awaitsArgument = true) (valid : spelling.Valid)
    (stops : Stops isNameInterior rest) (unread : s.cursor.rest = spelling.text ++ rest) :
    run options s = run options
      ((s.moved spelling.text rest .afterArgument).pend s.pendingName (some spelling.token)) := by
  have read : readToken .argumentList s.cursor =
      .ok (spelling.token, s.cursor.move spelling.text rest) :=
    readToken_complete .argumentList valid stops unread
  obtain ⟨c, tail, text, starts⟩ := scalar_starts valid
  have front : s.cursor.rest = c :: (tail ++ rest) := by rw [unread, text, List.cons_append]
  have inside : c ≠ ')' := by
    rintro rfl
    exact absurd starts (by decide)
  apply run_of_step front
  simp [step_awaiting awaits, readArgument, starts_scalar_not_white starts, inside, read, moved,
    pend]

theorem run_colon {options : Options} {s : Config} {name : String} {token : Token}
    {rest : List Char} (stage : s.stage = .afterArgument) (unnamed : s.pendingName = none)
    (held : s.pendingValue = some token) (bare : token.bare = some name)
    (unread : s.cursor.rest = ':' :: rest) :
    run options s = run options ((s.moved [':'] rest .argumentValue).pend (some name) none) := by
  have dark : isWhiteSpace ':' = false := by decide
  apply run_of_step unread
  simp [step, stage, endArgument, dark, unnamed, held, bare, skipTo_eq_moved unread, moved, pend]

theorem run_argument {options : Options} {s : Config} {argument : ArgumentSpelling}
    {rest : List Char} (awaits : s.stage.awaitsArgument = true) (unnamed : s.pendingName = none)
    (valid : argument.Valid) (stops : Stops isNameInterior rest)
    (unread : s.cursor.rest = argument.text ++ rest) :
    run options s = run options ((s.moved argument.text rest .afterArgument).pend argument.name?
      (some argument.value.token)) := by
  cases argument with
  | positional value =>
    rw [run_scalar awaits valid stops unread, unnamed]
    rfl
  | named name before behind value =>
    obtain ⟨nameValid, blankBefore, blankBehind, valueValid⟩ := valid
    let last := value.text ++ rest
    let colon := ':' :: (behind ++ last)
    have unread' : s.cursor.rest = name ++ (before ++ colon) := by
      simpa [ArgumentSpelling.text, last, colon] using unread
    have stops' : Stops isNameInterior (before ++ colon) := colon_ends_name blankBefore _
    have bareValid : (ScalarSpelling.bare name).Valid := nameValid
    let token := (ScalarSpelling.bare name).token
    calc run options s
        = run options ((s.moved name (before ++ colon) .afterArgument).pend none (some token)) := by
          rw [← unnamed]
          exact run_scalar awaits bareValid stops' unread'
      _ = run options ((s.moved (name ++ before) colon .afterArgument).pend none (some token)) := by
          rw [run_pended_blanks _ _ blankBefore rfl rfl, moved_moved, moved_stage]
      _ = run options ((s.moved (name ++ before ++ [':']) (behind ++ last) .argumentValue).pend
            (some (String.ofList name)) none) := by
          rw [run_colon rfl rfl rfl rfl rfl, pend_moved, pend_pend, moved_moved]
      _ = run options ((s.moved (name ++ before ++ [':'] ++ behind) last .argumentValue).pend
            (some (String.ofList name)) none) := by
          rw [run_pended_blanks _ _ blankBehind rfl rfl, moved_moved, moved_stage]
      _ = _ := by
          rw [run_scalar rfl valueValid stops rfl, pend_moved, pend_pend, moved_moved]
          simp [ArgumentSpelling.text, ArgumentSpelling.name?, ArgumentSpelling.value, pend]

section Slots
variable {options : Options} {s : Config} {argument : ArgumentSpelling} {rest : List Char}

theorem addArgument_pend (s : Config) (argument : ArgumentSpelling) :
    (s.pend argument.name? (some argument.value.token)).addArgument =
      (s.add [argument.argument]).pend none none := rfl

theorem run_comma (stage : s.stage = .afterArgument) (unread : s.cursor.rest = ',' :: rest) :
    run options (s.pend argument.name? (some argument.value.token)) =
      run options
        (((s.add [argument.argument]).moved [','] rest .nextArgument).pend none none) := by
  have dark : isWhiteSpace ',' = false := by decide
  let held := s.pend argument.name? (some argument.value.token)
  have front : held.cursor.rest = ',' :: rest := unread
  have front' : held.addArgument.cursor.rest = ',' :: rest := unread
  refine run_of_step front ?_
  have stepped : step options held ',' = .ok (held.addArgument.skipTo .nextArgument) := by
    simp [step, held, stage, endArgument, dark]
  rw [stepped, skipTo_eq_moved front', addArgument_pend, pend_moved]

theorem run_close (stage : s.stage = .afterArgument) (unread : s.cursor.rest = ')' :: rest)
    (consistent : Consistent (s.head.arguments ++ [argument.argument])) :
    run options (s.pend argument.name? (some argument.value.token)) =
      run options
        (((s.add [argument.argument]).moved [')'] rest .afterArguments).pend none none) := by
  have dark : isWhiteSpace ')' = false := by decide
  let held := s.pend argument.name? (some argument.value.token)
  have front : held.cursor.rest = ')' :: rest := unread
  have front' : held.addArgument.cursor.rest = ')' :: rest := unread
  refine run_of_step front ?_
  have stepped : step options held ')' = held.addArgument.closeArguments := by
    simp [step, held, stage, endArgument, dark]
  rw [stepped, closeArguments_eq_ok_iff]
  refine ⟨consistent, ?_⟩
  rw [skipTo_eq_moved front', addArgument_pend, pend_moved]

theorem run_slots (later : List Slot) {behind : List Char} (stage : s.stage = .afterArgument)
    (blank : Blank behind) (valid : ∀ slot ∈ later, slot.Valid)
    (consistent : Consistent (s.head.arguments ++
      argument.argument :: later.map fun slot => slot.argument.argument))
    (unread : s.cursor.rest = behind ++ (Slot.laterText later ++ rest)) :
    run options (s.pend argument.name? (some argument.value.token)) =
      run options
        (((s.add (argument.argument :: later.map fun slot => slot.argument.argument)).moved
        (behind ++ Slot.laterText later) rest .afterArguments).pend none none) := by
  have skips : s.stage.skipsBlanks = true := by rw [stage]; rfl
  induction later generalizing s argument behind with
  | nil =>
    calc run options (s.pend argument.name? (some argument.value.token))
        = run options ((s.moved behind (')' :: rest) .afterArgument).pend argument.name?
            (some argument.value.token)) := by
          rw [run_pended_blanks _ _ blank skips unread, stage]
          rfl
      _ = _ := by
          rw [run_close (s := s.moved behind (')' :: rest) .afterArgument) rfl rfl consistent,
            add_moved, moved_moved]
          rfl
  | cons slot later ih =>
    obtain ⟨blankBefore, argumentValid, blankBehind⟩ := valid slot (by simp)
    have valid' : ∀ other ∈ later, other.Valid := fun other member => valid other (by simp [member])
    let back := slot.behind ++ (Slot.laterText later ++ rest)
    let front := slot.argument.text ++ back
    have stops : Stops isNameInterior back :=
      separator_ends_name blankBehind (later_text_separated later rest)
    have unread' : s.cursor.rest = behind ++ (',' :: (slot.before ++ front)) := by
      simp [unread, Slot.laterText, Slot.text, front, back]
    let added := s.add [argument.argument]
    calc run options (s.pend argument.name? (some argument.value.token))
        = run options ((s.moved behind (',' :: (slot.before ++ front)) .afterArgument).pend
            argument.name? (some argument.value.token)) := by
          rw [run_pended_blanks _ _ blank skips unread', stage]
      _ = run options ((added.moved (behind ++ [',']) (slot.before ++ front) .nextArgument).pend
            none none) := by
          rw [run_comma (s := s.moved behind _ .afterArgument) rfl rfl, add_moved, moved_moved]
      _ = run options ((added.moved (behind ++ [','] ++ slot.before) front .nextArgument).pend
            none none) := by
          rw [run_pended_blanks _ _ blankBefore rfl rfl, moved_moved, moved_stage]
      _ = run options ((added.moved (behind ++ [','] ++ slot.before ++ slot.argument.text) back
            .afterArgument).pend slot.argument.name? (some slot.argument.value.token)) := by
          rw [run_argument rfl rfl argumentValid stops rfl, pend_moved, pend_pend, moved_moved]
      _ = _ := by
          have consistent' : Consistent (added.head.arguments ++
              slot.argument.argument :: later.map fun slot => slot.argument.argument) := by
            simpa [added, add] using consistent
          rw [ih (s := added.moved _ back .afterArgument) rfl blankBehind valid' consistent' rfl
            rfl, add_moved, moved_moved, add_add]
          simp [Slot.laterText, Slot.text]

end Slots

end Config
end CommentTags
