import CommentTags.Proofs.Tag.Calls
import CommentTags.Proofs.Tag.Refusals
import CommentTags.Proofs.Tag.Starts
import CommentTags.Proofs.Tag.WellFormed
import CommentTags.Proofs.Token.Literal

/- What is pending of an argument is told by the stage. So the default for a missing value is never
   used, the one for a missing name only where no name was read, and no scalar that was read as part
   of an argument is lost. For the same reason the checks that a reader repeats after its caller
   never fail. -/
namespace CommentTags

/-- The faults that a reader would show only if its caller had not looked first. -/
def Fault.isInternal : Fault → Bool
  | noName _ | noQuote | noInput | unexpected _ .afterEnd => true
  | _ => false

theorem Fault.OfInteger.external {fault : Fault} (cause : fault.OfInteger) :
    fault.isInternal = false := by
  rcases cause with rfl | ⟨_, rfl⟩ | ⟨_, rfl⟩ | ⟨_, rfl⟩ <;> rfl

theorem Fault.OfQuoted.external {fault : Fault} (cause : fault.OfQuoted) :
    fault.isInternal = false := by
  rcases cause with rfl | rfl | ⟨_, rfl⟩ <;> rfl

def Argument.scalars (argument : Argument) : List Scalar :=
  (if argument.isPositional then [] else [.ofName argument.name.toList]) ++ [argument.value]

namespace Config

def scalars (s : Config) : List Scalar :=
  s.head.arguments.flatMap Argument.scalars ++
    (s.pendingName.map fun name => Scalar.ofName name.toList).toList ++
    (s.pendingValue.map Token.value).toList

def taken (s : Config) : List Scalar :=
  if s.stage.awaitsArgument then
    match readToken .argumentList s.cursor with
    | .ok (token, _) => [token.value]
    | .error _ => []
  else []

/-- A pending name is never empty, so no argument with a name becomes a positional one. A call
    that has ended left nothing to read, and one that goes for the name of its tag stands at it. -/
structure Orderly (s : Config) : Prop where
  pended : s.Pended
  filled : ∀ name, s.pendingName = some name → name ≠ ""
  unread : s.stage = .ended → s.cursor.rest = []
  named : s.stage = .tagName → ∃ c rest, s.cursor.rest = c :: rest ∧ isNameStart c = true

theorem orderly_start (outer : List Head) (cursor : Cursor) : Orderly (start outer cursor) where
  pended := ⟨rfl, rfl⟩
  filled := by simp [start]
  unread := by simp [start]
  named := by simp [start]

section Steps
variable {options : Options} {s after : Config} {c : Char} {rest : List Char}

theorem filled_move (orderly : s.Orderly) (move : Move options s c after) :
    ∀ name, after.pendingName = some name → name ≠ "" := by
  have pended := pended_move orderly.pended move
  cases move with
  | comma stage | close stage =>
    obtain ⟨spelling, -, held⟩ := orderly.pended.held stage
    rw [addArgument_pending s held]
    simp [skipTo]
  | colon =>
    obtain ⟨⟨text, valid, same⟩, -⟩ := pended
    intro name pending
    rw [← Option.some.inj (same.symm.trans pending)]
    exact ofList_not_empty (isName_not_nil valid)
  | link => exact (orderly_start _ _).filled
  | _ => exact orderly.filled

theorem unread_move (move : Move options s c after) (ended : after.stage = .ended) :
    after.cursor.rest = [] := by
  cases move with
  | raw | remark => rfl
  | blank skips =>
    have stage : s.stage = .ended := ended
    simp [stage, Stage.skipsBlanks] at skips
  | _ => cases ended

theorem named_move (front : s.cursor.rest = c :: rest) (move : Move options s c after)
    (stage : after.stage = .tagName) :
    ∃ c rest, after.cursor.rest = c :: rest ∧ isNameStart c = true := by
  cases move with
  | enter _ first => exact ⟨c, rest, front, first⟩
  | blank skips =>
    have stage : s.stage = .tagName := stage
    simp [stage, Stage.skipsBlanks] at skips
  | _ => cases stage

theorem orderly_move (front : s.cursor.rest = c :: rest) (orderly : s.Orderly)
    (move : Move options s c after) : after.Orderly where
  pended := pended_move orderly.pended move
  filled := filled_move orderly move
  unread := unread_move move
  named := named_move front move

theorem taken_elsewhere (elsewhere : s.stage.awaitsArgument = false) : s.taken = [] := by
  simp [taken, elsewhere]

theorem taken_nothing (front : s.cursor.rest = c :: rest) (other : startsScalar c = false) :
    s.taken = [] := by
  unfold taken
  split
  · split
    · rename_i token beyond read
      obtain ⟨spelling, valid, passes, -⟩ := readToken_sound read
      obtain ⟨first, tail, text, starts⟩ := scalar_starts valid
      obtain ⟨rfl, -⟩ : c = first ∧ rest = tail ++ beyond.rest := by
        simpa [front, text] using passes.1
      simp [starts] at other
    · rfl
  · rfl

theorem addArgument_scalars (orderly : s.Orderly) (stage : s.stage = .afterArgument) :
    s.addArgument.scalars = s.scalars := by
  obtain ⟨spelling, -, held⟩ := orderly.pended.held stage
  rw [addArgument_pending s held]
  cases pending : s.pendingName with
  | none => simp [scalars, pending, held, Argument.scalars, Argument.isPositional]
  | some name =>
    have filled := orderly.filled name pending
    simp [scalars, pending, held, Argument.scalars, Argument.isPositional, filled]

theorem scalars_move (front : s.cursor.rest = c :: rest) (orderly : s.Orderly)
    (move : Move options s c after) (same : after.outer = s.outer) :
    after.scalars = s.scalars ++ s.taken := by
  cases move with
  | blank _ white =>
    have other : startsScalar c = false := by
      cases starts : startsScalar c with
      | false => rfl
      | true => simp [starts_scalar_not_white starts] at white
    rw [taken_nothing front other, List.append_nil]
    rfl
  | closeEmpty stage close =>
    rw [taken_nothing front (by subst close; decide +kernel), List.append_nil]
    rfl
  | scalar awaits read =>
    have early : s.stage ≠ .afterArgument := fun stage => by
      simp [stage, Stage.awaitsArgument] at awaits
    simp [scalars, taken, awaits, read, orderly.pended.valueless early]
  | comma stage | close stage =>
    rw [taken_elsewhere (by rw [stage]; rfl), List.append_nil, ← addArgument_scalars orderly stage]
    rfl
  | colon stage _ unnamed bare =>
    rw [taken_elsewhere (by rw [stage]; rfl), List.append_nil]
    obtain ⟨spelling, -, held⟩ := orderly.pended.held stage
    rw [held] at bare
    cases spelling with
    | bare text =>
      obtain rfl := Option.some.inj bare
      simp [scalars, skipTo, unnamed, held, ScalarSpelling.token, ScalarSpelling.scalar,
        ScalarSpelling.ofName_eq_bareScalar]
    | integer | quoted | verbatim => simp [ScalarSpelling.token, ScalarSpelling.bareName?] at bare
  | link => simp [start] at same
  | equals stage | white stage =>
    have elsewhere : s.stage.awaitsArgument = false := by
      rcases stage with stage | stage <;> rw [stage] <;> rfl
    rw [taken_elsewhere elsewhere, List.append_nil]
    rfl
  | enter stage | name stage | opening stage | raw stage | payload stage | slash stage
  | comment stage | remark stage =>
    rw [taken_elsewhere (by rw [stage]; rfl), List.append_nil]
    rfl

end Steps

section Faults
variable {options : Options} {s : Config} {c : Char} {rest : List Char} {error : TagError}

theorem readToken_external {place : Place} {here : Cursor} (front : here.rest = c :: rest)
    (inside : place ≠ .afterEnd) (failed : readToken place here = .error error) :
    error.fault.isInternal = false := by
  rcases readToken_fault_cases failed with ⟨nothing, -⟩ | cause | cause | ⟨found, cause⟩
  · simp [front] at nothing
  · exact cause.external
  · exact cause.external
  · rw [cause]
    cases place with
    | afterEnd => contradiction
    | _ => rfl

theorem step_external (front : s.cursor.rest = c :: rest) (orderly : s.Orderly)
    (failed : step options s c = .error error) : error.fault.isInternal = false := by
  cases refusal_of_step failed with
  | misplaced refuses =>
    cases stage : s.stage with
    | ended => simp [orderly.unread stage] at front
    | _ =>
      rw [stage] at refuses
      cases refuses <;> rfl
  | name stage failed =>
    obtain ⟨first, tail, unread, starts⟩ := orderly.named stage
    simp [readName, unread, starts, Reading.read] at failed
  | scalar reads failed =>
    refine readToken_external front ?_ failed
    rintro rfl
    cases stage : s.stage <;> simp [stage, Stage.readsAt] at reads
  | _ => rfl

theorem finish_external (failed : s.finish = .error error) : error.fault.isInternal = false := by
  unfold finish at failed
  split at failed <;> cases failed <;> rfl

theorem run_external (orderly : s.Orderly) (failed : (run options s).2 = .error error) :
    error.fault.isInternal = false := by
  fun_induction run options s with
  | case1 => exact finish_external failed
  | case2 s c rest front wrong stepped =>
    rw [← Except.error.inj failed]
    exact step_external front orderly stepped
  | case3 s c rest front after stepped ih =>
    exact ih (orderly_move front orderly (move_of_step stepped)) failed

end Faults
end Config

namespace Call

/-- What the call for `text` comes to, inner calls included, with the scalars that each call has
    read into the arguments of its own tag. -/
inductive Reached (options : Options) (text : List Char) : Call → List Scalar → Prop
  | start : Reached options text (.start text) []
  | next {call after : Call} {read : List Scalar} {c : Char} {rest : List Char} {fuel count : Nat}
      (reached : Reached options text call read) (front : call.config.cursor.rest = c :: rest)
      (iterated : iterate options (run options fuel) call c = some ⟨.ok after, count⟩) :
      Reached options text after (read ++ call.config.taken)
  | inside {call : Call} {inner : Config} {read : List Scalar} {c : Char} {rest : List Char}
      (reached : Reached options text call read) (front : call.config.cursor.rest = c :: rest)
      (stepped : Config.step options call.config c = .ok inner)
      (set : inner.outer ≠ call.config.outer) : Reached options text ⟨inner, none⟩ []

section Iterations
variable {options : Options} {call after : Call} {c : Char} {rest text : List Char}
  {enter : Call → Option (Counted (Tag × Cursor))} {count : Nat} {read : List Scalar}

theorem orderly_afterLink {next : Tag} {beyond : Cursor} (orderly : call.config.Orderly)
    (stage : call.config.stage = .value) (nothing : beyond.rest = []) :
    (call.afterLink next beyond).config.Orderly where
  pended := orderly.pended.nothing (by simp [stage]) (by simp [stage])
  filled := orderly.filled
  unread _ := nothing
  named stage := by cases stage

theorem iterate_orderly (exhausts : Exhausts enter) (front : call.config.cursor.rest = c :: rest)
    (orderly : call.config.Orderly)
    (iterated : iterate options enter call c = some ⟨.ok after, count⟩) :
    after.config.Orderly := by
  rcases iterate_cases iterated with ⟨middle, stepped, -, rfl⟩ |
    ⟨inside, next, beyond, inner, stage, -, -, entered, rfl⟩
  · exact Config.orderly_move front orderly (Config.move_of_step stepped)
  · obtain ⟨nothing, -⟩ := exhausts _ next beyond inner entered
    exact orderly_afterLink orderly stage nothing

theorem iterate_scalars (front : call.config.cursor.rest = c :: rest)
    (orderly : call.config.Orderly)
    (iterated : iterate options enter call c = some ⟨.ok after, count⟩) :
    after.config.scalars = call.config.scalars ++ call.config.taken := by
  rcases iterate_cases iterated with ⟨middle, stepped, same, rfl⟩ |
    ⟨inside, next, beyond, inner, stage, -, -, -, rfl⟩
  · exact Config.scalars_move front orderly (Config.move_of_step stepped) same
  · rw [Config.taken_elsewhere (by rw [stage]; rfl), List.append_nil]
    rfl

theorem reached_orderly (reached : Reached options text call read) : call.config.Orderly := by
  induction reached with
  | start => exact Config.orderly_start [] _
  | next _ front iterated orderly =>
    exact iterate_orderly (run_exhausts options _) front orderly iterated
  | inside _ front stepped _ orderly =>
    exact Config.orderly_move front orderly (Config.move_of_step stepped)

theorem reached_scalars (reached : Reached options text call read) :
    call.config.scalars = read := by
  induction reached with
  | start => rfl
  | next reached front iterated same =>
    rw [iterate_scalars front (reached_orderly reached) iterated, same]
  | inside _ _ stepped set =>
    obtain ⟨-, rfl⟩ := (Config.move_outer (Config.move_of_step stepped)).resolve_left set
    rfl

theorem tag_head (call : Call) : call.tag.head = call.config.head := by
  unfold tag
  split <;> rfl

theorem finish_scalars {tag : Tag} (orderly : call.config.Orderly)
    (finished : call.finish = .ok tag) :
    tag.head.arguments.flatMap Argument.scalars = call.config.scalars := by
  unfold finish at finished
  cases ended : call.config.finish with
  | error error => simp [ended, Except.map] at finished
  | ok whole =>
    obtain rfl : call.tag = tag := by simpa [ended, Except.map] using finished
    obtain ⟨unnamed, valueless⟩ := orderly.pended.nothing
      (fun stage => by simp [Config.finish, stage] at ended)
      (fun stage => by simp [Config.finish, stage] at ended)
    rw [tag_head, Config.scalars, unnamed, valueless]
    simp

end Iterations
end Call

namespace Tag

/-- Whatever a text and its links have come to, what is pending fits the stage. So there is always
    exactly one argument to add, and the scalars in the arguments, with those pending, are the ones
    that were read. No call goes on behind its end or stops before the name of its tag, and no check
    that a reader repeats ever fails. -/
theorem parse_bookkeeping (options : Options) (text : String) :
    (∀ call read, Call.Reached options (trimEnd text.toList) call read →
      call.config.Orderly ∧ call.config.scalars = read ∧
      (call.config.stage = .afterArgument → ∃ token, call.config.pendingValue = some token ∧
        call.config.addArgument = { call.config with
          head := ⟨call.config.head.name, call.config.head.arguments ++
            [⟨call.config.pendingName.getD "", token.value⟩]⟩
          pendingName := none
          pendingValue := none }) ∧
      ∀ tag, call.finish = .ok tag → tag.head.arguments.flatMap Argument.scalars = read) ∧
    ∀ error, parse options text = .error error → error.fault.isInternal = false := by
  constructor
  · intro call read reached
    have orderly := Call.reached_orderly reached
    have same := Call.reached_scalars reached
    refine ⟨orderly, same, fun stage => ?_, fun tag finished => ?_⟩
    · obtain ⟨spelling, -, held⟩ := orderly.pended.held stage
      exact ⟨spelling.token, held, Config.addArgument_pending _ held⟩
    · exact (Call.finish_scalars orderly finished).trans same
  · intro error failed
    exact Config.run_external (Config.orderly_start [] _) failed

theorem named_argument_pending :
    let text := "é(b:1"
    let one := Scalar.int "1" 1
    let inList (position : Position) (rest : List Char) (stage : Stage) (name : Option String)
        (value : Option Token) : Call :=
      ⟨⟨⟨position, rest⟩, stage, [], ⟨"é", []⟩, .none, ⟨1, 2⟩, name, value⟩, none⟩
    let last := inList ⟨5, 6⟩ [] .afterArgument (some "b") (some ⟨one, none⟩)
    Call.Reached {} (trimEnd text.toList) last [.string "b", one] ∧
      (∃ token, last.config.pendingValue = some token ∧
        last.config.addArgument.head.arguments = [⟨"b", token.value⟩]) ∧
      parse {} text = .error ⟨.openArguments, ⟨1, 2⟩, ⟨5, 6⟩⟩ ∧
      Fault.openArguments.isInternal = false := by
  intro text one inList last
  let started := Call.start ['é', '(', 'b', ':', '1']
  let entered : Call := { started with config := { started.config with stage := .tagName } }
  let named : Call := { started with config := { started.config with
    cursor := ⟨⟨1, 2⟩, ['(', 'b', ':', '1']⟩
    stage := .afterName
    head := ⟨"é", []⟩ } }
  let opened := inList ⟨2, 3⟩ ['b', ':', '1'] .firstArgument none none
  let label := inList ⟨3, 4⟩ [':', '1'] .afterArgument none (some ⟨.string "b", some "b"⟩)
  let colon := inList ⟨4, 5⟩ ['1'] .argumentValue (some "b") none
  have steps :
      Call.iterate {} (Call.run {} 0) started 'é' = some ⟨.ok entered, 1⟩ ∧
      Call.iterate {} (Call.run {} 0) entered 'é' = some ⟨.ok named, 1⟩ ∧
      Call.iterate {} (Call.run {} 0) named '(' = some ⟨.ok opened, 1⟩ ∧
      Call.iterate {} (Call.run {} 0) opened 'b' = some ⟨.ok label, 1⟩ ∧
      Call.iterate {} (Call.run {} 0) label ':' = some ⟨.ok colon, 1⟩ ∧
      Call.iterate {} (Call.run {} 0) colon '1' = some ⟨.ok last, 1⟩ := by
    decide +kernel
  obtain ⟨enter, name, opening, read, turn, value⟩ := steps
  have reached := (((((Call.Reached.start.next rfl enter).next rfl name).next rfl opening).next
    rfl read).next rfl turn).next rfl value
  have reads : [] ++ started.config.taken ++ entered.config.taken ++ named.config.taken ++
      opened.config.taken ++ label.config.taken ++ colon.config.taken = [.string "b", one] := by
    decide +kernel
  have trimmed : trimEnd text.toList = ['é', '(', 'b', ':', '1'] := by decide +kernel
  rw [reads, ← trimmed] at reached
  have failed : parse {} text = .error ⟨.openArguments, ⟨1, 2⟩, ⟨5, 6⟩⟩ := by decide +kernel
  obtain ⟨reachable, external⟩ := parse_bookkeeping {} text
  obtain ⟨-, -, pushed, -⟩ := reachable last _ reached
  obtain ⟨token, held, added⟩ := pushed rfl
  exact ⟨reached, ⟨token, held, by rw [added]; rfl⟩, failed, external _ failed⟩

end Tag
end CommentTags
