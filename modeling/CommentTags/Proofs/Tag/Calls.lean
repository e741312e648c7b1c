import CommentTags.Proofs.Tag.Bookkeeping

/- Reading with a call of its own for every linked tag. Each call runs its loop on what is left of
   the text, and the loop that opened a link goes on where the call for it stopped. No call comes
   back before the end of the text, so the result is that of the run that sets heads aside. -/
namespace CommentTags

/-- What one call holds. The heads set aside are those of the calls around it, and `linked` is the
    tag of its link once that was read. -/
structure Call where
  config : Config
  linked : Option Tag
deriving DecidableEq

structure Counted (α : Type) where
  result : Except TagError α
  iterations : Nat
deriving DecidableEq

namespace Call

def start (text : List Char) : Call := ⟨.start [] (.start text), none⟩

def tag (call : Call) : Tag :=
  match call.linked with
  | none => .single call.config.head call.config.payload
  | some next => .link call.config.head next

def finish (call : Call) : Except TagError Tag := call.config.finish.map fun _ => call.tag

def afterLink (call : Call) (next : Tag) (beyond : Cursor) : Call :=
  ⟨{ call.config with cursor := beyond, stage := .ended }, some next⟩

/-- One iteration on the character at the cursor. A step that sets the head aside opens a link, and
    `enter` makes the call for it, which gives back nothing if it runs out of fuel. -/
def iterate (options : Options) (enter : Call → Option (Counted (Tag × Cursor))) (call : Call)
    (c : Char) : Option (Counted Call) :=
  match Config.step options call.config c with
  | .error error => some ⟨.error error, 1⟩
  | .ok after =>
    if after.outer = call.config.outer then some ⟨.ok ⟨after, call.linked⟩, 1⟩
    else (enter ⟨after, none⟩).map fun inner =>
      ⟨inner.result.map fun (next, beyond) => call.afterLink next beyond, inner.iterations + 1⟩

def run (options : Options) : Nat → Call → Option (Counted (Tag × Cursor))
  | fuel, call =>
    match call.config.cursor.rest, fuel with
    | [], _ => some ⟨call.finish.map fun tag => (tag, call.config.cursor), 0⟩
    | _ :: _, 0 => none
    | c :: _, fuel + 1 =>
      match iterate options (run options fuel) call c with
      | none => none
      | some ⟨.error error, count⟩ => some ⟨.error error, count⟩
      | some ⟨.ok after, count⟩ =>
        (run options fuel after).map fun further => ⟨further.result, count + further.iterations⟩

end Call

namespace Config
variable {options : Options} {s after : Config} {c : Char}

theorem move_outer (move : Move options s c after) :
    after.outer = s.outer ∨
      s.stage = .value ∧ after = .start (s.head :: s.outer) s.cursor.skip := by
  cases move with
  | link stage => exact .inr ⟨stage, rfl⟩
  | comma | close => exact .inl (addArgument_outer s)
  | _ => exact .inl rfl

theorem two_le_measure {rest : List Char} (front : s.cursor.rest = c :: rest) : 2 ≤ s.measure := by
  unfold measure
  rw [front, List.length_cons]
  omega

end Config

namespace Call
variable {options : Options} {enter : Call → Option (Counted (Tag × Cursor))} {call after : Call}
  {c : Char} {rest : List Char} {fuel count : Nat}

theorem iterate_cases
    (iterated : iterate options enter call c = some ⟨.ok after, count⟩) :
    (∃ middle, Config.step options call.config c = .ok middle ∧
        middle.outer = call.config.outer ∧ after = ⟨middle, call.linked⟩) ∨
      ∃ inside next beyond inner, call.config.stage = .value ∧
        Config.step options call.config c = .ok inside ∧
        inside = .start (call.config.head :: call.config.outer) call.config.cursor.skip ∧
        enter ⟨inside, none⟩ = some ⟨.ok (next, beyond), inner⟩ ∧
        after = call.afterLink next beyond := by
  unfold iterate at iterated
  split at iterated
  · simp at iterated
  · rename_i middle stepped
    split at iterated
    · rename_i same
      obtain ⟨rfl, -⟩ : Call.mk middle call.linked = after ∧ 1 = count := by simpa using iterated
      exact .inl ⟨middle, stepped, same, rfl⟩
    · rename_i set
      obtain ⟨⟨result, inner⟩, entered, same⟩ := Option.map_eq_some_iff.mp iterated
      obtain ⟨stage, inside⟩ := (Config.move_outer (Config.move_of_step stepped)).resolve_left set
      cases result with
      | error error => simp [Except.map] at same
      | ok read =>
        obtain ⟨next, beyond⟩ := read
        obtain ⟨rfl, -⟩ : call.afterLink next beyond = after ∧ inner + 1 = count := by
          simpa [Except.map] using same
        exact .inr ⟨middle, next, beyond, inner, stage, stepped, inside, entered, rfl⟩

def Exhausts (enter : Call → Option (Counted (Tag × Cursor))) : Prop :=
  ∀ call next beyond count, enter call = some ⟨.ok (next, beyond), count⟩ →
    beyond.rest = [] ∧ ∃ passed, call.config.cursor.Passes passed beyond

theorem iterate_advances (exhausts : Exhausts enter) (front : call.config.cursor.rest = c :: rest)
    (iterated : iterate options enter call c = some ⟨.ok after, count⟩) :
    call.config.Advances after.config ∨
      (after.config.cursor = call.config.cursor ∧ !call.config.stage.isLookahead ∧
        after.config.stage.isLookahead) := by
  rcases iterate_cases iterated with ⟨middle, stepped, -, rfl⟩ |
    ⟨inside, next, beyond, inner, -, -, rfl, entered, rfl⟩
  · exact Config.step_advances front stepped
  · obtain ⟨-, passed, move⟩ := exhausts _ next beyond inner entered
    exact .inl ⟨[c] ++ passed, by simp, Cursor.passes_append (Cursor.skip_passes front) move⟩

theorem iterate_passes (exhausts : Exhausts enter) (front : call.config.cursor.rest = c :: rest)
    (iterated : iterate options enter call c = some ⟨.ok after, count⟩) :
    ∃ passed, call.config.cursor.Passes passed after.config.cursor := by
  rcases iterate_advances exhausts front iterated with ⟨passed, -, move⟩ | ⟨still, -⟩
  · exact ⟨passed, move⟩
  · exact ⟨[], still ▸ Cursor.passes_nothing _⟩

theorem run_at_end (fuel : Nat) (nothing : call.config.cursor.rest = []) :
    run options fuel call = some ⟨call.finish.map fun tag => (tag, call.config.cursor), 0⟩ := by
  rw [run.eq_def]
  simp only [nothing]

theorem run_iterate (front : call.config.cursor.rest = c :: rest) :
    run options (fuel + 1) call =
      match iterate options (run options fuel) call c with
      | none => none
      | some ⟨.error error, count⟩ => some ⟨.error error, count⟩
      | some ⟨.ok after, count⟩ =>
        (run options fuel after).map fun further =>
          ⟨further.result, count + further.iterations⟩ := by
  rw [run.eq_def]
  simp only [front]

theorem exhausted_at_end {next : Tag} {beyond : Cursor}
    (ran : run options fuel call = some ⟨.ok (next, beyond), count⟩)
    (nothing : call.config.cursor.rest = []) :
    beyond.rest = [] ∧ ∃ passed, call.config.cursor.Passes passed beyond := by
  rw [run_at_end fuel nothing] at ran
  cases finished : call.finish with
  | error error => simp [finished, Except.map] at ran
  | ok tag =>
    obtain ⟨⟨-, rfl⟩, -⟩ : (tag = next ∧ call.config.cursor = beyond) ∧ 0 = count := by
      simpa [finished, Except.map] using ran
    exact ⟨nothing, [], Cursor.passes_nothing _⟩

theorem run_exhausts (options : Options) (fuel : Nat) : Exhausts (run options fuel) := by
  induction fuel with
  | zero =>
    intro call next beyond count ran
    cases unread : call.config.cursor.rest with
    | nil => exact exhausted_at_end ran unread
    | cons c rest =>
      rw [run.eq_def] at ran
      simp [unread] at ran
  | succ fuel exhausts =>
    intro call next beyond count ran
    cases unread : call.config.cursor.rest with
    | nil => exact exhausted_at_end ran unread
    | cons c rest =>
      rw [run_iterate unread] at ran
      split at ran
      · simp at ran
      · simp at ran
      · rename_i after taken iterated
        obtain ⟨⟨result, more⟩, ran', same⟩ := Option.map_eq_some_iff.mp ran
        obtain ⟨rfl, -⟩ := Counted.mk.inj same
        obtain ⟨nothing, behind, moved⟩ := exhausts after next beyond more ran'
        obtain ⟨passed, move⟩ := iterate_passes exhausts unread iterated
        exact ⟨nothing, _, Cursor.passes_append move moved⟩

theorem iterate_step {s middle : Config} (stepped : Config.step options s c = .ok middle)
    (same : middle.outer = s.outer) :
    iterate options enter ⟨s, none⟩ c = some ⟨.ok ⟨middle, none⟩, 1⟩ := by
  simp only [iterate, stepped, same, if_true]

theorem iterate_link {s inside : Config} (stepped : Config.step options s c = .ok inside)
    (set : inside.outer ≠ s.outer) :
    iterate options enter ⟨s, none⟩ c = (enter ⟨inside, none⟩).map fun inner =>
      ⟨inner.result.map fun (next, beyond) => afterLink ⟨s, none⟩ next beyond,
        inner.iterations + 1⟩ := by
  simp only [iterate, stepped, set, if_false]

theorem run_stepped {s middle : Config} (front : s.cursor.rest = c :: rest)
    (stepped : Config.step options s c = .ok middle) (same : middle.outer = s.outer) :
    run options (fuel + 1) ⟨s, none⟩ =
      (run options fuel ⟨middle, none⟩).map fun further =>
        ⟨further.result, 1 + further.iterations⟩ := by
  have front : (Call.mk s none).config.cursor.rest = c :: rest := front
  simp only [run_iterate front, iterate_step stepped same]

theorem run_linked_call {s inside : Config} {result : Except TagError (Tag × Cursor)}
    (front : s.cursor.rest = c :: rest) (stepped : Config.step options s c = .ok inside)
    (set : inside.outer ≠ s.outer)
    (ran : run options fuel ⟨inside, none⟩ = some ⟨result, count⟩) :
    run options (fuel + 1) ⟨s, none⟩ =
      some ⟨result.map fun (next, beyond) => (.link s.head next, beyond), count + 1⟩ := by
  have front : (Call.mk s none).config.cursor.rest = c :: rest := front
  have iterated : iterate options (run options fuel) ⟨s, none⟩ c = _ := iterate_link stepped set
  rw [ran, Option.map_some] at iterated
  cases result with
  | error error => simp only [run_iterate front, iterated, Except.map]
  | ok read =>
    obtain ⟨next, beyond⟩ := read
    obtain ⟨nothing, -⟩ := run_exhausts options fuel _ next beyond count ran
    have ended : run options fuel (afterLink ⟨s, none⟩ next beyond) = _ :=
      run_at_end fuel nothing
    simp only [run_iterate front, iterated, Except.map, ended, Option.map_some]
    rfl

/-- What a call reads, with the links around it, is what the run reads that sets heads aside. Each
    iteration of any call is one step of that run, so the measure of the run bounds them all. -/
theorem run_eq (options : Options) (s : Config) (fuel : Nat) (enough : s.measure ≤ fuel + 1) :
    ∃ counted, run options fuel ⟨s, none⟩ = some counted ∧
      counted.iterations ≤ s.measure - 1 ∧
      counted.result.map (fun (next, _) => Config.enclose s.outer next) =
        (Config.run options s).2 := by
  fun_induction Config.run options s generalizing fuel with
  | case1 s unread =>
    refine ⟨_, run_at_end fuel unread, Nat.zero_le _, ?_⟩
    cases finished : s.finish with
    | error error => simp [finish, finished, Except.map]
    | ok tag =>
      simp only [finish, finished, Except.map, Config.finish_tag finished]
      rfl
  | case2 s c rest unread error stepped =>
    have two := Config.two_le_measure unread
    have front : (Call.mk s none).config.cursor.rest = c :: rest := unread
    obtain ⟨fuel, rfl⟩ : ∃ less, fuel = less + 1 := ⟨fuel - 1, by omega⟩
    refine ⟨⟨.error error, 1⟩, ?_, by simp only; omega, rfl⟩
    simp only [run_iterate front, iterate, stepped]
  | case3 s c rest unread after stepped ih =>
    have two := Config.two_le_measure unread
    have fewer := Config.step_measure unread stepped
    obtain ⟨fuel, rfl⟩ : ∃ less, fuel = less + 1 := ⟨fuel - 1, by omega⟩
    obtain ⟨⟨result, count⟩, ran, bound, same⟩ := ih fuel (by omega)
    simp only at bound same
    by_cases kept : after.outer = s.outer
    · refine ⟨⟨result, 1 + count⟩, ?_, by simp only; omega, kept ▸ same⟩
      rw [run_stepped unread stepped kept, ran, Option.map_some]
    · obtain ⟨-, rfl⟩ := (Config.move_outer (Config.move_of_step stepped)).resolve_left kept
      refine ⟨_, run_linked_call unread stepped kept ran, by simp only; omega, ?_⟩
      rw [← same]
      cases result <;> rfl

end Call

namespace Tag

/-- An iteration that does not fail takes a character, or the next one does. So twice as many
    iterations as there are characters suffice for all calls together, and with that much fuel the
    calls come to what the text is read as. -/
theorem parse_within_fuel (options : Options) (text : String) :
    let trimmed := trimEnd text.toList
    (∀ fuel call c rest after count, call.config.cursor.rest = c :: rest →
      Call.iterate options (Call.run options fuel) call c = some ⟨.ok after, count⟩ →
      call.config.Advances after.config ∨
        (after.config.cursor = call.config.cursor ∧
          (after.config.stage = .tagName ∨ after.config.stage = .afterTag) ∧
          ∀ fuel further count,
            Call.iterate options (Call.run options fuel) after c = some ⟨.ok further, count⟩ →
            after.config.Advances further.config)) ∧
    ∀ fuel, 2 * trimmed.length ≤ fuel → ∃ counted,
      Call.run options fuel (.start trimmed) = some counted ∧
        counted.iterations ≤ 2 * trimmed.length ∧
        counted.result.map Prod.fst = parse options text := by
  intro trimmed
  constructor
  · intro fuel call c rest after count front iterated
    rcases Call.iterate_advances (Call.run_exhausts options fuel) front iterated with
      advanced | ⟨still, -, ahead⟩
    · exact .inl advanced
    · refine .inr ⟨still, ?_, ?_⟩
      · cases stage : after.config.stage <;> simp_all [Stage.isLookahead]
      · intro fuel further count iterated'
        have front' : after.config.cursor.rest = c :: rest := still ▸ front
        rcases Call.iterate_advances (Call.run_exhausts options fuel) front' iterated' with
          advanced | ⟨-, before, -⟩
        · exact advanced
        · simp [ahead] at before
  · intro fuel enough
    have measure : (Config.start [] (.start trimmed)).measure = 2 * trimmed.length + 1 := rfl
    obtain ⟨counted, ran, bound, same⟩ :=
      Call.run_eq options (.start [] (.start trimmed)) fuel (by omega)
    exact ⟨counted, ran, by omega, same⟩

theorem linked_text_within_fuel :
    let text := "a=+b(1) //x "
    let call := Call.start (trimEnd text.toList)
    let entered : Call := { call with config := { call.config with stage := .tagName } }
    let named : Call := { call with config := { call.config with
      cursor := ⟨⟨1, 1⟩, "=+b(1) //x".toList⟩
      stage := .afterName
      head := ⟨"a", []⟩ } }
    (∃ counted, Call.run {} 22 call = some counted ∧ counted.iterations ≤ 22 ∧
      counted.result.map Prod.fst =
        .ok (link ⟨"a", []⟩ (single ⟨"b", [⟨"", .int "1" 1⟩]⟩ .none))) ∧
      Call.iterate {} (Call.run {} 0) call 'a' = some ⟨.ok entered, 1⟩ ∧
      Call.iterate {} (Call.run {} 0) entered 'a' = some ⟨.ok named, 1⟩ ∧
      entered.config.Advances named.config := by
  intro text call entered named
  obtain ⟨progress, fuelled⟩ := parse_within_fuel {} text
  have length : 2 * (trimEnd text.toList).length = 22 := by decide
  obtain ⟨counted, ran, bound, same⟩ := fuelled 22 (Nat.le_of_eq length)
  have read : parse {} text = .ok (link ⟨"a", []⟩ (single ⟨"b", [⟨"", .int "1" 1⟩]⟩ .none)) := by
    decide +kernel
  have iterated : Call.iterate {} (Call.run {} 0) entered 'a' = some ⟨.ok named, 1⟩ := by
    decide +kernel
  have front : entered.config.cursor.rest = 'a' :: "=+b(1) //x".toList := by decide
  have moved : named.config.cursor ≠ entered.config.cursor := by decide
  refine ⟨⟨counted, ran, length ▸ bound, same.trans read⟩, by decide +kernel, iterated, ?_⟩
  exact (progress 0 entered 'a' _ named 1 front iterated).resolve_right fun stays => moved stays.1

end Tag
end CommentTags
