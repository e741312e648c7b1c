import CommentTags.Tag.Config

/- Runs of steps. A step that takes no character moves to a stage whose next step takes one or
   fails, so a run takes at most two steps for each character. -/
namespace CommentTags
namespace Config

def Advances (s after : Config) : Prop :=
  ∃ passed, passed ≠ [] ∧ s.cursor.Passes passed after.cursor

theorem skip_advances {s after : Config} {c : Char} {rest : List Char}
    (front : s.cursor.rest = c :: rest) (skipped : after.cursor = s.cursor.skip) :
    s.Advances after :=
  ⟨[c], List.cons_ne_nil c [], skipped ▸ Cursor.skip_passes front⟩

theorem token_advances {s after : Config} {place : Place} {token : Token} {beyond : Cursor}
    (read : readToken place s.cursor = .ok (token, beyond)) (moved : after.cursor = beyond) :
    s.Advances after := by
  obtain ⟨passed, something, move⟩ := readToken_passes read
  exact ⟨passed, something, moved ▸ move⟩

theorem addArgument_cursor (s : Config) : s.addArgument.cursor = s.cursor := by
  unfold addArgument; split <;> rfl

theorem closeArguments_cursor {s after : Config} (closed : s.closeArguments = .ok after) :
    after.cursor = s.cursor.skip := by
  unfold closeArguments at closed
  simp only at closed
  repeat (split at closed; · simp at closed)
  rw [← Except.ok.inj closed]; rfl

theorem readArgument_advances {s after : Config} {c : Char} {rest : List Char}
    (front : s.cursor.rest = c :: rest) (stepped : s.readArgument c = .ok after) :
    s.Advances after := by
  unfold readArgument at stepped
  split at stepped
  · exact skip_advances front (by rw [← Except.ok.inj stepped]; rfl)
  · split at stepped
    · split at stepped
      · exact skip_advances front (closeArguments_cursor stepped)
      · split at stepped <;> simp [fail] at stepped
    · split at stepped
      · simp at stepped
      · rename_i token beyond read
        exact token_advances read (by rw [← Except.ok.inj stepped])

theorem endArgument_advances {s after : Config} {c : Char} {rest : List Char}
    (front : s.cursor.rest = c :: rest) (stepped : s.endArgument c = .ok after) :
    s.Advances after := by
  apply skip_advances front
  unfold endArgument at stepped
  split at stepped
  · rw [← Except.ok.inj stepped]; rfl
  · split at stepped
    · rw [← Except.ok.inj stepped]; simp [skipTo, addArgument_cursor]
    · split at stepped
      · rw [closeArguments_cursor stepped, addArgument_cursor]
      · split at stepped
        · split at stepped
          · simp [fail] at stepped
          · split at stepped
            · simp [fail] at stepped
            · rw [← Except.ok.inj stepped]; rfl
        · simp [fail] at stepped

theorem readValue_advances {options : Options} {s after : Config} {c : Char} {rest : List Char}
    (front : s.cursor.rest = c :: rest) (stepped : readValue options s c = .ok after) :
    s.Advances after := by
  unfold readValue at stepped
  split at stepped
  · refine ⟨s.cursor.rest, by simp [front], ?_⟩
    rw [← Except.ok.inj stepped]
    exact Cursor.takeRest_passes s.cursor
  · split at stepped
    · simp only at stepped
      split at stepped
      · simp at stepped
      · exact skip_advances front (by rw [← Except.ok.inj stepped]; rfl)
    · split at stepped
      · simp at stepped
      · rename_i token beyond read
        exact token_advances read (by rw [← Except.ok.inj stepped])

theorem step_advances {options : Options} {s after : Config} {c : Char} {rest : List Char}
    (front : s.cursor.rest = c :: rest) (stepped : step options s c = .ok after) :
    s.Advances after ∨
      (after.cursor = s.cursor ∧ !s.stage.isLookahead ∧ after.stage.isLookahead) := by
  have skipped {stage : Stage} {error : Type}
      (same : (.ok (s.skipTo stage) : Except error Config) = .ok after) : s.Advances after :=
    skip_advances front (by rw [← Except.ok.inj same]; rfl)
  unfold step at stepped
  split at stepped
  · rename_i stage
    split at stepped
    · exact .inl (skipped stepped)
    · split at stepped
      · rw [← Except.ok.inj stepped]; exact .inr (by simp [stage, Stage.isLookahead])
      · simp [fail] at stepped
  · have name := readName_passes isTagNameInterior s.cursor
    split at stepped
    · simp at stepped
    · rename_i text beyond outcome
      simp only [outcome] at name
      rcases name with ⟨passed, _, something, move⟩ | ⟨error, failed, _⟩
      · rw [← Except.ok.inj stepped]; exact .inl ⟨passed, something, move⟩
      · simp at failed
  · rename_i stage
    split at stepped
    · exact .inl (skip_advances front (by rw [← Except.ok.inj stepped]; rfl))
    · split at stepped
      · exact .inl (skipped stepped)
      · split at stepped
        · rw [← Except.ok.inj stepped]; exact .inr (by simp [stage, Stage.isLookahead])
        · simp [fail] at stepped
  · exact .inl (readArgument_advances front stepped)
  · exact .inl (readArgument_advances front stepped)
  · exact .inl (readArgument_advances front stepped)
  · exact .inl (endArgument_advances front stepped)
  · rename_i stage
    split at stepped
    · exact .inl (skipped stepped)
    · split at stepped
      · rw [← Except.ok.inj stepped]; exact .inr (by simp [stage, Stage.isLookahead])
      · simp [fail] at stepped
  · exact .inl (readValue_advances front stepped)
  · split at stepped
    · exact .inl (skipped stepped)
    · split at stepped
      · exact .inl (skipped stepped)
      · simp [fail] at stepped
  · split at stepped
    · exact .inl (skipped stepped)
    · simp [fail] at stepped
  · refine .inl ⟨s.cursor.rest, by simp [front], ?_⟩
    rw [← Except.ok.inj stepped]
    exact Cursor.takeRest_passes s.cursor
  · simp [fail] at stepped

/-- Counts the steps that can follow: two for each character, less one behind a lookahead. -/
def measure (s : Config) : Nat :=
  2 * s.cursor.rest.length + if s.stage.isLookahead then 0 else 1

theorem step_measure {options : Options} {s after : Config} {c : Char} {rest : List Char}
    (front : s.cursor.rest = c :: rest) (stepped : step options s c = .ok after) :
    after.measure < s.measure := by
  unfold measure
  rcases step_advances front stepped with ⟨passed, something, move⟩ | ⟨still, before, later⟩
  · have := Cursor.passes_length move
    have := List.length_pos_iff.mpr something
    split <;> split <;> omega
  · simp_all

/-- A run keeps the last state it came to, also where it failed. -/
def run (options : Options) (s : Config) : Config × Except TagError Tag :=
  match _ : s.cursor.rest with
  | [] => (s, s.finish)
  | c :: _ =>
    match _ : step options s c with
    | .error error => (s, .error error)
    | .ok after => run options after
termination_by s.measure
decreasing_by exact step_measure ‹_› ‹_›

theorem run_at_end {s : Config} (options : Options) (nothing : s.cursor.rest = []) :
    run options s = (s, s.finish) := by
  unfold run
  split
  · rfl
  · simp_all

theorem run_step {s : Config} {c : Char} {rest : List Char} (options : Options)
    (front : s.cursor.rest = c :: rest) :
    run options s = match step options s c with
      | .error error => (s, .error error)
      | .ok after => run options after := by
  rw [run]
  split
  · simp_all
  · rename_i first later split
    obtain ⟨rfl, _⟩ : first = c ∧ later = rest := by simpa [split] using front
    split <;> rename_i stepped <;> simp [stepped]

end Config

namespace Tag

def run (options : Options) (text : String) : Config × Except TagError Tag :=
  Config.run options (.start [] (.start (trimEnd text.toList)))

def parse (options : Options) (text : String) : Except TagError Tag := (run options text).2

def opened (options : Options) (text : String) : List String :=
  ((run options text).1.outer.map Head.name).reverse

def parseAll (options : Options) (texts : List String) : Except TagError (List Tag) :=
  texts.mapM (parse options)

end Tag
end CommentTags
