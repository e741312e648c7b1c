import CommentTags.Proofs.Tag.Spelling
import CommentTags.Tag.Run

/- What one step can do, and what it keeps. Every step is one of the moves listed here, so what
   each of them keeps is kept by a whole run. -/
namespace CommentTags
open Unicode

def Stage.skipsBlanks : Stage → Bool
  | .start | .firstArgument | .nextArgument | .argumentValue | .afterArgument | .afterTag => true
  | _ => false

def Stage.awaitsArgument : Stage → Bool
  | .firstArgument | .nextArgument | .argumentValue => true
  | _ => false

namespace Config

theorem consistent_iff (arguments : List Argument) :
    Consistent arguments ↔
      ¬(0 < arguments.countP Argument.isPositional ∧
          arguments.countP Argument.isPositional < arguments.length) ∧
        ¬1 < arguments.countP Argument.isPositional := by
  have most := List.countP_le_length (p := Argument.isPositional) (l := arguments)
  have named : arguments.countP Argument.isPositional = 0 ↔
      ∀ argument ∈ arguments, argument.name ≠ "" := by
    simp [List.countP_eq_zero, Argument.isPositional]
  unfold Consistent
  rw [← named]
  omega

theorem closeArguments_eq_ok_iff (s after : Config) :
    s.closeArguments = .ok after ↔
      Consistent s.head.arguments ∧ after = s.skipTo .afterArguments := by
  rw [consistent_iff]
  unfold closeArguments
  simp only
  split
  · rename_i mixed
    simp [mixed]
  · rename_i unmixed
    split
    · rename_i several
      simp [several]
    · rename_i single
      rw [Except.ok.injEq]
      exact ⟨fun same => ⟨⟨unmixed, single⟩, same.symm⟩, fun closed => closed.2.symm⟩

/-- The moves of a step on the character `c`, each with all that it checks. -/
inductive Move (options : Options) (s : Config) (c : Char) : Config → Prop
  | blank (skips : s.stage.skipsBlanks = true) (white : isWhiteSpace c = true) :
      Move options s c (s.skipTo s.stage)
  | enter (stage : s.stage = .start) (first : isNameStart c = true) :
      Move options s c { s with stage := .tagName }
  | name {text : List Char} {beyond : Cursor} (stage : s.stage = .tagName)
      (read : readName isTagNameInterior s.cursor = ⟨.ok text, beyond⟩) :
      Move options s c { s with
        cursor := beyond
        stage := .afterName
        head := ⟨String.ofList text, s.head.arguments⟩ }
  | opening (stage : s.stage = .afterName) (front : c = '(') :
      Move options s c { s.skipTo .firstArgument with opening := s.cursor.position }
  | equals (stage : s.stage = .afterName ∨ s.stage = .afterArguments) (front : c = '=') :
      Move options s c (s.skipTo .value)
  | white (stage : s.stage = .afterName ∨ s.stage = .afterArguments)
      (white : isWhiteSpace c = true) : Move options s c { s with stage := .afterTag }
  | closeEmpty (stage : s.stage = .firstArgument) (front : c = ')')
      (consistent : Consistent s.head.arguments) : Move options s c (s.skipTo .afterArguments)
  | scalar {token : Token} {beyond : Cursor} (awaits : s.stage.awaitsArgument = true)
      (read : readToken .argumentList s.cursor = .ok (token, beyond)) :
      Move options s c { s with
        cursor := beyond
        stage := .afterArgument
        pendingValue := some token }
  | comma (stage : s.stage = .afterArgument) (front : c = ',') :
      Move options s c (s.addArgument.skipTo .nextArgument)
  | close (stage : s.stage = .afterArgument) (front : c = ')')
      (consistent : Consistent s.addArgument.head.arguments) :
      Move options s c (s.addArgument.skipTo .afterArguments)
  | colon {name : String} (stage : s.stage = .afterArgument) (front : c = ':')
      (unnamed : s.pendingName = none) (bare : s.pendingValue.bind Token.bare = some name) :
      Move options s c { s.skipTo .argumentValue with
        pendingName := some name
        pendingValue := none }
  | raw (stage : s.stage = .value) (isRaw : options.raw = true) :
      Move options s c { s with
        cursor := s.cursor.takeRest.2
        stage := .ended
        payload := .raw (String.ofList s.cursor.rest) }
  | link (stage : s.stage = .value) (typed : options.raw = false) (linked : s.opensLink c = true)
      (shallow : s.outer.length < options.maxDepth) :
      Move options s c (start (s.head :: s.outer) s.cursor.skip)
  | payload {token : Token} {beyond : Cursor} (stage : s.stage = .value)
      (typed : options.raw = false) (read : readToken .value s.cursor = .ok (token, beyond)) :
      Move options s c { s with
        cursor := beyond
        stage := .afterTag
        payload := .scalar token.value }
  | slash (stage : s.stage = .afterTag) (front : c = '/') : Move options s c (s.skipTo .slash)
  | comment (stage : s.stage = .slash) (front : c = '/') : Move options s c (s.skipTo .comment)
  | remark (stage : s.stage = .comment) :
      Move options s c { s with cursor := s.cursor.takeRest.2, stage := .ended }

theorem move_of_readArgument {options : Options} {s after : Config} {c : Char}
    (awaits : s.stage.awaitsArgument = true) (stepped : s.readArgument c = .ok after) :
    Move options s c after := by
  have skips : s.stage.skipsBlanks = true := by
    cases stage : s.stage <;> simp_all [Stage.awaitsArgument, Stage.skipsBlanks]
  unfold readArgument at stepped
  split at stepped
  · rename_i white
    rw [← Except.ok.inj stepped]
    exact .blank skips white
  · split at stepped
    · rename_i front
      split at stepped
      · rename_i stage
        obtain ⟨consistent, rfl⟩ := (closeArguments_eq_ok_iff s after).mp stepped
        exact .closeEmpty stage front consistent
      · split at stepped <;> simp [fail] at stepped
    · split at stepped
      · simp at stepped
      · rename_i token beyond read
        rw [← Except.ok.inj stepped]
        exact .scalar awaits read

theorem move_of_endArgument {options : Options} {s after : Config} {c : Char}
    (stage : s.stage = .afterArgument) (stepped : s.endArgument c = .ok after) :
    Move options s c after := by
  unfold endArgument at stepped
  split at stepped
  · rename_i white
    rw [← Except.ok.inj stepped, ← stage]
    exact .blank (by rw [stage]; rfl) white
  · split at stepped
    · rename_i front
      rw [← Except.ok.inj stepped]
      exact .comma stage front
    · split at stepped
      · rename_i front
        obtain ⟨consistent, rfl⟩ := (closeArguments_eq_ok_iff s.addArgument after).mp stepped
        exact .close stage front consistent
      · split at stepped
        · rename_i front
          split at stepped
          · simp [fail] at stepped
          · rename_i unnamed
            split at stepped
            · simp [fail] at stepped
            · rename_i name bare
              rw [← Except.ok.inj stepped]
              exact .colon stage front (by simpa using unnamed) bare
        · simp [fail] at stepped

theorem move_of_readValue {options : Options} {s after : Config} {c : Char}
    (stage : s.stage = .value) (stepped : readValue options s c = .ok after) :
    Move options s c after := by
  unfold readValue at stepped
  split at stepped
  · rename_i isRaw
    rw [← Except.ok.inj stepped]
    exact .raw stage isRaw
  · rename_i typed
    have typed' : options.raw = false := by simpa using typed
    split at stepped
    · rename_i linked
      simp only at stepped
      split at stepped
      · simp at stepped
      · rename_i shallow
        rw [← Except.ok.inj stepped]
        exact .link stage typed' linked (by omega)
    · split at stepped
      · simp at stepped
      · rename_i token beyond read
        rw [← Except.ok.inj stepped]
        exact .payload stage typed' read

theorem move_of_step {options : Options} {s after : Config} {c : Char}
    (stepped : step options s c = .ok after) : Move options s c after := by
  unfold step at stepped
  split at stepped
  · rename_i stage
    split at stepped
    · rename_i white
      rw [← Except.ok.inj stepped, ← stage]
      exact .blank (by rw [stage]; rfl) white
    · split at stepped
      · rename_i first
        rw [← Except.ok.inj stepped]
        exact .enter stage first
      · simp [fail] at stepped
  · rename_i stage
    split at stepped
    · simp at stepped
    · rename_i text beyond read
      rw [← Except.ok.inj stepped]
      exact .name stage read
  · rename_i stage
    split at stepped
    · rename_i front
      rw [← Except.ok.inj stepped]
      exact .opening stage front
    · split at stepped
      · rename_i front
        rw [← Except.ok.inj stepped]
        exact .equals (.inl stage) front
      · split at stepped
        · rename_i white
          rw [← Except.ok.inj stepped]
          exact .white (.inl stage) white
        · simp [fail] at stepped
  · rename_i stage
    exact move_of_readArgument (by rw [stage]; rfl) stepped
  · rename_i stage
    exact move_of_readArgument (by rw [stage]; rfl) stepped
  · rename_i stage
    exact move_of_readArgument (by rw [stage]; rfl) stepped
  · rename_i stage
    exact move_of_endArgument stage stepped
  · rename_i stage
    split at stepped
    · rename_i front
      rw [← Except.ok.inj stepped]
      exact .equals (.inr stage) front
    · split at stepped
      · rename_i white
        rw [← Except.ok.inj stepped]
        exact .white (.inr stage) white
      · simp [fail] at stepped
  · rename_i stage
    exact move_of_readValue stage stepped
  · rename_i stage
    split at stepped
    · rename_i white
      rw [← Except.ok.inj stepped, ← stage]
      exact .blank (by rw [stage]; rfl) white
    · split at stepped
      · rename_i front
        rw [← Except.ok.inj stepped]
        exact .slash stage front
      · simp [fail] at stepped
  · rename_i stage
    split at stepped
    · rename_i front
      rw [← Except.ok.inj stepped]
      exact .comment stage front
    · simp [fail] at stepped
  · rename_i stage
    rw [← Except.ok.inj stepped]
    exact .remark stage
  · simp [fail] at stepped

end Config
end CommentTags
