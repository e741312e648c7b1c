import CommentTags.Proofs.Tag.Moves

/- Why one step fails. As every other step is a move, every failing one is a refusal listed here,
   with the stretch of text that it shows. -/
namespace CommentTags
open Unicode

def Stage.refusesAt : Stage → Option Place
  | .start => some .tagStart
  | .afterName => some .afterTagName
  | .afterArgument => some .argumentList
  | .afterArguments => some .afterArguments
  | .afterTag => some .afterTag
  | .ended => some .afterEnd
  | _ => none

def Stage.readsAt : Stage → Option Place
  | .firstArgument | .nextArgument | .argumentValue => some .argumentList
  | .value => some .value
  | _ => none

namespace Config

def pointError (s : Config) (fault : Fault) : TagError :=
  ⟨fault, s.cursor.position, s.cursor.position⟩

/-- The refusals of a step on the character `c`. A list of arguments is shown from its opening on,
    a link by its plus sign, and what a reader takes by the reader itself. -/
inductive Refusal (options : Options) (s : Config) (c : Char) : TagError → Prop
  | misplaced {place : Place} (refuses : s.stage.refusesAt = some place) :
      Refusal options s c (s.pointError (.unexpected c place))
  | name {error : TagError} (stage : s.stage = .tagName)
      (failed : (readName isTagNameInterior s.cursor).result = .error error) :
      Refusal options s c error
  | scalar {place : Place} {error : TagError} (reads : s.stage.readsAt = some place)
      (failed : readToken place s.cursor = .error error) : Refusal options s c error
  | noArgument (stage : s.stage = .nextArgument) (front : c = ')') :
      Refusal options s c (s.pointError .noArgument)
  | noArgumentValue (stage : s.stage = .argumentValue) (front : c = ')') :
      Refusal options s c (s.pointError (.noArgumentValue (s.pendingName.getD "")))
  | named (stage : s.stage = .afterArgument) (front : c = ':')
      (named : s.pendingName.isSome = true) :
      Refusal options s c (s.pointError (.unexpected ':' .afterNamedArgument))
  | unnamable (stage : s.stage = .afterArgument) (front : c = ':')
      (notBare : s.pendingValue.bind Token.bare = none) :
      Refusal options s c (s.pointError .unnamable)
  | mixed (stage : s.stage = .firstArgument ∨ s.stage = .afterArgument) (front : c = ')') :
      Refusal options s c ⟨.mixedArguments, s.opening, s.cursor.skip.position⟩
  | several {count : Nat} (stage : s.stage = .firstArgument ∨ s.stage = .afterArgument)
      (front : c = ')') :
      Refusal options s c ⟨.severalPositional count, s.opening, s.cursor.skip.position⟩
  | deep (stage : s.stage = .value) (linked : s.opensLink c = true)
      (full : options.maxDepth ≤ s.outer.length) :
      Refusal options s c
        ⟨.tooDeep options.maxDepth, s.cursor.position, s.cursor.skip.position⟩
  | noComment (stage : s.stage = .slash) : Refusal options s c (s.pointError .noComment)

section Steps
variable {options : Options} {s : Config} {c : Char} {error : TagError}

theorem addArgument_opening (s : Config) : s.addArgument.opening = s.opening := by
  unfold addArgument
  split <;> rfl

theorem pointError_of_fail {α : Type} {fault : Fault}
    (failed : (s.fail fault : Except TagError α) = .error error) : s.pointError fault = error :=
  Except.error.inj failed

theorem closeArguments_error (failed : s.closeArguments = .error error) :
    error = ⟨.mixedArguments, s.opening, s.cursor.skip.position⟩ ∨
      ∃ count, error = ⟨.severalPositional count, s.opening, s.cursor.skip.position⟩ := by
  unfold closeArguments at failed
  simp only at failed
  split at failed
  · exact .inl (Except.error.inj failed).symm
  · split at failed
    · exact .inr ⟨_, (Except.error.inj failed).symm⟩
    · cases failed

theorem refusal_of_readArgument (awaits : s.stage.awaitsArgument = true)
    (failed : s.readArgument c = .error error) : Refusal options s c error := by
  have reads : s.stage.readsAt = some .argumentList := by
    cases stage : s.stage <;> simp_all [Stage.awaitsArgument, Stage.readsAt]
  unfold readArgument at failed
  split at failed
  · cases failed
  · split at failed
    · rename_i front
      split at failed
      · rename_i stage
        rcases closeArguments_error failed with rfl | ⟨count, rfl⟩
        · exact .mixed (.inl stage) front
        · exact .several (.inl stage) front
      · rename_i notFirst
        split at failed
        · rename_i stage
          exact pointError_of_fail failed ▸ .noArgument stage front
        · rename_i notNext
          have stage : s.stage = .argumentValue := by
            cases stage : s.stage <;> simp_all [Stage.awaitsArgument]
          exact pointError_of_fail failed ▸ .noArgumentValue stage front
    · split at failed
      · rename_i wrong read
        obtain rfl := Except.error.inj failed
        exact .scalar reads read
      · cases failed

theorem refusal_of_endArgument (stage : s.stage = .afterArgument)
    (failed : s.endArgument c = .error error) : Refusal options s c error := by
  unfold endArgument at failed
  split at failed
  · cases failed
  · split at failed
    · cases failed
    · split at failed
      · rename_i front
        have closed := closeArguments_error failed
        rw [addArgument_opening, addArgument_cursor] at closed
        rcases closed with rfl | ⟨count, rfl⟩
        · exact .mixed (.inr stage) front
        · exact .several (.inr stage) front
      · split at failed
        · rename_i front
          split at failed
          · rename_i named
            exact pointError_of_fail failed ▸ .named stage front named
          · split at failed
            · rename_i notBare
              exact pointError_of_fail failed ▸ .unnamable stage front notBare
            · cases failed
        · exact pointError_of_fail failed ▸ .misplaced (by rw [stage]; rfl)

theorem refusal_of_readValue (stage : s.stage = .value)
    (failed : readValue options s c = .error error) : Refusal options s c error := by
  unfold readValue at failed
  split at failed
  · cases failed
  · split at failed
    · rename_i linked
      simp only at failed
      split at failed
      · rename_i full
        exact Except.error.inj failed ▸ .deep stage linked full
      · cases failed
    · split at failed
      · rename_i wrong read
        obtain rfl := Except.error.inj failed
        exact .scalar (by rw [stage]; rfl) read
      · cases failed

theorem refusal_of_step (failed : step options s c = .error error) : Refusal options s c error := by
  have misplaced {place : Place} (refuses : s.stage.refusesAt = some place)
      (failed : (s.fail (.unexpected c place) : Except TagError Config) = .error error) :
      Refusal options s c error :=
    pointError_of_fail failed ▸ .misplaced refuses
  unfold step at failed
  split at failed
  · rename_i stage
    repeat (split at failed; · cases failed)
    exact misplaced (by rw [stage]; rfl) failed
  · rename_i stage
    split at failed
    · rename_i wrong beyond read
      obtain rfl := Except.error.inj failed
      exact .name stage (congrArg Reading.result read)
    · cases failed
  · rename_i stage
    repeat (split at failed; · cases failed)
    exact misplaced (by rw [stage]; rfl) failed
  · rename_i stage
    exact refusal_of_readArgument (by rw [stage]; rfl) failed
  · rename_i stage
    exact refusal_of_readArgument (by rw [stage]; rfl) failed
  · rename_i stage
    exact refusal_of_readArgument (by rw [stage]; rfl) failed
  · rename_i stage
    exact refusal_of_endArgument stage failed
  · rename_i stage
    repeat (split at failed; · cases failed)
    exact misplaced (by rw [stage]; rfl) failed
  · rename_i stage
    exact refusal_of_readValue stage failed
  · rename_i stage
    repeat (split at failed; · cases failed)
    exact misplaced (by rw [stage]; rfl) failed
  · rename_i stage
    split at failed
    · cases failed
    · exact pointError_of_fail failed ▸ .noComment stage
  · cases failed
  · rename_i stage
    exact misplaced (by rw [stage]; rfl) failed

end Steps
end Config
end CommentTags
