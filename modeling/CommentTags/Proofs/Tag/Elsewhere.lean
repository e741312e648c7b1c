import CommentTags.Proofs.Tag.Bookkeeping
import CommentTags.Proofs.Token.Local

/- A configuration elsewhere: behind more text and inside more links. An action that reads at the
   cursor and records what it read does the same there, if its reader does. -/
namespace CommentTags

def Options.deeper (levels : Nat) (options : Options) : Options :=
  { options with maxDepth := options.maxDepth + levels }

namespace Config

def inside (front : List Char) (outer : List Head) (rest : List Char) (s : Config) : Config :=
  { s with
    cursor := s.cursor.inside front rest
    outer := s.outer ++ outer
    opening := s.opening.after front }

/-- What comes of a step at the end of the text that it passed. The only limit that an error may
    name is `limit`. -/
def StopsAt (limit : Nat) (last : Cursor) : Except TagError Config → Prop
  | .error error =>
    error.stop = last.position ∧ ∀ other, error.fault = .tooDeep other → other = limit
  | .ok after => after.cursor = last

def relocated (front : List Char) (outer : List Head) (rest : List Char) :
    Except TagError Config → Except TagError Config
  | .error error => .error (error.inside front outer.length)
  | .ok after => .ok (after.inside front outer rest)

/-- Elsewhere the action does the same, where the number of links added around it is given to it. -/
def Local (limit : Nat) (act : Nat → Config → Except TagError Config) (s : Config) : Prop :=
  ∃ passed tail, s.cursor.rest = passed ++ tail ∧
    StopsAt limit (s.cursor.move passed tail) (act 0 s) ∧
    ∀ front outer rest, rest.head? = tail.head? →
      act outer.length (s.inside front outer (passed ++ rest)) =
        relocated front outer rest (act 0 s)

structure Alike (levels : Nat) (other s : Config) : Prop where
  stage : other.stage = s.stage
  outer : other.outer.length = s.outer.length + levels
  head : other.head = s.head
  payload : other.payload = s.payload
  pendingName : other.pendingName = s.pendingName
  pendingValue : other.pendingValue = s.pendingValue

theorem alike_self (s : Config) : Alike 0 s s := ⟨rfl, rfl, rfl, rfl, rfl, rfl⟩

theorem alike_inside (s : Config) (front : List Char) (outer : List Head) (rest : List Char) :
    Alike outer.length (s.inside front outer rest) s :=
  ⟨rfl, List.length_append, rfl, rfl, rfl, rfl⟩

structure Records {α : Type} (next : α → Config → Cursor → Config) : Prop where
  placed : ∀ value s here, (next value s here).cursor = here := by intros; rfl
  moves : ∀ value (s : Config) (here : Cursor) front outer rest rest',
    next value (s.inside front outer rest') (here.inside front rest) =
      (next value s here).inside front outer rest := by intros; rfl

section Actions
variable {α : Type} {limit : Nat} {s : Config} {c : Char} {passed tail : List Char}
  {act other : Nat → Config → Except TagError Config}

theorem Local.chosen (does : Local limit act s)
    (same : ∀ levels like, Alike levels like s → like.cursor.rest.head? = s.cursor.rest.head? →
      other levels like = act levels like) : Local limit other s := by
  obtain ⟨passed, tail, unread, stops, elsewhere⟩ := does
  refine ⟨passed, tail, unread, ?_, ?_⟩
  · rw [same 0 s (alike_self s) rfl]
    exact stops
  · intro front outer rest heads
    have first : (passed ++ rest).head? = s.cursor.rest.head? := by
      rw [unread]
      exact append_head passed heads
    rw [same _ _ (alike_inside s front outer (passed ++ rest)) first, same 0 s (alike_self s) rfl,
      elsewhere front outer rest heads]

theorem local_of_reads {read : Cursor → Attempt α} (next : α → Config → Cursor → Config)
    (reads : s.cursor.LocalOver passed tail read) (records : Records next)
    (does : ∀ levels like rest, Alike levels like s → like.cursor.rest = passed ++ rest →
      rest.head? = tail.head? →
      act levels like = (read like.cursor).map fun (value, beyond) => next value like beyond) :
    Local limit act s := by
  have fixed {error : TagError} (failed : read s.cursor = .error error) := reads.fixed failed
  obtain ⟨unread, stops, elsewhere⟩ := reads
  have here := does 0 s tail (alike_self s) unread rfl
  refine ⟨passed, tail, unread, ?_, ?_⟩
  · rw [here]
    cases outcome : read s.cursor with
    | error error =>
      rw [outcome] at stops
      exact ⟨stops, Fault.names_none (fixed outcome) limit⟩
    | ok pair =>
      rw [outcome] at stops
      exact (records.placed _ _ _).trans stops
  · intro front outer rest heads
    rw [does _ _ rest (alike_inside s front outer (passed ++ rest)) rfl heads, here]
    have moved := elsewhere front outer.length rest heads
    cases outcome : read s.cursor with
    | error error =>
      rw [outcome] at moved
      exact congrArg _ moved
    | ok pair =>
      rw [outcome] at moved
      refine (congrArg _ moved).trans ?_
      exact congrArg Except.ok (records.moves _ _ _ front outer rest (passed ++ rest))

theorem local_of_fails (fault : Nat → Fault) (start : Config → Position)
    (unread : s.cursor.rest = passed ++ tail)
    (faults : ∀ levels, (fault 0).inside levels = fault levels)
    (names : ∀ other, fault 0 = .tooDeep other → other = limit)
    (starts : ∀ front outer rest, start (s.inside front outer rest) = (start s).after front)
    (does : ∀ levels like rest, Alike levels like s → like.cursor.rest = passed ++ rest →
      rest.head? = tail.head? →
      act levels like = .error ⟨fault levels, start like, like.cursor.position.after passed⟩) :
    Local limit act s := by
  have here := does 0 s tail (alike_self s) unread rfl
  refine ⟨passed, tail, unread, ?_, ?_⟩
  · rw [here]
    exact ⟨rfl, names⟩
  · intro front outer rest heads
    rw [does _ _ rest (alike_inside s front outer (passed ++ rest)) rfl heads, here, starts]
    simp only [relocated, TagError.inside, faults, inside, Cursor.inside_position,
      Position.after_comm _ front]

theorem local_of_stays (stage : Stage)
    (does : ∀ levels like, Alike levels like s → like.cursor.rest.head? = s.cursor.rest.head? →
      act levels like = .ok { like with stage := stage }) : Local limit act s := by
  have reads : s.cursor.LocalOver [] s.cursor.rest fun here => .ok ((), here) := by
    refine local_of_read () rfl ?_
    intro here rest unread same
    rw [Cursor.move_nothing (unread.trans (List.nil_append rest))]
  refine local_of_reads (fun _ like here => { like with cursor := here, stage := stage })
    reads {} ?_
  intro levels like rest alike unread heads
  exact does levels like alike (unread ▸ heads)

theorem local_of_skips (next : Config → Cursor → Config) (front : s.cursor.rest = c :: tail)
    (records : Records fun (_ : Unit) => next)
    (does : ∀ levels like rest, Alike levels like s → like.cursor.rest = c :: rest →
      rest.head? = tail.head? → act levels like = .ok (next like like.cursor.skip)) :
    Local limit act s := by
  have reads : s.cursor.LocalOver [c] tail fun here => .ok ((), here.skip) := by
    refine local_of_read () front ?_
    intro here rest unread same
    have skipped : here.skip = here.move [c] rest := Cursor.skip_eq_move unread
    rw [skipped]
  refine local_of_reads _ reads records ?_
  intro levels like rest alike unread heads
  exact does levels like rest alike unread heads

theorem local_of_takes (next : Config → Cursor → Config)
    (records : Records fun (_ : Unit) => next)
    (does : ∀ levels like, Alike levels like s → like.cursor.rest = s.cursor.rest →
      act levels like = .ok (next like like.cursor.takeRest.2)) : Local limit act s := by
  have reads : s.cursor.LocalOver s.cursor.rest [] fun here => .ok ((), here.takeRest.2) := by
    refine local_of_read () (List.append_nil _).symm ?_
    intro here rest unread same
    obtain rfl : rest = [] := by simpa using same
    rw [List.append_nil] at unread
    rw [← unread]
    rfl
  refine local_of_reads _ reads records ?_
  intro levels like rest alike unread heads
  obtain rfl : rest = [] := by simpa using heads
  rw [List.append_nil] at unread
  exact does levels like alike unread

theorem local_of_fault (fault : Fault) (fixed : ∀ levels, fault.inside levels = fault)
    (does : ∀ levels like, Alike levels like s → like.cursor.rest.head? = s.cursor.rest.head? →
      act levels like = like.fail fault) : Local limit act s := by
  have nothing : s.cursor.rest = [] ++ s.cursor.rest := rfl
  refine local_of_fails (fun _ => fault) (fun like => like.cursor.position) nothing fixed
    (Fault.names_none fixed limit) (fun _ _ _ => rfl) ?_
  intro levels like rest alike unread heads
  rw [List.nil_append] at unread
  exact does levels like alike (unread ▸ heads)

theorem addArgument_inside (s : Config) (front : List Char) (outer : List Head)
    (rest : List Char) : (s.inside front outer rest).addArgument =
      s.addArgument.inside front outer rest := by
  cases held : s.pendingValue <;> simp only [addArgument, inside, held]

theorem Local.added (does : Local limit act s.addArgument) :
    Local limit (fun levels other => act levels other.addArgument) s := by
  obtain ⟨passed, tail, unread, stops, elsewhere⟩ := does
  rw [addArgument_cursor] at unread stops
  refine ⟨passed, tail, unread, stops, ?_⟩
  intro front outer rest heads
  simp only [addArgument_inside]
  exact elsewhere front outer rest heads

theorem skipTo_records (stage : Stage) : Records fun (_ : Unit) (s : Config) (here : Cursor) =>
    { s with cursor := here, stage := stage } := {}

theorem skipTo_local (front : s.cursor.rest = c :: tail) (stage : Stage)
    (does : ∀ levels like, Alike levels like s → like.cursor.rest.head? = s.cursor.rest.head? →
      act levels like = .ok (like.skipTo stage)) : Local limit act s := by
  refine local_of_skips _ front (skipTo_records stage) ?_
  intro levels like rest alike unread heads
  exact does levels like alike (by rw [unread, front]; rfl)

end Actions
end Config
end CommentTags
