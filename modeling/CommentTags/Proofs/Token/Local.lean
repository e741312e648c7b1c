import CommentTags.Proofs.Token.Literal
import CommentTags.Proofs.Token.Spelling

/- Reading is local. A reader looks at the text that it passes and at one character behind it, so
   it does the same wherever that text stands and whatever follows the character. Behind more text
   only the positions change, and inside more links only the limit that a fault names. -/
namespace CommentTags

namespace Position

theorem after_comm (p : Position) (first second : List Char) :
    (p.after first).after second = (p.after second).after first := by
  simp only [after, Position.mk.injEq]
  omega

theorem past_after (p : Position) (c : Char) (passed : List Char) :
    (p.past c).after passed = (p.after passed).past c := by
  simp only [after, past, Position.mk.injEq]
  omega

end Position

/-- The limit is counted from the outermost tag. -/
def Fault.inside (levels : Nat) : Fault → Fault
  | .tooDeep limit => .tooDeep (limit + levels)
  | fault => fault

theorem Fault.names_none {fault : Fault} (fixed : ∀ levels, fault.inside levels = fault)
    (limit : Nat) : ∀ other, fault = .tooDeep other → other = limit := by
  rintro other rfl
  have same := fixed 1
  simp [inside] at same

theorem Fault.inside_next (fault : Fault) {limit : Nat}
    (names : ∀ other, fault = .tooDeep other → other = limit) :
    fault.inside 1 = if fault = .tooDeep limit then .tooDeep (limit + 1) else fault := by
  split
  · rename_i exceeded
    rw [exceeded, inside]
  · rename_i within
    cases fault with
    | tooDeep other => exact absurd (congrArg tooDeep (names other rfl)) within
    | _ => rfl

def TagError.inside (front : List Char) (levels : Nat) (error : TagError) : TagError :=
  ⟨error.fault.inside levels, error.start.after front, error.stop.after front⟩

def Cursor.inside (here : Cursor) (front rest : List Char) : Cursor :=
  ⟨here.position.after front, rest⟩

@[simp] theorem Cursor.inside_rest (here : Cursor) (front rest : List Char) :
    (here.inside front rest).rest = rest := rfl

@[simp] theorem Cursor.inside_position (here : Cursor) (front rest : List Char) :
    (here.inside front rest).position = here.position.after front := rfl

theorem Cursor.inside_move (here : Cursor) (front passed tail rest rest' : List Char) :
    (here.inside front rest').move passed rest = (here.move passed tail).inside front rest := by
  simp only [move, inside, Position.after_comm]

abbrev Attempt (α : Type) := Except TagError (α × Cursor)

namespace Attempt
variable {α : Type}

/-- The text is looked at up to `last`. -/
def StopsAt (last : Cursor) : Attempt α → Prop
  | .error error => error.stop = last.position
  | .ok (_, beyond) => beyond = last

def inside (front : List Char) (levels : Nat) (rest : List Char) : Attempt α → Attempt α
  | .error error => .error (error.inside front levels)
  | .ok (value, beyond) => .ok (value, beyond.inside front rest)

end Attempt

def Reading.attempt {α : Type} (reading : Reading α) : Attempt α :=
  reading.result.map fun value => (value, reading.cursor)

@[simp] theorem Reading.attempt_read {α : Type} (value : α) (cursor : Cursor) :
    (Reading.read value cursor).attempt = .ok (value, cursor) := rfl

@[simp] theorem Reading.attempt_fail {α : Type} (fault : Fault) (start : Position)
    (cursor : Cursor) :
    (Reading.fail fault start cursor : Reading α).attempt =
      .error ⟨fault, start, cursor.position⟩ := rfl

/-- Elsewhere the reader does the same, if the text that it passes stands there too and the
    character behind that is the same one, or the end of the text in both places. -/
structure Cursor.LocalOver {α : Type} (passed tail : List Char) (read : Cursor → Attempt α)
    (here : Cursor) : Prop where
  unread : here.rest = passed ++ tail
  stops : (read here).StopsAt (here.move passed tail)
  elsewhere : ∀ front levels rest, rest.head? = tail.head? →
    read (here.inside front (passed ++ rest)) = (read here).inside front levels rest

def Cursor.Local {α : Type} (read : Cursor → Attempt α) (here : Cursor) : Prop :=
  ∃ passed tail, here.LocalOver passed tail read

theorem append_head (passed : List Char) {rest tail : List Char} (same : rest.head? = tail.head?) :
    (passed ++ rest).head? = (passed ++ tail).head? := by
  rw [List.head?_append, List.head?_append, same]

section Readers
variable {α : Type} {here : Cursor} {read : Cursor → Attempt α} {passed tail : List Char}

theorem local_of_read (value : α) (unread : here.rest = passed ++ tail)
    (reads : ∀ (other : Cursor) rest, other.rest = passed ++ rest → rest.head? = tail.head? →
      read other = .ok (value, other.move passed rest)) : here.LocalOver passed tail read := by
  refine ⟨unread, ?_, ?_⟩
  · rw [reads here tail unread rfl]
    rfl
  · intro front levels rest same
    rw [reads here tail unread rfl, reads _ rest rfl same, Cursor.inside_move _ _ _ tail]
    rfl

theorem local_of_error (fault : Fault) (unread : here.rest = passed ++ tail)
    (fixed : ∀ levels, fault.inside levels = fault)
    (fails : ∀ (other : Cursor) rest, other.rest = passed ++ rest → rest.head? = tail.head? →
      read other = .error ⟨fault, other.position, other.position.after passed⟩) :
    here.LocalOver passed tail read := by
  refine ⟨unread, ?_, ?_⟩
  · rw [fails here tail unread rfl]
    rfl
  · intro front levels rest same
    rw [fails here tail unread rfl, fails _ rest rfl same]
    simp only [Attempt.inside, TagError.inside, fixed, Cursor.inside_position,
      Position.after_comm _ front]

/-- A reader takes no notice of links, so none of its faults names a limit. -/
theorem Cursor.LocalOver.fixed {error : TagError} (reads : here.LocalOver passed tail read)
    (failed : read here = .error error) (levels : Nat) :
    error.fault.inside levels = error.fault := by
  have same (levels : Nat) := reads.elsewhere [] levels tail rfl
  have none := (same levels).symm.trans (same 0)
  rw [failed] at none
  have none' : error.fault.inside levels = error.fault.inside 0 :=
    congrArg TagError.fault (Except.error.inj none)
  rw [none']
  cases error.fault <;> rfl

theorem Cursor.Local.map {β : Type} {mapped : Cursor → Attempt β} (reads : here.Local read)
    (f : α → β) (same : ∀ other, mapped other =
      (read other).map fun (value, beyond) => (f value, beyond)) : here.Local mapped := by
  obtain ⟨passed, tail, unread, stops, elsewhere⟩ := reads
  refine ⟨passed, tail, unread, ?_, ?_⟩
  · rw [same here]
    cases outcome : read here <;> rw [outcome] at stops <;> exact stops
  · intro front levels rest heads
    rw [same, same, elsewhere front levels rest heads]
    cases read here <;> rfl

theorem Cursor.LocalOver.chosen {chooses : Cursor → Attempt α}
    (reads : here.LocalOver passed tail read)
    (same : ∀ other : Cursor, other.rest.head? = here.rest.head? → chooses other = read other) :
    here.LocalOver passed tail chooses := by
  obtain ⟨unread, stops, elsewhere⟩ := reads
  refine ⟨unread, ?_, ?_⟩
  · rw [same here rfl]
    exact stops
  · intro front levels rest heads
    have first : (here.inside front (passed ++ rest)).rest.head? = here.rest.head? := by
      rw [Cursor.inside_rest, unread]
      exact append_head passed heads
    rw [same _ first, same here rfl, elsewhere front levels rest heads]

theorem Cursor.Local.chosen {chooses : Cursor → Attempt α} (reads : here.Local read)
    (same : ∀ other : Cursor, other.rest.head? = here.rest.head? → chooses other = read other) :
    here.Local chooses := by
  obtain ⟨passed, tail, reads⟩ := reads
  exact ⟨passed, tail, reads.chosen same⟩

theorem local_of_point (fault : Fault) (fixed : ∀ levels, fault.inside levels = fault)
    (fails : ∀ other : Cursor, other.rest.head? = here.rest.head? →
      read other = .error ⟨fault, other.position, other.position⟩) : here.Local read := by
  refine ⟨[], here.rest, local_of_error fault rfl fixed ?_⟩
  intro other rest unread same
  rw [List.nil_append] at unread
  exact fails other (unread ▸ same)

theorem stops_of_head {belongs : Char → Bool} {rest : List Char} (stops : Stops belongs tail)
    (same : rest.head? = tail.head?) : Stops belongs rest := by
  intro c first
  rw [same] at first
  exact stops c first

theorem front_of_head {other : Cursor} {c : Char} (front : here.rest = c :: tail)
    (same : other.rest.head? = here.rest.head?) : ∃ later, other.rest = c :: later := by
  rw [front] at same
  exact List.head?_eq_some_iff.mp same

theorem readName_local (interior : Char → Bool) (here : Cursor) :
    here.Local fun here => (readName interior here).attempt := by
  cases front : here.rest with
  | nil =>
    refine local_of_point (.noName none) (fun _ => rfl) ?_
    intro other same
    have unread : other.rest = [] := by simpa [front] using same
    simp only [readName, unread]
    rfl
  | cons c tail =>
    by_cases start : isNameStart c = true
    · let name := c :: tail.takeWhile interior
      have named : IsName interior name := ⟨start, fun _ => List.mem_takeWhile_imp⟩
      have stops := dropWhile_stops interior tail
      refine ⟨name, tail.dropWhile interior, local_of_read name ?_ ?_⟩
      · rw [front, List.cons_append, List.takeWhile_append_dropWhile]
      · intro other rest unread same
        rw [readName_complete named (stops_of_head stops same) unread]
        rfl
    · refine local_of_point (.noName (some c)) (fun _ => rfl) ?_
      intro other same
      obtain ⟨later, unread⟩ := front_of_head front same
      simp only [readName, unread, start]
      rfl

namespace IntegerLiteral

theorem Longest.local {text rest : List Char} {literal : IntegerLiteral}
    (longest : Longest text literal tail) (same : rest.head? = tail.head?) :
    Longest (literal.text ++ rest) literal rest := by
  obtain ⟨rfl, sign, radix, digits, ends⟩ := longest
  refine ⟨rfl, ?_, ?_, digits, fun c first => ends c (same ▸ first)⟩
  · rwa [append_head literal.text same]
  · rcases radix with ⟨none, ten, plain⟩ | marked
    · refine .inl ⟨none, ten, ?_⟩
      intro letter back front
      cases written : literal.digits with
      | nil =>
        rw [written, List.nil_append] at front
        have outside := ends '0' (by rw [← same, front]; rfl)
        rw [ten] at outside
        exact absurd ⟨0, by decide, by decide⟩ outside
      | cons d further =>
        rw [written, List.cons_append, List.cons.injEq] at front
        obtain ⟨rfl, front⟩ := front
        cases further with
        | nil =>
          obtain ⟨later, follows⟩ : ∃ later, tail = letter :: later :=
            List.head?_eq_some_iff.mp (by rw [← same, ← List.nil_append rest, front]; rfl)
          exact plain letter later (by rw [written, follows]; rfl)
        | cons e further =>
          rw [List.cons_append, List.cons.injEq] at front
          exact plain letter (further ++ tail) (by rw [written, front.1]; rfl)
    · exact .inr marked

end IntegerLiteral

theorem Fault.OfInteger.inside {fault : Fault} (cause : fault.OfInteger) (levels : Nat) :
    fault.inside levels = fault := by
  rcases cause with rfl | ⟨mark, rfl⟩ | ⟨text, rfl⟩ | ⟨text, rfl⟩ <;> rfl

theorem local_of_longest {literal : IntegerLiteral}
    (longest : IntegerLiteral.Longest here.rest literal tail) :
    here.LocalOver literal.text tail readIntegerToken := by
  have elsewhere {other : Cursor} {rest : List Char} (unread : other.rest = literal.text ++ rest)
      (same : rest.head? = tail.head?) : IntegerLiteral.Longest other.rest literal rest :=
    unread ▸ longest.local same
  cases meant : literal.meaning with
  | error fault =>
    have fixed := (meaning_fault longest meant).inside
    refine local_of_error fault longest.whole fixed ?_
    intro other rest unread same
    rw [readIntegerToken_eq (elsewhere unread same), meant]
    rfl
  | ok value =>
    refine local_of_read ⟨.int (String.ofList literal.text) value, none⟩ longest.whole ?_
    intro other rest unread same
    rw [readIntegerToken_eq (elsewhere unread same), meant]

theorem readIntegerToken_local (here : Cursor) : here.Local readIntegerToken :=
  ⟨_, _, local_of_longest (IntegerLiteral.split_longest here.rest)⟩

theorem readEscaped_local (opening : Position) (content : List Char) (here : Position)
    (text : List Char) :
    ∃ passed tail, text = passed ++ tail ∧
      (readEscaped opening content here text).attempt.StopsAt ⟨here.after passed, tail⟩ ∧
      ∀ front levels rest, rest.head? = tail.head? →
        (readEscaped (opening.after front) content (here.after front) (passed ++ rest)).attempt =
          (readEscaped opening content here text).attempt.inside front levels rest := by
  fun_induction readEscaped opening content here text with
  | case1 content here =>
    refine ⟨[], [], rfl, rfl, ?_⟩
    intro front levels rest same
    obtain rfl : rest = [] := by simpa using same
    rfl
  | case2 content here rest =>
    refine ⟨['"'], rest, rfl, rfl, ?_⟩
    intro front levels rest same
    rw [List.singleton_append, readEscaped_closed]
    simp only [Reading.attempt_read, Attempt.inside, Cursor.inside, Position.past_after]
  | case3 content here =>
    refine ⟨['\\'], [], rfl, by simp [Attempt.StopsAt], ?_⟩
    intro front levels rest same
    obtain rfl : rest = [] := by simpa using same
    simp [readEscaped, Attempt.inside, TagError.inside, Fault.inside, Position.past_after]
  | case4 content here escaped later needed _ ih =>
    obtain ⟨passed, tail, rfl, stops, reads⟩ := ih
    refine ⟨'\\' :: escaped :: passed, tail, rfl, by simpa using stops, ?_⟩
    intro front levels rest same
    rw [List.cons_append, List.cons_append, readEscaped_pair _ _ _ _ needed, ← reads _ _ _ same]
    simp only [Position.past_after]
  | case5 content here escaped later plain =>
    refine ⟨['\\', escaped], later, rfl, by simp [Attempt.StopsAt], ?_⟩
    intro front levels rest same
    simp [readEscaped, plain, Attempt.inside, TagError.inside, Fault.inside, Position.past_after]
  | case6 content here c later notQuote notBackslash ih =>
    obtain ⟨passed, tail, rfl, stops, reads⟩ := ih
    refine ⟨c :: passed, tail, rfl, by simpa using stops, ?_⟩
    intro front levels rest same
    rw [List.cons_append, readEscaped_plain _ _ _ _ ⟨notQuote, notBackslash⟩, ← reads _ _ _ same]
    simp only [Position.past_after]

theorem readBackticks_local {rest : List Char} (front : here.rest = '`' :: rest) :
    here.Local fun here => (readQuoted here).attempt := by
  by_cases closed : '`' ∈ rest
  · obtain ⟨content, tail, rfl, free⟩ := List.eq_append_cons_of_mem closed
    refine ⟨'`' :: (content ++ ['`']), tail, local_of_read content (by simp [front]) ?_⟩
    intro other later unread same
    rw [List.cons_append, List.append_assoc] at unread
    rw [readQuoted_backtick unread, readVerbatim_complete _ free rfl, Cursor.move_move]
    rfl
  · refine ⟨'`' :: rest, [], local_of_error .openBacktick (by simp [front]) (fun _ => rfl) ?_⟩
    intro other later unread same
    obtain rfl : later = [] := by simpa using same
    rw [List.append_nil] at unread
    rw [readQuoted_backtick unread, readVerbatim_open _ _ closed, Cursor.move_rest, Cursor.move_move]
    rfl

theorem readQuoted_local (here : Cursor) : here.Local fun here => (readQuoted here).attempt := by
  have other (double : here.rest.head? ≠ some '"') (back : here.rest.head? ≠ some '`') :
      here.Local fun here => (readQuoted here).attempt := by
    refine local_of_point .noQuote (fun _ => rfl) ?_
    intro other same
    rw [← same] at double back
    unfold readQuoted
    split
    · rename_i front
      simp [front] at double
    · rename_i front
      simp [front] at back
    · rfl
  cases front : here.rest with
  | nil => exact other (by simp [front]) (by simp [front])
  | cons c rest =>
    by_cases double : c = '"'
    · subst double
      obtain ⟨passed, tail, rfl, stops, reads⟩ :=
        readEscaped_local here.position [] (here.position.past '"') rest
      refine ⟨'"' :: passed, tail, front, ?_, ?_⟩
      · simpa [readQuoted, front, Cursor.move] using stops
      · intro front' levels rest same
        have moved := reads front' levels rest same
        rw [Position.past_after] at moved
        simpa [readQuoted, front] using moved
    · by_cases back : c = '`'
      · exact readBackticks_local (back ▸ front)
      · exact other (by simp [front, double]) (by simp [front, back])

theorem readQuotedToken_local (here : Cursor) : here.Local readQuotedToken := by
  refine (readQuoted_local here).map (fun text => ⟨.string (String.ofList text), none⟩) ?_
  intro other
  unfold readQuotedToken
  split <;> simp_all [Reading.attempt, Except.map]

theorem readNameToken_local (here : Cursor) : here.Local readNameToken := by
  refine (readName_local isNameInterior here).map
    (fun name => ⟨.ofName name, some (String.ofList name)⟩) ?_
  intro other
  unfold readNameToken
  split <;> simp_all [Reading.attempt, Except.map]

theorem readToken_integer_eq {place : Place} {c : Char} (front : here.rest = c :: tail)
    (integer : startsInteger c = true) (other : Cursor)
    (same : other.rest.head? = here.rest.head?) :
    readToken place other = readIntegerToken other := by
  obtain ⟨later, unread⟩ := front_of_head front same
  simp only [readToken, unread, integer, if_true]

theorem readToken_signed_local (place : Place) (front : here.rest = '+' :: tail) :
    ∃ passed later, passed ≠ [] ∧ here.LocalOver passed later (readToken place) := by
  have longest := IntegerLiteral.split_longest here.rest
  refine ⟨_, _, ?_, (local_of_longest longest).chosen (readToken_integer_eq front (by decide))⟩
  rcases longest.sign with ⟨-, unsigned⟩ | plus | minus
  · exact absurd rfl (unsigned '+' (by rw [front]; rfl)).1
  · simp [IntegerLiteral.text, plus]
  · simp [IntegerLiteral.text, minus]

theorem readToken_local (place : Place) (here : Cursor) : here.Local (readToken place) := by
  cases front : here.rest with
  | nil =>
    refine local_of_point .noInput (fun _ => rfl) ?_
    intro other same
    have unread : other.rest = [] := by simpa [front] using same
    simp only [readToken, unread]
  | cons c tail =>
    by_cases integer : startsInteger c = true
    · exact (readIntegerToken_local here).chosen (readToken_integer_eq front integer)
    · by_cases quoted : startsQuoted c = true
      · refine (readQuotedToken_local here).chosen ?_
        intro other same
        obtain ⟨later, unread⟩ := front_of_head front same
        simp only [readToken, unread, integer, quoted]
        rfl
      · by_cases name : isNameStart c = true
        · refine (readNameToken_local here).chosen ?_
          intro other same
          obtain ⟨later, unread⟩ := front_of_head front same
          simp only [readToken, unread, integer, quoted, name]
          rfl
        · refine local_of_point (.unexpected c place) (fun _ => rfl) ?_
          intro other same
          obtain ⟨later, unread⟩ := front_of_head front same
          simp only [readToken, unread, integer, quoted, name]
          rfl

end Readers
end CommentTags
