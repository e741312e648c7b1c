import CommentTags.Proofs.Tag.Arguments
import CommentTags.Proofs.Tag.Bookkeeping

/- A run over a written head passes it and holds what it stands for, and so on to the end of the
   text. So every text that the grammar derives is read, and as the tag that its derivation stands
   for. -/
namespace CommentTags
open Unicode
namespace Config

structure Fresh (s : Config) (outer : List Head) (cursor : Cursor) : Prop where
  stage : s.stage = .start
  cursor : s.cursor = cursor
  outer : s.outer = outer
  head : s.head = ⟨"", []⟩
  payload : s.payload = .none
  unnamed : s.pendingName = none
  unheld : s.pendingValue = none

theorem start_fresh (outer : List Head) (cursor : Cursor) :
    Fresh (start outer cursor) outer cursor := ⟨rfl, rfl, rfl, rfl, rfl, rfl, rfl⟩

/-- The head of a tag is read up to the cursor, inside the links of `outer`. -/
structure HeadRead (s : Config) (outer : List Head) (head : Head) (cursor : Cursor) : Prop where
  stage : s.stage = .afterName ∨ s.stage = .afterArguments
  cursor : s.cursor = cursor
  outer : s.outer = outer
  head : s.head = head
  payload : s.payload = .none
  unnamed : s.pendingName = none
  unheld : s.pendingValue = none

theorem run_open {s : Config} {rest : List Char} (stage : s.stage = .afterName)
    (unread : s.cursor.rest = '(' :: rest) (options : Options) :
    run options s =
      run options { s.moved ['('] rest .firstArgument with opening := s.cursor.position } := by
  apply run_of_step unread
  simp [step, stage, skipTo_eq_moved unread]

theorem run_close_empty {options : Options} {s : Config} {rest : List Char}
    (stage : s.stage = .firstArgument) (consistent : Consistent s.head.arguments)
    (unread : s.cursor.rest = ')' :: rest) :
    run options s = run options (s.moved [')'] rest .afterArguments) := by
  have dark : isWhiteSpace ')' = false := by decide
  apply run_of_step unread
  rw [step_awaiting (by rw [stage]; rfl)]
  simp only [readArgument, dark, stage]
  simp only [Bool.false_eq_true, if_false, if_true]
  rw [closeArguments_eq_ok_iff, skipTo_eq_moved unread]
  exact ⟨consistent, rfl⟩

/-- The run to the end of a list does not depend on the options. -/
theorem run_list {s : Config} {outer : List Head} {name : String} {cursor : Cursor}
    {list : ListSpelling} {rest : List Char} (read : HeadRead s outer ⟨name, []⟩ cursor)
    (stage : s.stage = .afterName) (valid : list.Valid) (consistent : Consistent list.arguments)
    (unread : cursor.rest = list.text ++ rest) :
    ∃ after, HeadRead after outer ⟨name, list.arguments⟩ (cursor.move list.text rest) ∧
      ∀ options, run options s = run options after := by
  obtain ⟨_, rfl, rfl, head, payload, unnamed, unheld⟩ := read
  have noArguments : s.head.arguments = [] := by rw [head]
  have named : s.head.name = name := by rw [head]
  let opened (later : List Char) : Config :=
    { s.moved ['('] later .firstArgument with opening := s.cursor.position }
  cases list with
  | absent =>
    rw [ListSpelling.text, List.nil_append] at unread
    refine ⟨s, ⟨.inl stage, ?_, rfl, head, payload, unnamed, unheld⟩, fun _ => rfl⟩
    exact (Cursor.move_nothing unread).symm
  | empty blanks =>
    have unread' : s.cursor.rest = '(' :: (blanks ++ ')' :: rest) := by
      simpa [ListSpelling.text] using unread
    let closing := (opened (blanks ++ ')' :: rest)).moved blanks (')' :: rest) .firstArgument
    refine ⟨closing.moved [')'] rest .afterArguments,
      ⟨.inr rfl, ?_, rfl, head, payload, unnamed, unheld⟩, ?_⟩
    · simp [closing, opened, moved, Cursor.move_move, ListSpelling.text]
    · intro options
      have consistent' : Consistent closing.head.arguments :=
        .inl (by simp [closing, opened, moved, noArguments])
      calc run options s
          = run options (opened (blanks ++ ')' :: rest)) := run_open stage unread' options
        _ = run options closing := run_blanks valid rfl rfl
        _ = run options (closing.moved [')'] rest .afterArguments) :=
          run_close_empty rfl consistent' rfl
  | present first later =>
    obtain ⟨blankBefore, argumentValid, blankBehind⟩ := valid first (by simp)
    have valid' : ∀ slot ∈ later, slot.Valid := fun slot member => valid slot (by simp [member])
    let back := first.behind ++ (Slot.laterText later ++ rest)
    let front := first.argument.text ++ back
    have stops : Stops isNameInterior back :=
      separator_ends_name blankBehind (later_text_separated later rest)
    have unread' : s.cursor.rest = '(' :: (first.before ++ front) := by
      simp [unread, ListSpelling.text, Slot.text, front, back]
    let start := (opened (first.before ++ front)).moved first.before front .firstArgument
    let held := start.moved first.argument.text back .afterArgument
    let arguments := (first :: later).map fun slot => slot.argument.argument
    have consistent' : Consistent (held.head.arguments ++ arguments) := by
      simpa [held, start, opened, moved, noArguments, arguments, ListSpelling.arguments]
        using consistent
    refine ⟨((held.add arguments).moved (first.behind ++ Slot.laterText later) rest
      .afterArguments).pend none none, ⟨.inr rfl, ?_, rfl, ?_, payload, rfl, rfl⟩, ?_⟩
    · simp [held, start, opened, moved, pend, add, Cursor.move_move, ListSpelling.text, Slot.text]
    · simp [held, start, opened, moved, pend, add, head, arguments, ListSpelling.arguments]
    · intro options
      calc run options s
          = run options (opened (first.before ++ front)) := run_open stage unread' options
        _ = run options start := run_blanks blankBefore rfl rfl
        _ = run options (held.pend first.argument.name? (some first.argument.value.token)) :=
          run_argument rfl unnamed argumentValid stops rfl
        _ = _ := run_slots later rfl blankBehind valid' consistent' rfl

theorem run_head {s : Config} {outer : List Head} {cursor : Cursor} {spelling : HeadSpelling}
    {rest : List Char} (fresh : Fresh s outer cursor) (valid : spelling.Valid)
    (stops : Stops isTagNameInterior (spelling.list.text ++ rest))
    (unread : cursor.rest = spelling.text ++ rest) :
    ∃ after, HeadRead after outer spelling.head (cursor.move spelling.text rest) ∧
      ∀ options, run options s = run options after := by
  obtain ⟨stage, rfl, rfl, head, payload, unnamed, unheld⟩ := fresh
  obtain ⟨nameValid, listValid, consistent⟩ := valid
  have unread' : s.cursor.rest = spelling.name ++ (spelling.list.text ++ rest) := by
    simpa [HeadSpelling.text] using unread
  let named := { s.moved spelling.name (spelling.list.text ++ rest) .afterName with
    head := ⟨String.ofList spelling.name, s.head.arguments⟩ }
  have read : HeadRead named s.outer ⟨String.ofList spelling.name, []⟩
      (s.cursor.move spelling.name (spelling.list.text ++ rest)) :=
    ⟨.inl rfl, rfl, rfl, by simp [named, head], payload, unnamed, unheld⟩
  obtain ⟨after, done, same⟩ := run_list read rfl listValid consistent rfl
  refine ⟨after, ?_, ?_⟩
  · rw [Cursor.move_move] at done
    exact done
  · intro options
    rw [← same options]
    exact run_name stage nameValid stops unread'

theorem run_comment {options : Options} {s : Config} {comment : Option (List Char)}
    (stage : s.stage = .afterTag) (unread : s.cursor.rest = commentText comment) :
    (run options s).2 = .ok s.tag := by
  cases comment with
  | none =>
    rw [run_at_end options unread]
    simp [finish, stage]
  | some comment =>
    have dark : isWhiteSpace '/' = false := by decide
    have first : step options s '/' = .ok (s.moved ['/'] ('/' :: comment) .slash) := by
      simp [step, stage, dark, skipTo_eq_moved unread]
    let slash := s.moved ['/'] ('/' :: comment) .slash
    have unread' : slash.cursor.rest = '/' :: comment := rfl
    have second : step options slash '/' = .ok (slash.moved ['/'] comment .comment) := by
      simp [step, slash, skipTo_eq_moved unread']
    rw [run_of_step unread first, run_of_step unread' second]
    cases comment with
    | nil =>
      rw [run_at_end options rfl]
      rfl
    | cons c comment =>
      let inside := slash.moved ['/'] (c :: comment) .comment
      have front : inside.cursor.rest = c :: comment := rfl
      have third : step options inside c =
          .ok { inside with cursor := inside.cursor.takeRest.2, stage := .ended } := rfl
      rw [run_of_step front third, run_at_end options rfl]
      rfl

theorem run_blanks_comment {options : Options} {s : Config} {blanks : List Char}
    {comment : Option (List Char)} (stage : s.stage = .afterTag) (blank : Blank blanks)
    (unread : s.cursor.rest = blanks ++ commentText comment) :
    (run options s).2 = .ok s.tag := by
  rw [run_blanks blank (by rw [stage]; rfl) unread]
  exact run_comment stage rfl

theorem run_equals {options : Options} {s : Config} {rest : List Char}
    (stage : s.stage = .afterName ∨ s.stage = .afterArguments)
    (unread : s.cursor.rest = '=' :: rest) :
    run options s = run options (s.moved ['='] rest .value) := by
  apply run_of_step unread
  rcases stage with stage | stage <;> simp [step, stage, skipTo_eq_moved unread]

theorem step_white {options : Options} {s : Config} {c : Char}
    (stage : s.stage = .afterName ∨ s.stage = .afterArguments) (white : isWhiteSpace c = true) :
    step options s c = .ok { s with stage := .afterTag } := by
  have other (sign : Char) (dark : isWhiteSpace sign = false) : c ≠ sign := by
    rintro rfl
    simp [white] at dark
  rcases stage with stage | stage <;>
    simp [step, stage, white, other '(' (by decide), other '=' (by decide)]

theorem run_payload {options : Options} {s : Config} {value : ScalarSpelling} {rest : List Char}
    (stage : s.stage = .value) (typed : options.raw = false) (valid : value.Valid)
    (stops : Stops isNameInterior rest) (unread : s.cursor.rest = value.text ++ rest) :
    run options s = run options
      { s.moved value.text rest .afterTag with payload := .scalar value.scalar } := by
  have read : readToken .value s.cursor = .ok (value.token, s.cursor.move value.text rest) :=
    readToken_complete .value valid stops unread
  obtain ⟨c, tail, text, starts⟩ := scalar_starts valid
  have front : s.cursor.rest = c :: (tail ++ rest) := by rw [unread, text, List.cons_append]
  have unlinked : s.opensLink c = false := by
    by_cases plus : c = '+'
    · subst plus
      obtain ⟨d, further, tailText, other⟩ := scalar_plus valid text
      simp [opensLink, Cursor.peek, front, tailText, other]
    · simp [opensLink, plus]
  apply run_of_step front
  simp [step, stage, readValue, typed, unlinked, read, moved, ScalarSpelling.token]

theorem run_raw {options : Options} {s : Config} {c : Char} {rest : List Char}
    (stage : s.stage = .value) (isRaw : options.raw = true) (unread : s.cursor.rest = c :: rest) :
    (run options s).2 =
      .ok (enclose s.outer (.single s.head (.raw (String.ofList (c :: rest))))) := by
  let after := { s with
    cursor := s.cursor.takeRest.2
    stage := .ended
    payload := .raw (String.ofList (c :: rest)) }
  have stepped : step options s c = .ok after := by
    simp [step, stage, readValue, isRaw, after, Cursor.takeRest, unread]
  rw [run_of_step unread stepped, run_at_end options rfl]
  rfl

theorem run_link {options : Options} {s : Config} {c : Char} {rest : List Char}
    (stage : s.stage = .afterName ∨ s.stage = .afterArguments) (typed : options.raw = false)
    (first : isNameStart c = true) (shallow : s.outer.length < options.maxDepth)
    (unread : s.cursor.rest = '=' :: '+' :: c :: rest) :
    run options s =
      run options (start (s.head :: s.outer) (s.cursor.move ['=', '+'] (c :: rest))) := by
  let behind := s.moved ['='] ('+' :: c :: rest) .value
  have front : behind.cursor.rest = '+' :: c :: rest := rfl
  have linked : behind.opensLink '+' = true := by
    simp [opensLink, Cursor.peek, front, first]
  have within : ¬ options.maxDepth ≤ behind.outer.length := Nat.not_le.mpr shallow
  have stepped : step options behind '+' =
      .ok (start (s.head :: s.outer) (s.cursor.move ['=', '+'] (c :: rest))) := by
    have skipped : behind.cursor.skip = s.cursor.move ['=', '+'] (c :: rest) := by
      rw [Cursor.skip_eq_move front]
      exact Cursor.move_move _ _ _ _ _
    simp only [step, behind, moved_stage, readValue, typed, Bool.false_eq_true, if_false]
    simp only [linked, if_true, within, if_false, skipped, behind]
    rfl
  rw [run_equals stage unread, run_of_step front stepped]

theorem run_ending {options : Options} {s : Config} {outer : List Head} {head : Head}
    {cursor : Cursor} {ending : Ending} (read : HeadRead s outer head cursor)
    (valid : ending.Valid options.raw)
    (within : options.raw = false → outer.length + (ending.tag head).links ≤ options.maxDepth)
    (unread : cursor.rest = ending.text) :
    (run options s).2 = .ok (enclose outer (ending.tag head)) := by
  -- a link sets one head aside and leaves one link less, so the sum under the cap stays the same
  induction ending generalizing s outer head cursor with
  | nothing =>
    obtain ⟨stage, rfl, rfl, rfl, payload, _, _⟩ := read
    rw [run_at_end options unread]
    rcases stage with stage | stage <;>
      simp [finish, stage, tag_eq_enclose, payload, Ending.tag]
  | blank blanks comment =>
    obtain ⟨stage, rfl, rfl, rfl, payload, _, _⟩ := read
    obtain ⟨blank, something⟩ := valid
    cases blanks with
    | nil => exact absurd rfl something
    | cons b blanks =>
      have front : s.cursor.rest = b :: (blanks ++ commentText comment) := unread
      rw [run_of_step front (step_white stage (blank b (by simp)))]
      rw [run_blanks_comment (s := { s with stage := .afterTag }) rfl blank unread]
      simp [tag_eq_enclose, payload, Ending.tag]
  | scalar value blanks comment =>
    obtain ⟨stage, rfl, rfl, rfl, payload, _, _⟩ := read
    obtain ⟨typed, valueValid, blank⟩ := valid
    let back := blanks ++ commentText comment
    have stops : Stops isNameInterior back :=
      comment_ends_name blank comment
    let behind := s.moved ['='] (value.text ++ back) .value
    rw [run_equals stage unread, run_payload (s := behind) rfl typed valueValid stops rfl,
      run_blanks_comment rfl blank rfl]
    rfl
  | raw text =>
    obtain ⟨stage, rfl, rfl, rfl, payload, _, _⟩ := read
    obtain ⟨isRaw, something⟩ := valid
    cases text with
    | nil => exact absurd rfl something
    | cons c text =>
      rw [run_equals stage unread, run_raw (s := s.moved ['='] (c :: text) .value) rfl isRaw rfl]
      rfl
  | link spelling ending ih =>
    obtain ⟨stage, rfl, rfl, rfl, payload, _, _⟩ := read
    obtain ⟨typed, headValid, endingValid⟩ := valid
    have shallow := within typed
    simp only [Ending.tag, Tag.links] at shallow
    obtain ⟨c, tail, front, first⟩ := head_starts headValid ending.text
    have unread' : s.cursor.rest = '=' :: '+' :: c :: tail := by
      rw [unread, Ending.text, ← front]
    let inside := s.cursor.move ['=', '+'] (c :: tail)
    obtain ⟨after, done, same⟩ := run_head (start_fresh (s.head :: s.outer) inside) headValid
      (list_stops spelling.list endingValid) front.symm
    rw [run_link stage typed first (by omega) unread', same options,
      ih done endingValid (fun _ => by simp only [List.length_cons]; omega) rfl]
    rfl

theorem run_to_head {lead rest : List Char} {spelling : HeadSpelling} (blank : Blank lead)
    (valid : spelling.Valid) (stops : Stops isTagNameInterior (spelling.list.text ++ rest)) :
    ∃ after, HeadRead after [] spelling.head ⟨Position.start.after (lead ++ spelling.text), rest⟩ ∧
      ∀ options, run options (start [] (.start (lead ++ (spelling.text ++ rest)))) =
        run options after := by
  let back := spelling.text ++ rest
  let entered := start [] (.start (lead ++ back))
  have unread : entered.cursor.rest = lead ++ back := rfl
  have fresh : Fresh (entered.moved lead back .start) [] (entered.cursor.move lead back) :=
    ⟨rfl, rfl, rfl, rfl, rfl, rfl, rfl⟩
  obtain ⟨after, done, same⟩ := run_head fresh valid stops rfl
  refine ⟨after, ?_, ?_⟩
  · rw [Cursor.move_move] at done
    exact done
  · intro options
    rw [← same options]
    exact run_blanks blank rfl unread

theorem run_spelling {options : Options} {spelling : TagSpelling}
    (valid : spelling.Valid options.raw)
    (within : options.raw = false → spelling.tag.links ≤ options.maxDepth) :
    (run options (start [] (.start spelling.text))).2 = .ok spelling.tag := by
  obtain ⟨blank, headValid, endingValid⟩ := valid
  obtain ⟨after, done, same⟩ := run_to_head blank headValid
    (list_stops spelling.head.list endingValid)
  calc (run options (start [] (.start spelling.text))).2
      = (run options after).2 := congrArg Prod.snd (same options)
    _ = .ok spelling.tag :=
      run_ending done endingValid (fun typed => by simpa [TagSpelling.tag] using within typed) rfl

end Config
end CommentTags
