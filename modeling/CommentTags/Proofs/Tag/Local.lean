import CommentTags.Proofs.Tag.Elsewhere
import CommentTags.Proofs.Text.Bytes

/- A run is local, as its readers are. Each of its steps does the same wherever the text stands,
   inside whatever links. So an error depends on the text up to one character behind the stretch
   that it shows. -/
namespace CommentTags
open Unicode
namespace Config

section Steps
variable {limit : Nat} {s : Config} {c : Char} {passed tail : List Char}

theorem closeArguments_local (front : s.cursor.rest = ')' :: tail) :
    Local limit (fun _ other => other.closeArguments) s := by
  have fails (fault : Fault) (fixed : ∀ levels, fault.inside levels = fault)
      (closes : ∀ levels like, Alike levels like s → like.closeArguments =
        .error ⟨fault, like.opening, like.cursor.skip.position⟩) :
      Local limit (fun _ other => other.closeArguments) s := by
    have passed : s.cursor.rest = [')'] ++ tail := front
    refine local_of_fails (fun _ => fault) opening passed fixed (Fault.names_none fixed limit)
      (fun _ _ _ => rfl) ?_
    intro levels like rest alike unread heads
    rw [closes levels like alike, Cursor.skip_eq_move unread]
    rfl
  let positional := s.head.arguments.countP Argument.isPositional
  by_cases mixed : 0 < positional ∧ positional < s.head.arguments.length
  · refine fails .mixedArguments (fun _ => rfl) ?_
    intro levels like alike
    simp only [closeArguments, alike.head]
    rw [if_pos mixed]
    rfl
  · by_cases several : 1 < positional
    · refine fails (.severalPositional positional) (fun _ => rfl) ?_
      intro levels like alike
      simp only [closeArguments, alike.head]
      rw [if_neg mixed, if_pos several]
      rfl
    · refine skipTo_local front .afterArguments ?_
      intro levels like alike heads
      simp only [closeArguments, alike.head]
      rw [if_neg mixed, if_neg several]

theorem readArgument_local (front : s.cursor.rest = c :: tail) :
    Local limit (fun _ other => other.readArgument c) s := by
  by_cases white : isWhiteSpace c = true
  · refine skipTo_local front s.stage ?_
    intro levels like alike heads
    simp only [readArgument, white, if_true, alike.stage]
  · by_cases closed : c = ')'
    · subst closed
      by_cases first : s.stage = .firstArgument
      · refine (closeArguments_local front).chosen ?_
        intro levels like alike heads
        simp [readArgument, white, alike.stage, first]
      · by_cases next : s.stage = .nextArgument
        · refine local_of_fault .noArgument (fun _ => rfl) ?_
          intro levels like alike heads
          simp [readArgument, white, alike.stage, next]
        · refine local_of_fault (.noArgumentValue (s.pendingName.getD "")) (fun _ => rfl) ?_
          intro levels like alike heads
          simp [readArgument, white, alike.stage, first, next, alike.pendingName]
    · obtain ⟨passed, later, reads⟩ := readToken_local .argumentList s.cursor
      refine local_of_reads (fun (token : Token) other here =>
        { other with cursor := here, stage := .afterArgument, pendingValue := some token }) reads
        {} ?_
      intro levels like rest alike unread heads
      simp only [readArgument, white, closed]
      cases readToken .argumentList like.cursor <;> rfl

theorem endArgument_local (front : s.cursor.rest = c :: tail) :
    Local limit (fun _ other => other.endArgument c) s := by
  have front' : s.addArgument.cursor.rest = c :: tail := by rw [addArgument_cursor, front]
  by_cases white : isWhiteSpace c = true
  · refine skipTo_local front .afterArgument ?_
    intro levels like alike heads
    simp only [endArgument, white, if_true]
  · by_cases comma : c = ','
    · subst comma
      have skips : Local limit (fun _ other => .ok (other.skipTo .nextArgument)) s.addArgument :=
        skipTo_local front' .nextArgument fun _ _ _ _ => rfl
      refine skips.added.chosen ?_
      intro levels like alike heads
      simp [endArgument, white]
    · by_cases closed : c = ')'
      · subst closed
        refine (closeArguments_local front').added.chosen ?_
        intro levels like alike heads
        simp [endArgument, white]
      · by_cases colon : c = ':'
        · subst colon
          by_cases named : s.pendingName.isSome = true
          · refine local_of_fault (.unexpected ':' .afterNamedArgument) (fun _ => rfl) ?_
            intro levels like alike heads
            simp [endArgument, white, alike.pendingName, named]
          · cases bare : s.pendingValue.bind Token.bare with
            | none =>
              refine local_of_fault .unnamable (fun _ => rfl) ?_
              intro levels like alike heads
              simp [endArgument, white, alike.pendingName, named, alike.pendingValue, bare]
            | some name =>
              let next (other : Config) (here : Cursor) : Config := { other with
                cursor := here
                stage := .argumentValue
                pendingName := some name
                pendingValue := none }
              refine local_of_skips next front {} ?_
              intro levels like rest alike unread heads
              simp [endArgument, white, alike.pendingName, named, alike.pendingValue, bare, skipTo,
                next]
        · refine local_of_fault (.unexpected c .argumentList) (fun _ => rfl) ?_
          intro levels like alike heads
          simp [endArgument, white, comma, closed, colon]

theorem opensLink_eq {d : Char} (front : s.cursor.rest = d :: tail) (c : Char) :
    s.opensLink c = (c == '+' && tail.head?.any isNameStart) := by
  simp [opensLink, Cursor.peek, front, List.head?_eq_getElem?]

theorem readValue_link {options : Options} (typed : options.raw = false)
    (linked : s.opensLink c = true) : readValue options s c =
      if options.maxDepth ≤ s.outer.length then
        .error ⟨.tooDeep options.maxDepth, s.cursor.position, s.cursor.skip.position⟩
      else .ok (start (s.head :: s.outer) s.cursor.skip) := by
  simp only [readValue, typed, linked, Bool.false_eq_true, if_false, if_true]

theorem reads_unlinked (front : s.cursor.rest = c :: tail) (unlinked : s.opensLink c = false) :
    ∃ passed later, s.cursor.LocalOver passed later (readToken .value) ∧
      ∀ (like : Config) rest, like.cursor.rest = passed ++ rest → rest.head? = later.head? →
        like.opensLink c = false := by
  by_cases plus : c = '+'
  · obtain ⟨passed, later, something, reads⟩ := readToken_signed_local .value (plus ▸ front)
    refine ⟨passed, later, reads, ?_⟩
    intro like rest unread heads
    cases passed with
    | nil => exact absurd rfl something
    | cons d more =>
      have here : s.cursor.rest = d :: (more ++ later) := reads.unread
      have there : like.cursor.rest = d :: (more ++ rest) := unread
      rw [opensLink_eq there, append_head more heads, ← opensLink_eq here, unlinked]
  · obtain ⟨passed, later, reads⟩ := readToken_local .value s.cursor
    refine ⟨passed, later, reads, ?_⟩
    intro like rest unread heads
    simp [opensLink, plus]

theorem readValue_local (options : Options) (front : s.cursor.rest = c :: tail) :
    Local options.maxDepth (fun levels other => readValue (options.deeper levels) other c) s := by
  by_cases isRaw : options.raw = true
  · let next (other : Config) (here : Cursor) : Config := { other with
      cursor := here
      stage := .ended
      payload := .raw (String.ofList s.cursor.rest) }
    refine local_of_takes next {} ?_
    intro levels like alike same
    simp [readValue, Options.deeper, isRaw, Cursor.takeRest, same, next]
  · have typed (levels : Nat) : (options.deeper levels).raw = false := Bool.eq_false_iff.mpr isRaw
    by_cases linked : s.opensLink c = true
    · have opens {like : Config} {rest : List Char} (unread : like.cursor.rest = c :: rest)
          (heads : rest.head? = tail.head?) : like.opensLink c = true := by
        rw [opensLink_eq unread, heads, ← opensLink_eq front, linked]
      by_cases deep : options.maxDepth ≤ s.outer.length
      · have passed : s.cursor.rest = [c] ++ tail := front
        refine local_of_fails (fun levels => .tooDeep (options.maxDepth + levels))
          (fun like => like.cursor.position) passed (fun _ => rfl)
          (fun other named => (Fault.tooDeep.inj named).symm) (fun _ _ _ => rfl) ?_
        intro levels like rest alike unread heads
        have deep' : (options.deeper levels).maxDepth ≤ like.outer.length := by
          rw [alike.outer]
          exact Nat.add_le_add_right deep levels
        rw [readValue_link (typed levels) (opens unread heads), if_pos deep',
          Cursor.skip_eq_move unread]
        rfl
      · refine local_of_skips (fun other here => start (other.head :: other.outer) here) front
          {} ?_
        intro levels like rest alike unread heads
        have shallow : ¬ (options.deeper levels).maxDepth ≤ like.outer.length := by
          rw [alike.outer]
          exact fun deep' => deep (Nat.le_of_add_le_add_right deep')
        rw [readValue_link (typed levels) (opens unread heads), if_neg shallow]
    · obtain ⟨passed, later, reads, unlinked⟩ := reads_unlinked front (Bool.eq_false_iff.mpr linked)
      let next (token : Token) (other : Config) (here : Cursor) : Config := { other with
        cursor := here
        stage := .afterTag
        payload := .scalar token.value }
      refine local_of_reads next reads {} ?_
      intro levels like rest alike unread heads
      simp only [readValue, typed, unlinked like rest unread heads]
      cases readToken .value like.cursor <;> rfl

theorem step_local (options : Options) (front : s.cursor.rest = c :: tail) :
    Local options.maxDepth (fun levels other => step (options.deeper levels) other c) s := by
  cases stage : s.stage with
  | start =>
    by_cases white : isWhiteSpace c = true
    · refine skipTo_local front .start ?_
      intro levels like alike heads
      simp [step, alike.stage, stage, white]
    · by_cases first : isNameStart c = true
      · refine local_of_stays .tagName ?_
        intro levels like alike heads
        simp [step, alike.stage, stage, white, first]
      · refine local_of_fault (.unexpected c .tagStart) (fun _ => rfl) ?_
        intro levels like alike heads
        simp [step, alike.stage, stage, white, first]
  | tagName =>
    obtain ⟨passed, later, reads⟩ := readName_local isTagNameInterior s.cursor
    let next (name : List Char) (other : Config) (here : Cursor) : Config := { other with
      cursor := here
      stage := .afterName
      head := ⟨String.ofList name, other.head.arguments⟩ }
    refine local_of_reads next reads {} ?_
    intro levels like rest alike unread heads
    simp only [step, alike.stage, stage]
    rcases readName isTagNameInterior like.cursor with ⟨error | name, beyond⟩ <;> rfl
  | afterName =>
    by_cases opened : c = '('
    · let next (other : Config) (here : Cursor) : Config := { other with
        cursor := here
        stage := .firstArgument
        opening := other.cursor.position }
      refine local_of_skips next front {} ?_
      intro levels like rest alike unread heads
      simp [step, alike.stage, stage, opened, skipTo, next]
    · by_cases equals : c = '='
      · refine skipTo_local front .value ?_
        intro levels like alike heads
        simp [step, alike.stage, stage, equals]
      · by_cases white : isWhiteSpace c = true
        · refine local_of_stays .afterTag ?_
          intro levels like alike heads
          simp [step, alike.stage, stage, opened, equals, white]
        · refine local_of_fault (.unexpected c .afterTagName) (fun _ => rfl) ?_
          intro levels like alike heads
          simp [step, alike.stage, stage, opened, equals, white]
  | firstArgument | nextArgument | argumentValue =>
    refine (readArgument_local front).chosen ?_
    intro levels like alike heads
    simp only [step, alike.stage, stage]
  | afterArgument =>
    refine (endArgument_local front).chosen ?_
    intro levels like alike heads
    simp only [step, alike.stage, stage]
  | afterArguments =>
    by_cases equals : c = '='
    · refine skipTo_local front .value ?_
      intro levels like alike heads
      simp [step, alike.stage, stage, equals]
    · by_cases white : isWhiteSpace c = true
      · refine local_of_stays .afterTag ?_
        intro levels like alike heads
        simp [step, alike.stage, stage, equals, white]
      · refine local_of_fault (.unexpected c .afterArguments) (fun _ => rfl) ?_
        intro levels like alike heads
        simp [step, alike.stage, stage, equals, white]
  | value =>
    refine (readValue_local options front).chosen ?_
    intro levels like alike heads
    simp only [step, alike.stage, stage]
  | afterTag =>
    by_cases white : isWhiteSpace c = true
    · refine skipTo_local front .afterTag ?_
      intro levels like alike heads
      simp [step, alike.stage, stage, white]
    · by_cases slash : c = '/'
      · subst slash
        refine skipTo_local front .slash ?_
        intro levels like alike heads
        simp [step, alike.stage, stage, white]
      · refine local_of_fault (.unexpected c .afterTag) (fun _ => rfl) ?_
        intro levels like alike heads
        simp [step, alike.stage, stage, white, slash]
  | slash =>
    by_cases slash : c = '/'
    · refine skipTo_local front .comment ?_
      intro levels like alike heads
      simp [step, alike.stage, stage, slash]
    · refine local_of_fault .noComment (fun _ => rfl) ?_
      intro levels like alike heads
      simp [step, alike.stage, stage, slash]
  | comment =>
    let next (other : Config) (here : Cursor) : Config :=
      { other with cursor := here, stage := .ended }
    refine local_of_takes next {} ?_
    intro levels like alike same
    simp only [step, alike.stage, stage, next]
  | ended =>
    refine local_of_fault (.unexpected c .afterEnd) (fun _ => rfl) ?_
    intro levels like alike heads
    simp only [step, alike.stage, stage]

theorem front_inside {further rest : List Char} (front : s.cursor.rest = c :: further)
    (unread : s.cursor.rest = passed ++ tail) (heads : rest.head? = tail.head?)
    (before : List Char) (outer : List Head) :
    ∃ back, (s.inside before outer (passed ++ rest)).cursor.rest = c :: back := by
  refine List.head?_eq_some_iff.mp ?_
  show (passed ++ rest).head? = some c
  rw [append_head passed heads, ← unread, front, List.head?_cons]

end Steps

def surrounded (front : List Char) (outer : List Head) : Except TagError Tag → Except TagError Tag
  | .error error => .error (error.inside front outer.length)
  | .ok tag => .ok (enclose outer tag)

theorem finish_inside (s : Config) (front : List Char) (outer : List Head) (rest : List Char) :
    (s.inside front outer rest).finish = surrounded front outer s.finish := by
  have tag : (s.inside front outer rest).tag = enclose outer s.tag := List.foldl_append
  cases stage : s.stage <;> simp only [finish, inside, stage] <;>
    first | rfl | exact congrArg Except.ok tag

theorem finish_stops {s : Config} {error : TagError} (failed : s.finish = .error error) :
    error.stop = s.cursor.position ∧ ∀ levels, error.fault.inside levels = error.fault := by
  cases stage : s.stage <;> simp only [finish, stage, fail, reduceCtorEq] at failed <;>
    rw [← Except.error.inj failed] <;> exact ⟨rfl, fun _ => rfl⟩

/-- A run that accepts passes the whole text, and one that fails stops where its error ends. The
    only limit that an error names is the one that was exceeded. -/
theorem run_local (options : Options) (s : Config) :
    ∃ passed tail, s.cursor.rest = passed ++ tail ∧
      (∀ error, (run options s).2 = .error error →
        error.stop = s.cursor.position.after passed ∧
          ∀ limit, error.fault = .tooDeep limit → limit = options.maxDepth) ∧
      ∀ front outer rest, rest.head? = tail.head? →
        (run (options.deeper outer.length) (s.inside front outer (passed ++ rest))).2 =
          surrounded front outer (run options s).2 := by
  fun_induction run options s with
  | case1 s unread =>
    refine ⟨[], [], unread, ?_, ?_⟩
    · intro error failed
      obtain ⟨stop, fixed⟩ := finish_stops failed
      exact ⟨stop, Fault.names_none fixed options.maxDepth⟩
    · intro front outer rest heads
      obtain rfl : rest = [] := by simpa using heads
      rw [run_at_end _ rfl]
      exact finish_inside s front outer _
  | case2 s c rest front error stepped =>
    obtain ⟨passed, tail, unread, stops, elsewhere⟩ := step_local options front
    have stepped' : step (options.deeper 0) s c = .error error := stepped
    simp only [stepped'] at stops elsewhere
    refine ⟨passed, tail, unread, ?_, ?_⟩
    · intro other failed
      rw [← Except.error.inj failed]
      exact stops
    · intro before outer later heads
      obtain ⟨back, front'⟩ := front_inside front unread heads before outer
      rw [run_step _ front', elsewhere before outer later heads]
      rfl
  | case3 s c rest front after stepped ih =>
    obtain ⟨passed, tail, unread, stops, elsewhere⟩ := step_local options front
    have stepped' : step (options.deeper 0) s c = .ok after := stepped
    simp only [stepped'] at stops elsewhere
    obtain ⟨further, last, unread', stops', elsewhere'⟩ := ih
    have placed : after.cursor = s.cursor.move passed tail := stops
    rw [placed] at unread' stops'
    obtain rfl : tail = further ++ last := unread'
    refine ⟨passed ++ further, last, by rw [unread, List.append_assoc], ?_, ?_⟩
    · intro error failed
      rw [Position.after_append]
      exact stops' error failed
    · intro before outer later heads
      have heads' : (further ++ later).head? = (further ++ last).head? :=
        append_head further heads
      obtain ⟨back, front'⟩ := front_inside front unread heads' before outer
      rw [List.append_assoc, run_step _ front', elsewhere before outer _ heads']
      exact elsewhere' before outer later heads

theorem run_inside (options : Options) (s : Config) (front : List Char) (outer : List Head) :
    (run (options.deeper outer.length) (s.inside front outer s.cursor.rest)).2 =
      surrounded front outer (run options s).2 := by
  obtain ⟨passed, tail, unread, -, elsewhere⟩ := run_local options s
  rw [unread]
  exact elsewhere front outer tail rfl

end Config

theorem TagError.inside_nothing (error : TagError) : error.inside [] 0 = error := by
  obtain ⟨fault, start, stop⟩ := error
  cases fault <;> rfl

namespace Tag

/-- What follows the character at the end of an error cannot change the error. -/
theorem parse_error_local {options : Options} {text : String} {error : TagError}
    (failed : parse options text = .error error)
    (within : error.stop.offset < byteLength (trimEnd text.toList)) :
    ∃ front c back, cutAt? error.stop.offset (trimEnd text.toList) = some (front, c :: back) ∧
      ∀ other : String, front ++ [c] <+: trimEnd other.toList →
        parse options other = .error error := by
  obtain ⟨front, tail, split, stops, elsewhere⟩ :=
    Config.run_local options (.start [] (.start (trimEnd text.toList)))
  have split' : trimEnd text.toList = front ++ tail := split
  have stop : error.stop.offset = byteLength front := by
    rw [(stops error failed).1]
    exact Nat.zero_add _
  rw [split', stop] at within
  cases tail with
  | nil => simp at within
  | cons c back =>
    refine ⟨front, c, back, ?_, ?_⟩
    · rw [split', stop, cutAt?_byteLength]
    · rintro other ⟨later, begins⟩
      have begins' : front ++ c :: later = trimEnd other.toList := by
        rw [← begins, List.append_assoc, List.singleton_append]
      have same := elsewhere [] [] (c :: later) rfl
      rw [show (Config.run options _).2 = .error error from failed, begins'] at same
      exact same.trans (congrArg Except.error error.inside_nothing)

theorem octal_error_local :
    let error : TagError := ⟨.notOctal "08", ⟨5, 6⟩, ⟨7, 8⟩⟩
    parse {} "é=+b=08 // c" = .error error ∧ parse {} "é=+b=08 )" = .error error := by
  intro error
  have failed : parse {} "é=+b=08 // c" = .error error := by decide +kernel
  obtain ⟨front, c, back, cut, alike⟩ := parse_error_local failed (by decide)
  obtain ⟨rfl, rfl, rfl⟩ : "é=+b=08".toList = front ∧ ' ' = c ∧ "// c".toList = back := by
    have shown : cutAt? 8 (trimEnd "é=+b=08 // c".toList) =
      some ("é=+b=08".toList, ' ' :: "// c".toList) := by decide
    simpa using shown.symm.trans cut
  exact ⟨failed, alike _ (by decide)⟩

end Tag
end CommentTags
