import CommentTags.Proofs.Tag.Bookkeeping

/- What the text left to read must be for a run to end in a given tag. It is said once for each
   stage; one move after the other, it is then carried from the end of a run back to its start. -/
namespace CommentTags
open Unicode
namespace Config

section Demands
variable (isRaw : Bool) (outer : List Head) (tag : Tag)

def Ends (head : Head) (rest : List Char) : Prop :=
  ∃ ending : Ending, ending.Valid isRaw ∧ rest = ending.text ∧ tag = enclose outer (ending.tag head)

/-- The rest closes the list behind `argument`, its last one read, and ends the tag. -/
def Closes (head : Head) (argument : Argument) (rest : List Char) : Prop :=
  ∃ behind later back, Blank behind ∧ (∀ slot ∈ later, slot.Valid) ∧
    rest = behind ++ (Slot.laterText later ++ back) ∧
    Consistent (head.arguments ++ argument :: later.map fun slot => slot.argument.argument) ∧
    Ends isRaw outer tag ⟨head.name,
      head.arguments ++ argument :: later.map fun slot => slot.argument.argument⟩ back

def Continues (head : Head) (rest : List Char) : Prop :=
  ∃ (before : List Char) (argument : ArgumentSpelling) (back : List Char),
    Blank before ∧ argument.Valid ∧ rest = before ++ (argument.text ++ back) ∧
    Closes isRaw outer tag head argument.argument back

def Supplies (head : Head) (name : String) (rest : List Char) : Prop :=
  ∃ (behind : List Char) (value : ScalarSpelling) (back : List Char),
    Blank behind ∧ value.Valid ∧ rest = behind ++ (value.text ++ back) ∧
    Closes isRaw outer tag head ⟨name, value.scalar⟩ back

/-- The rest ends the argument whose last token is read: the argument is complete, or a colon
    turns its bare name into the name of a value. -/
def Completes (head : Head) (name? : Option String) (token : Token) (rest : List Char) : Prop :=
  Closes isRaw outer tag head ⟨name?.getD "", token.value⟩ rest ∨
    ∃ name before back, name? = none ∧ token.bare = some name ∧ Blank before ∧
      rest = before ++ ':' :: back ∧ Supplies isRaw outer tag head name back

variable {isRaw : Bool} {outer : List Head} {tag : Tag} {head : Head} {rest : List Char}

theorem closes_blank {argument : Argument} {c : Char} (white : isWhiteSpace c = true)
    (closes : Closes isRaw outer tag head argument rest) :
    Closes isRaw outer tag head argument (c :: rest) := by
  obtain ⟨behind, later, back, blank, valid, rfl, consistent, ends⟩ := closes
  exact ⟨c :: behind, later, back, blank_cons white blank, valid, rfl, consistent, ends⟩

theorem continues_blank {c : Char} (white : isWhiteSpace c = true)
    (continues : Continues isRaw outer tag head rest) :
    Continues isRaw outer tag head (c :: rest) := by
  obtain ⟨before, argument, back, blank, valid, rfl, closes⟩ := continues
  exact ⟨c :: before, argument, back, blank_cons white blank, valid, rfl, closes⟩

theorem supplies_blank {name : String} {c : Char} (white : isWhiteSpace c = true)
    (supplies : Supplies isRaw outer tag head name rest) :
    Supplies isRaw outer tag head name (c :: rest) := by
  obtain ⟨behind, value, back, blank, valid, rfl, closes⟩ := supplies
  exact ⟨c :: behind, value, back, blank_cons white blank, valid, rfl, closes⟩

theorem completes_blank {name? : Option String} {token : Token} {c : Char}
    (white : isWhiteSpace c = true)
    (completes : Completes isRaw outer tag head name? token rest) :
    Completes isRaw outer tag head name? token (c :: rest) := by
  rcases completes with closes | ⟨name, before, back, unnamed, bare, blank, rfl, supplies⟩
  · exact .inl (closes_blank white closes)
  · exact .inr ⟨name, c :: before, back, unnamed, bare, blank_cons white blank, rfl, supplies⟩

theorem closes_comma {argument : Argument}
    (continues : Continues isRaw outer tag ⟨head.name, head.arguments ++ [argument]⟩ rest) :
    Closes isRaw outer tag head argument (',' :: rest) := by
  obtain ⟨before, further, _, blank, valid, rfl, behind, later, back, blank', valid', rfl,
    consistent, ends⟩ := continues
  refine ⟨[], ⟨before, further, behind⟩ :: later, back, blank_nil, ?_, ?_, ?_, ?_⟩
  · intro slot member
    rcases List.mem_cons.mp member with rfl | rest
    · exact ⟨blank, valid, blank'⟩
    · exact valid' slot rest
  · simp [Slot.laterText, Slot.text]
  · simpa using consistent
  · simpa using ends

theorem closes_close {argument : Argument} (consistent : Consistent (head.arguments ++ [argument]))
    (ends : Ends isRaw outer tag ⟨head.name, head.arguments ++ [argument]⟩ rest) :
    Closes isRaw outer tag head argument (')' :: rest) :=
  ⟨[], [], rest, blank_nil, by simp, rfl, consistent, ends⟩

/-- A bare name is the only token that a colon may follow. -/
theorem continues_token {spelling : ScalarSpelling} (valid : spelling.Valid)
    (completes : Completes isRaw outer tag head none spelling.token rest) :
    Continues isRaw outer tag head (spelling.text ++ rest) := by
  rcases completes with closes | ⟨name, before, back, _, bare, blank, rfl, supplies⟩
  · exact ⟨[], .positional spelling, rest, blank_nil, valid, rfl, closes⟩
  · obtain ⟨behind, value, rest, blank', valid', rfl, closes⟩ := supplies
    cases spelling with
    | bare text =>
      obtain rfl := Option.some.inj bare
      refine ⟨[], .named text before behind value, rest, blank_nil,
        ⟨valid, blank, blank', valid'⟩, ?_, closes⟩
      simp [ScalarSpelling.text, ArgumentSpelling.text]
    | integer | quoted | verbatim => simp [ScalarSpelling.token, ScalarSpelling.bareName?] at bare

theorem supplies_token {name : String} {spelling : ScalarSpelling} (valid : spelling.Valid)
    (completes : Completes isRaw outer tag head (some name) spelling.token rest) :
    Supplies isRaw outer tag head name (spelling.text ++ rest) := by
  rcases completes with closes | ⟨_, _, _, unnamed, _⟩
  · exact ⟨[], spelling, rest, blank_nil, valid, rfl, closes⟩
  · simp at unnamed

end Demands

def Remains (isRaw : Bool) (s : Config) (tag : Tag) : Prop :=
  match s.stage with
  | .start => ∃ spelling : TagSpelling, spelling.Valid isRaw ∧ s.cursor.rest = spelling.text ∧
      tag = enclose s.outer spelling.tag
  | .tagName => ∃ spelling : TagSpelling, spelling.Valid isRaw ∧
      spelling.lead = [] ∧ s.cursor.rest = spelling.text ∧ tag = enclose s.outer spelling.tag
  | .afterName => ∃ (list : ListSpelling) (back : List Char), list.Valid ∧
      Consistent list.arguments ∧ s.cursor.rest = list.text ++ back ∧
      Ends isRaw s.outer tag ⟨s.head.name, list.arguments⟩ back
  | .firstArgument => Continues isRaw s.outer tag s.head s.cursor.rest ∨
      ∃ blanks back, Blank blanks ∧ s.cursor.rest = blanks ++ ')' :: back ∧
        Ends isRaw s.outer tag s.head back
  | .nextArgument => Continues isRaw s.outer tag s.head s.cursor.rest
  | .argumentValue => ∃ name, s.pendingName = some name ∧
      Supplies isRaw s.outer tag s.head name s.cursor.rest
  | .afterArgument => ∃ token, s.pendingValue = some token ∧
      Completes isRaw s.outer tag s.head s.pendingName token s.cursor.rest
  | .afterArguments => Ends isRaw s.outer tag s.head s.cursor.rest
  | .value => Ends isRaw s.outer tag s.head ('=' :: s.cursor.rest)
  | .afterTag => ∃ blanks comment, Blank blanks ∧
      s.cursor.rest = blanks ++ commentText comment ∧ tag = s.tag
  | .slash => ∃ comment, s.cursor.rest = '/' :: comment ∧ tag = s.tag
  | .comment => tag = s.tag
  | .ended => s.cursor.rest = [] ∧ tag = s.tag

theorem skip_rest {here : Cursor} {c : Char} {rest : List Char} (front : here.rest = c :: rest) :
    here.skip.rest = rest := by
  rw [Cursor.skip_eq_move front, Cursor.move_rest]

section Moves
variable {isRaw : Bool} {s : Config} {c : Char} {rest : List Char} {tag : Tag}

theorem remains_blank (front : s.cursor.rest = c :: rest) (skips : s.stage.skipsBlanks = true)
    (white : isWhiteSpace c = true) (remains : Remains isRaw (s.skipTo s.stage) tag) :
    Remains isRaw s tag := by
  unfold Remains at *
  simp only [skipTo, skip_rest front] at remains
  simp only [front]
  cases stage : s.stage <;> simp only [stage] at remains skips ⊢
  case start =>
    obtain ⟨spelling, ⟨blank, valid⟩, rfl, same⟩ := remains
    exact ⟨⟨c :: spelling.lead, spelling.head, spelling.ending⟩, ⟨blank_cons white blank, valid⟩,
      rfl, same⟩
  case firstArgument =>
    rcases remains with continues | ⟨blanks, back, blank, rfl, ends⟩
    · exact .inl (continues_blank white continues)
    · exact .inr ⟨c :: blanks, back, blank_cons white blank, rfl, ends⟩
  case nextArgument => exact continues_blank white remains
  case argumentValue =>
    obtain ⟨name, named, supplies⟩ := remains
    exact ⟨name, named, supplies_blank white supplies⟩
  case afterArgument =>
    obtain ⟨token, held, completes⟩ := remains
    exact ⟨token, held, completes_blank white completes⟩
  case afterTag =>
    obtain ⟨blanks, comment, blank, rfl, same⟩ := remains
    exact ⟨c :: blanks, comment, blank_cons white blank, rfl, same⟩
  all_goals simp [Stage.skipsBlanks] at skips

theorem remains_name {text : List Char} {beyond : Cursor} (stage : s.stage = .tagName)
    (read : readName isTagNameInterior s.cursor = ⟨.ok text, beyond⟩)
    (remains : Remains isRaw { s with
      cursor := beyond
      stage := .afterName
      head := ⟨String.ofList text, s.head.arguments⟩ } tag) : Remains isRaw s tag := by
  obtain ⟨named, moved⟩ := readName_sound read
  simp only [Remains] at remains
  obtain ⟨list, back, valid, consistent, unread, ending, endingValid, rfl, same⟩ := remains
  simp only [Remains, stage]
  refine ⟨⟨[], ⟨text, list⟩, ending⟩, ⟨blank_nil, ⟨named, valid, consistent⟩, endingValid⟩,
    rfl, ?_, same⟩
  rw [moved.1, unread]
  simp [TagSpelling.text, HeadSpelling.text]

theorem remains_opening (front : s.cursor.rest = '(' :: rest) (stage : s.stage = .afterName)
    (noArguments : s.head.arguments = [])
    (remains : Remains isRaw { s.skipTo .firstArgument with opening := s.cursor.position } tag) :
    Remains isRaw s tag := by
  simp only [Remains, skipTo, skip_rest front] at remains
  simp only [Remains, stage, front]
  rcases remains with ⟨before, argument, _, blank, valid, rfl, behind, later, back, blank',
    valid', rfl, consistent, ends⟩ | ⟨blanks, back, blank, rfl, ends⟩
  · rw [noArguments, List.nil_append] at consistent ends
    refine ⟨.present ⟨before, argument, behind⟩ later, back, ?_, consistent, ?_, ends⟩
    · intro slot member
      rcases List.mem_cons.mp member with rfl | rest
      · exact ⟨blank, valid, blank'⟩
      · exact valid' slot rest
    · simp [ListSpelling.text, Slot.text]
  · refine ⟨.empty blanks, back, blank, .inl (by simp [ListSpelling.arguments]), ?_, ?_⟩
    · simp [ListSpelling.text]
    · rw [ListSpelling.arguments, ← noArguments]
      exact ends

theorem remains_of_ends (stage : s.stage = .afterName ∨ s.stage = .afterArguments)
    (noArguments : s.stage.precedesArguments = true → s.head.arguments = [])
    (ends : Ends isRaw s.outer tag s.head s.cursor.rest) : Remains isRaw s tag := by
  rcases stage with stage | stage
  · simp only [Remains, stage]
    refine ⟨.absent, s.cursor.rest, trivial, .inl (by simp [ListSpelling.arguments]), rfl, ?_⟩
    rw [ListSpelling.arguments, ← noArguments (by rw [stage]; rfl)]
    exact ends
  · simp only [Remains, stage]
    exact ends

theorem ends_white (front : s.cursor.rest = c :: rest) (white : isWhiteSpace c = true)
    (noPayload : s.payload = .none)
    (remains : Remains isRaw { s with stage := .afterTag } tag) :
    Ends isRaw s.outer tag s.head s.cursor.rest := by
  simp only [Remains] at remains
  obtain ⟨blanks, comment, blank, unread, same⟩ := remains
  have something : blanks ≠ [] := by
    rintro rfl
    rw [front] at unread
    cases comment with
    | none => simp [commentText] at unread
    | some comment =>
      simp only [commentText, List.nil_append, List.cons.injEq] at unread
      rw [unread.1] at white
      exact absurd white (by decide)
  refine ⟨.blank blanks comment, ⟨blank, something⟩, unread, ?_⟩
  rw [same, tag_eq_enclose, noPayload]
  rfl

theorem remains_scalar {token : Token} {beyond : Cursor} (settled : Settled s)
    (awaits : s.stage.awaitsArgument = true)
    (read : readToken .argumentList s.cursor = .ok (token, beyond))
    (remains : Remains isRaw { s with
      cursor := beyond
      stage := .afterArgument
      pendingValue := some token } tag) : Remains isRaw s tag := by
  obtain ⟨spelling, valid, moved, rfl⟩ := readToken_sound read
  simp only [Remains] at remains
  obtain ⟨token, held, completes⟩ := remains
  obtain rfl := Option.some.inj held
  have pended := settled.pended
  unfold Pended at pended
  unfold Remains
  rw [moved.1]
  cases stage : s.stage <;> simp only [stage] at pended awaits ⊢
  case firstArgument =>
    rw [pended.1] at completes
    exact .inl (continues_token valid completes)
  case nextArgument =>
    rw [pended.1] at completes
    exact continues_token valid completes
  case argumentValue =>
    obtain ⟨⟨name, _, named⟩, _⟩ := pended
    rw [named] at completes
    exact ⟨String.ofList name, named, supplies_token valid completes⟩
  all_goals simp [Stage.awaitsArgument] at awaits

theorem ends_link {first : Char} {outer : List Head} {head : Head} {cursor : Cursor}
    (front : cursor.rest = first :: rest) (letter : isNameStart first = true)
    (remains : Remains false (start (head :: outer) cursor) tag) :
    Ends false outer tag head ('=' :: '+' :: cursor.rest) := by
  simp only [Remains, start] at remains
  obtain ⟨⟨lead, inner, ending⟩, ⟨blank, valid⟩, unread, same⟩ := remains
  cases lead with
  | nil =>
    refine ⟨.link inner ending, ⟨rfl, valid⟩, ?_, same⟩
    rw [unread]
    rfl
  | cons b lead =>
    rw [front] at unread
    simp only [TagSpelling.text, List.cons_append, List.cons.injEq] at unread
    have white := blank b (by simp)
    rw [← unread.1, name_start_not_white letter] at white
    simp at white

theorem remains_of_move {options : Options} {s after : Config} (settled : Settled s)
    (front : s.cursor.rest = c :: rest) (move : Move options s c after)
    (remains : Remains options.raw after tag) : Remains options.raw s tag := by
  cases move with
  | blank skips white => exact remains_blank front skips white remains
  | enter stage =>
    simp only [Remains, stage] at remains ⊢
    obtain ⟨spelling, valid, _, unread, same⟩ := remains
    exact ⟨spelling, valid, unread, same⟩
  | name stage read => exact remains_name stage read remains
  | opening stage first =>
    exact remains_opening (first ▸ front) stage (settled.noArguments (by rw [stage]; rfl)) remains
  | equals stage first =>
    refine remains_of_ends stage settled.noArguments ?_
    simp only [Remains, skipTo, skip_rest front] at remains
    rw [front, first]
    exact remains
  | white stage white =>
    have noPayload : s.payload = .none := by
      apply settled.noPayload
      rcases stage with stage | stage <;> rw [stage] <;> rfl
    exact remains_of_ends stage settled.noArguments (ends_white front white noPayload remains)
  | closeEmpty stage first consistent =>
    simp only [Remains, skipTo, skip_rest front] at remains
    simp only [Remains, stage, front, first]
    exact .inr ⟨[], rest, blank_nil, rfl, remains⟩
  | scalar awaits read => exact remains_scalar settled awaits read remains
  | comma stage first =>
    obtain ⟨spelling, _, held⟩ := settled.pended.held stage
    rw [addArgument_pending s held] at remains
    simp only [Remains, skipTo, skip_rest front] at remains
    simp only [Remains, stage, front, first]
    exact ⟨spelling.token, held, .inl (closes_comma remains)⟩
  | close stage first consistent =>
    obtain ⟨spelling, _, held⟩ := settled.pended.held stage
    rw [addArgument_pending s held] at remains consistent
    simp only [Remains, skipTo, skip_rest front] at remains
    simp only [Remains, stage, front, first]
    exact ⟨spelling.token, held, .inl (closes_close consistent remains)⟩
  | colon stage first unnamed bare =>
    obtain ⟨spelling, _, held⟩ := settled.pended.held stage
    rw [held] at bare
    simp only [Remains, skipTo, skip_rest front] at remains
    simp only [Remains, stage, front, first]
    obtain ⟨name, named, supplies⟩ := remains
    obtain rfl := Option.some.inj named
    exact ⟨spelling.token, held, .inr ⟨_, [], rest, unnamed, bare, blank_nil, rfl, supplies⟩⟩
  | raw stage isRaw =>
    simp only [Remains] at remains
    simp only [Remains, stage]
    exact ⟨.raw s.cursor.rest, ⟨isRaw, by simp [front]⟩, rfl, remains.2⟩
  | link stage typed linked =>
    simp only [opensLink, Bool.and_eq_true, beq_iff_eq] at linked
    obtain ⟨rfl, letter⟩ := linked
    cases rest with
    | nil => simp [Cursor.peek, front] at letter
    | cons first later =>
      have letter' : isNameStart first = true := by simpa [Cursor.peek, front] using letter
      have unread : s.cursor.skip.rest = first :: later := skip_rest front
      rw [typed] at remains ⊢
      simp only [Remains, stage]
      rw [front, ← unread]
      exact ends_link unread letter' remains
  | payload stage typed read =>
    obtain ⟨spelling, valid, moved, rfl⟩ := readToken_sound read
    simp only [Remains] at remains
    simp only [Remains, stage]
    obtain ⟨blanks, comment, blank, unread, same⟩ := remains
    refine ⟨.scalar spelling blanks comment, ⟨typed, valid, blank⟩, ?_, same⟩
    rw [moved.1, unread]
    rfl
  | slash stage first =>
    simp only [Remains, skipTo, skip_rest front] at remains
    simp only [Remains, stage, front, first]
    obtain ⟨comment, rfl, same⟩ := remains
    exact ⟨[], some comment, blank_nil, rfl, same⟩
  | comment stage first =>
    simp only [Remains, skipTo] at remains
    simp only [Remains, stage, front, first]
    exact ⟨rest, rfl, remains⟩
  | remark stage =>
    simp only [Remains] at remains
    simp only [Remains, stage]
    exact remains.2

theorem remains_of_finish (settled : Settled s) (unread : s.cursor.rest = [])
    (finished : s.finish = .ok tag) : Remains isRaw s tag := by
  have same : tag = s.tag := finish_tag finished
  have ends (noPayload : s.payload = .none) : Ends isRaw s.outer tag s.head s.cursor.rest := by
    refine ⟨.nothing, trivial, unread, ?_⟩
    rw [same, tag_eq_enclose, noPayload]
    rfl
  unfold finish at finished
  cases stage : s.stage <;> simp only [stage, fail, reduceCtorEq] at finished
  case afterName =>
    exact remains_of_ends (.inl stage) settled.noArguments
      (ends (settled.noPayload (by rw [stage]; rfl)))
  case afterArguments =>
    exact remains_of_ends (.inr stage) settled.noArguments
      (ends (settled.noPayload (by rw [stage]; rfl)))
  case afterTag =>
    simp only [Remains, stage]
    exact ⟨[], none, blank_nil, unread, same⟩
  case comment =>
    simp only [Remains, stage]
    exact same
  case ended =>
    simp only [Remains, stage]
    exact ⟨unread, same⟩

end Moves

theorem run_remains {options : Options} {s : Config} {tag : Tag} (settled : Settled s)
    (accepted : (run options s).2 = .ok tag) : Remains options.raw s tag := by
  -- settled configurations are carried forwards, what must remain is carried backwards
  fun_induction run options s with
  | case1 s unread => exact remains_of_finish settled unread accepted
  | case2 => simp at accepted
  | case3 s c rest front after stepped ih =>
    have move := move_of_step stepped
    exact remains_of_move settled front move (ih (settled_move settled move) accepted)

theorem run_sound {options : Options} {text : List Char} {tag : Tag}
    (accepted : (run options (start [] (.start text))).2 = .ok tag) :
    ∃ spelling : TagSpelling, spelling.Valid options.raw ∧ spelling.text = text ∧
      spelling.tag = tag := by
  have remains := run_remains (settled_start [] (.start text)) accepted
  simp only [Remains, start] at remains
  obtain ⟨spelling, valid, unread, same⟩ := remains
  exact ⟨spelling, valid, unread.symm, same.symm⟩

end Config
end CommentTags
