import CommentTags.Proofs.Tag.Grammar
import CommentTags.Proofs.Tag.Local
import CommentTags.Proofs.Tag.Modes

/- The cap on links is exact. A text is read under every cap that is no less than the number of its
   links, and under a smaller one it fails at the first link too many. Raw mode reads no links, so
   it needs no cap. -/
namespace CommentTags

/-- The ending up to the plus sign of a link, where the links are counted from zero. -/
def Ending.beforeLink? : Ending → Nat → Option (List Char)
  | link _ _, 0 => some ['=']
  | link head ending, number + 1 =>
    (ending.beforeLink? number).map fun front => '=' :: '+' :: (head.text ++ front)
  | _, _ => none

def TagSpelling.beforeLink? (spelling : TagSpelling) (number : Nat) : Option (List Char) :=
  (spelling.ending.beforeLink? number).map fun front =>
    spelling.lead ++ (spelling.head.text ++ front)

theorem Tag.chain_front (tag : Tag) : tag.chain[0]? = some tag := by
  cases tag <;> rfl

theorem Ending.exists_beforeLink {isRaw : Bool} {ending : Ending} {number : Nat} {head : Head}
    (valid : ending.Valid isRaw) (linked : number < (ending.tag head).links) :
    ∃ front inner behind, ending.beforeLink? number = some front ∧
      ending.text = front ++ '+' :: (HeadSpelling.text inner ++ text behind) ∧
      inner.Valid ∧ behind.Valid isRaw ∧
      (ending.tag head).chain[number + 1]? = some (behind.tag inner.head) ∧
      (behind.tag inner.head).links + number < (ending.tag head).links := by
  induction ending generalizing number head with
  | link inner ending ih =>
    obtain ⟨-, innerValid, endingValid⟩ := valid
    cases number with
    | zero =>
      exact ⟨['='], inner, ending, rfl, rfl, innerValid, endingValid, Tag.chain_front _,
        Nat.lt_succ_self _⟩
    | succ number =>
      have linked' : number < (ending.tag inner.head).links := Nat.lt_of_succ_lt_succ linked
      obtain ⟨front, last, behind, before, split, lastValid, behindValid, place, fewer⟩ :=
        ih endingValid linked'
      refine ⟨'=' :: '+' :: (inner.text ++ front), last, behind, ?_, ?_, lastValid, behindValid,
        place, Nat.succ_lt_succ fewer⟩
      · rw [beforeLink?, before, Option.map_some]
      · rw [text, split]
        simp
  | nothing | blank | scalar | raw => exact absurd linked (Nat.not_lt_zero number)

namespace Config
variable {options : Options} {s : Config}

theorem run_link_too_deep {c : Char} {rest : List Char}
    (stage : s.stage = .afterName ∨ s.stage = .afterArguments) (typed : options.raw = false)
    (first : isNameStart c = true) (deep : options.maxDepth ≤ s.outer.length)
    (unread : s.cursor.rest = '=' :: '+' :: c :: rest) :
    (run options s).2 = .error ⟨.tooDeep options.maxDepth, s.cursor.position.after ['='],
      (s.cursor.position.after ['=']).past '+'⟩ := by
  let behind := s.moved ['='] ('+' :: c :: rest) .value
  have front : behind.cursor.rest = '+' :: c :: rest := rfl
  have linked : behind.opensLink '+' = true := by
    rw [opensLink_eq front]
    exact first
  have deep' : options.maxDepth ≤ behind.outer.length := deep
  have failed : step options behind '+' = .error
      ⟨.tooDeep options.maxDepth, behind.cursor.position, behind.cursor.skip.position⟩ :=
    (readValue_link typed linked).trans (if_pos deep')
  rw [run_equals stage unread, run_step options front, failed, Cursor.skip_eq_move front]
  rfl

theorem run_too_deep {outer : List Head} {head : Head} {cursor : Cursor} {ending : Ending}
    {number : Nat} {front : List Char} (read : HeadRead s outer head cursor)
    (valid : ending.Valid options.raw) (typed : options.raw = false)
    (before : ending.beforeLink? number = some front)
    (reached : outer.length + number = options.maxDepth) (unread : cursor.rest = ending.text) :
    (run options s).2 = .error ⟨.tooDeep options.maxDepth, cursor.position.after front,
      (cursor.position.after front).past '+'⟩ := by
  -- each link that is passed sets a head aside, so the cap is as many links away as before
  induction ending generalizing s outer head cursor number front with
  | nothing | blank | scalar | raw => simp [Ending.beforeLink?] at before
  | link spelling ending ih =>
    obtain ⟨stage, rfl, rfl, rfl, -⟩ := read
    obtain ⟨-, headValid, endingValid⟩ := valid
    obtain ⟨c, tail, starts, first⟩ := head_starts headValid ending.text
    have unread' : s.cursor.rest = '=' :: '+' :: c :: tail := by
      rw [unread, Ending.text, ← starts]
    cases number with
    | zero =>
      obtain rfl : ['='] = front := Option.some.inj before
      exact run_link_too_deep stage typed first (Nat.le_of_eq reached.symm) unread'
    | succ number =>
      obtain ⟨further, before', rfl⟩ := Option.map_eq_some_iff.mp before
      have shallow : s.outer.length < options.maxDepth := by omega
      let inside := s.cursor.move ['=', '+'] (c :: tail)
      obtain ⟨after, done, same⟩ := run_head (start_fresh (s.head :: s.outer) inside) headValid
        (list_stops spelling.list endingValid) starts.symm
      have reached' : (s.head :: s.outer).length + number = options.maxDepth := by
        rw [List.length_cons, ← reached]
        omega
      rw [run_link stage typed first shallow unread', same options,
        ih done endingValid before' reached' rfl]
      simp only [inside, Cursor.move, ← Position.after_append]
      simp

theorem step_raw_uncapped {other : Options} (isRaw : options.raw = true)
    (isRaw' : other.raw = true) (c : Char) : step options s c = step other s c := by
  by_cases stage : s.stage = .value
  · simp only [step, stage, readValue, isRaw, isRaw', if_true]
  · exact step_options options other c stage

theorem run_raw_uncapped {other : Options} (isRaw : options.raw = true)
    (isRaw' : other.raw = true) (s : Config) : run options s = run other s := by
  fun_induction run options s with
  | case1 s unread => rw [run_at_end other unread]
  | case2 s c rest front error stepped =>
    rw [run_step other front, ← step_raw_uncapped isRaw isRaw', stepped]
  | case3 s c rest front after stepped ih =>
    rw [ih, run_of_step front ((step_raw_uncapped isRaw' isRaw c).trans stepped)]

end Config

namespace Tag

theorem parse_too_deep {spelling : TagSpelling} {text : String} {maxDepth : Nat}
    {front : List Char} (derives : spelling.Derives false (trimEnd text.toList))
    (before : spelling.beforeLink? maxDepth = some front) :
    parse ⟨false, maxDepth⟩ text = .error ⟨.tooDeep maxDepth, Position.start.after front,
      (Position.start.after front).past '+'⟩ := by
  obtain ⟨⟨blank, headValid, endingValid⟩, written⟩ := derives
  obtain ⟨further, before', rfl⟩ := Option.map_eq_some_iff.mp before
  obtain ⟨after, read, same⟩ := Config.run_to_head blank headValid
    (list_stops spelling.head.list endingValid)
  have failed : (Config.run ⟨false, maxDepth⟩ after).2 = _ :=
    Config.run_too_deep read endingValid rfl before' (Nat.zero_add maxDepth) rfl
  rw [parse, run, ← written, TagSpelling.text, same, failed]
  simp only [← Position.after_append, List.append_assoc]

theorem exists_linked {spelling : TagSpelling} {text : List Char} {number : Nat}
    (derives : spelling.Derives false (trimEnd text)) (linked : number < spelling.tag.links) :
    ∃ front back next, spelling.beforeLink? number = some front ∧
      trimEnd text = front ++ '+' :: back ∧ spelling.tag.chain[number + 1]? = some next ∧
      next.links ≤ spelling.tag.links ∧
      ∃ inner : TagSpelling, inner.Derives false (trimEnd back) ∧ inner.tag = next := by
  obtain ⟨⟨blank, headValid, endingValid⟩, written⟩ := derives
  obtain ⟨front, inner, behind, before, split, innerValid, behindValid, place, fewer⟩ :=
    Ending.exists_beforeLink endingValid linked
  let whole := spelling.lead ++ (spelling.head.text ++ front)
  let back := inner.text ++ behind.text
  have split' : trimEnd text = whole ++ '+' :: back := by
    rw [← written, TagSpelling.text, split]
    simp [whole, back]
  have trimmed : Trimmed back := by
    have whole' : Trimmed ((whole ++ ['+']) ++ back) := by
      rw [List.append_assoc, List.singleton_append, ← split']
      exact trimEnd_trimmed text
    exact trimmed_suffix whole'
  refine ⟨whole, back, behind.tag inner.head, ?_, split', place, ?_, ⟨[], inner, behind⟩, ⟨?_, ?_⟩,
    rfl⟩
  · rw [TagSpelling.beforeLink?, before, Option.map_some]
  · exact Nat.le_of_lt (Nat.lt_of_le_of_lt (Nat.le_add_right _ _) fewer)
  · exact ⟨blank_nil, innerValid, behindValid⟩
  · rw [trimEnd_of_trimmed trimmed]
    rfl

/-- The cap on links is exact. Any cap that is not less than the number of links gives the same tag,
    and any other one gives an error that shows the plus sign of the first link beyond it. In raw
    mode the cap has no effect. -/
theorem parse_capped (text : String) :
    (∀ cap tag, parse ⟨false, cap⟩ text = .ok tag →
      tag.chain.length = tag.links + 1 ∧ tag.links ≤ cap ∧
      (∀ maxDepth, tag.links ≤ maxDepth → parse ⟨false, maxDepth⟩ text = .ok tag) ∧
      ∃ spelling : TagSpelling, spelling.Derives false (trimEnd text.toList) ∧
        spelling.tag = tag ∧
        ∀ maxDepth, maxDepth < tag.links → ∃ front back next error,
          spelling.beforeLink? maxDepth = some front ∧
          trimEnd text.toList = front ++ '+' :: back ∧
          tag.chain[maxDepth + 1]? = some next ∧
          parse ⟨false, cap⟩ (String.ofList back) = .ok next ∧
          parse ⟨false, maxDepth⟩ text = .error error ∧ error.fault.layer = .grammatical ∧
          error.start = Position.start.after front ∧ error.stop = error.start.past '+') ∧
    ∀ maxDepth other, parse ⟨true, maxDepth⟩ text = parse ⟨true, other⟩ text := by
  constructor
  · intro cap tag read
    obtain ⟨spelling, derives, rfl, within⟩ := (parse_eq_ok_iff _ text tag).mp read
    refine ⟨chain_length _, within, ?_, spelling, derives, rfl, ?_⟩
    · intro maxDepth shallow
      exact (parse_eq_ok_iff _ text _).mpr ⟨spelling, derives, rfl, shallow⟩
    · intro maxDepth linked
      obtain ⟨front, back, next, before, split, place, fewer, inner, derives', same⟩ :=
        exists_linked derives linked
      have next_read : parse ⟨false, cap⟩ (String.ofList back) = .ok next := by
        refine (parse_eq_ok_iff _ _ next).mpr ⟨inner, ?_, same, Nat.le_trans fewer within⟩
        rw [String.toList_ofList]
        exact derives'
      exact ⟨front, back, next, _, before, split, place, next_read, parse_too_deep derives before,
        rfl, rfl, rfl⟩
  · intro maxDepth other
    exact congrArg Prod.snd (Config.run_raw_uncapped rfl rfl _)

theorem second_link_capped :
    let text := "é(\"=+x\")=+b=+c=1 //=+d"
    let tag := link ⟨"é", [⟨"", .string "=+x"⟩]⟩
      (link ⟨"b", []⟩ (single ⟨"c", []⟩ (.scalar (.int "1" 1))))
    parse {} text = .ok tag ∧ parse ⟨false, 2⟩ text = .ok tag ∧
      (∃ front back, trimEnd text.toList = front ++ '+' :: back ∧
        Position.start.after front = ⟨12, 13⟩ ∧
        parse ⟨false, 1⟩ text = .error ⟨.tooDeep 1, ⟨12, 13⟩, ⟨13, 14⟩⟩) ∧
      parse ⟨true, 0⟩ text = parse ⟨true, 2⟩ text := by
  intro text tag
  have read : parse {} text = .ok tag := by decide +kernel
  have shown : parse ⟨false, 1⟩ text = .error ⟨.tooDeep 1, ⟨12, 13⟩, ⟨13, 14⟩⟩ := by
    decide +kernel
  obtain ⟨-, -, alike, spelling, -, -, deep⟩ := (parse_capped text).1 _ _ read
  obtain ⟨front, back, next, error, -, split, -, -, failed, -, start, -⟩ := deep 1 (by decide)
  obtain rfl := Except.error.inj (failed.symm.trans shown)
  exact ⟨read, alike 2 (by decide), ⟨front, back, split, start.symm, shown⟩,
    (parse_capped text).2 0 2⟩

end Tag
end CommentTags
