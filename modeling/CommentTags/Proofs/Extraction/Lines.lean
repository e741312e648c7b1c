import CommentTags.TagLine

/- The accepted lines are told from the others one by one. They keep their order, and a line that
   is not accepted counts for nothing but the indices of the lines behind it. -/
namespace CommentTags

namespace TagLine

def accept? (marker : String) (group : Option String) (index : Nat) (text : String) :
    Option TagLine :=
  (ofLine? marker index text).filter (·.inGroup group)

def next (line : TagLine) : TagLine := { line with index := line.index + 1 }

/-- The line as it is counted once another line stands at `place`. -/
def makeRoom (place : Nat) (line : TagLine) : TagLine :=
  if line.index < place then line else line.next

theorem makeRoom_body (place : Nat) (line : TagLine) : (line.makeRoom place).body = line.body := by
  unfold makeRoom
  split <;> rfl

theorem makeRoom_identifier (place : Nat) (line : TagLine) :
    (line.makeRoom place).identifier = line.identifier := by
  unfold makeRoom
  split <;> rfl

section Accepting
variable {marker : String} {group : Option String} {index : Nat} {text : String} {line : TagLine}

theorem ofLine?_index (found : ofLine? marker index text = some line) : line.index = index := by
  unfold ofLine? at found
  split at found
  · simp at found
  · rw [← Option.some.inj found]

theorem accept?_eq_some_iff : accept? marker group index text = some line ↔
    ofLine? marker index text = some line ∧ line.inGroup group = true :=
  Option.filter_eq_some_iff

theorem accept?_index (accepted : accept? marker group index text = some line) :
    line.index = index :=
  ofLine?_index (accept?_eq_some_iff.mp accepted).1

theorem ofLine?_next (marker : String) (index : Nat) (text : String) :
    ofLine? marker (index + 1) text = (ofLine? marker index text).map next := by
  unfold ofLine?
  split <;> rfl

theorem accept?_next (marker : String) (group : Option String) (index : Nat) (text : String) :
    accept? marker group (index + 1) text = (accept? marker group index text).map next := by
  unfold accept?
  rw [ofLine?_next]
  cases ofLine? marker index text with
  | none => rfl
  | some line =>
    have same : line.next.inGroup group = line.inGroup group := rfl
    simp only [Option.map_some, Option.filter_some, same]
    split <;> rfl

end Accepting
end TagLine

open TagLine

/-- The accepted lines of a text whose first line has the index `start`. -/
def linesFrom (marker : String) (group : Option String) (start : Nat) (lines : List String) :
    List TagLine :=
  (lines.zipIdx start).filterMap fun (text, index) => accept? marker group index text

section LinesFrom
variable {marker : String} {group : Option String}

theorem tagLines_eq (lines : List String) :
    tagLines marker group lines = linesFrom marker group 0 lines := by
  unfold tagLines markedLines linesFrom
  rw [List.filter_filterMap]
  rfl

theorem linesFrom_cons (start : Nat) (text : String) (later : List String) :
    linesFrom marker group start (text :: later) =
      (accept? marker group start text).toList ++ linesFrom marker group (start + 1) later := by
  unfold linesFrom
  rw [List.zipIdx_cons, List.filterMap_cons]
  split <;> simp_all

theorem linesFrom_append (start : Nat) (front back : List String) :
    linesFrom marker group start (front ++ back) =
      linesFrom marker group start front ++ linesFrom marker group (start + front.length) back := by
  simp only [linesFrom, List.zipIdx_append, List.filterMap_append]

theorem linesFrom_next (start : Nat) (lines : List String) :
    linesFrom marker group (start + 1) lines =
      (linesFrom marker group start lines).map TagLine.next := by
  induction lines generalizing start with
  | nil => rfl
  | cons text later ih =>
    rw [linesFrom_cons, linesFrom_cons, List.map_append, ih, accept?_next]
    cases accept? marker group start text <;> rfl

theorem linesFrom_bounds {start : Nat} {lines : List String} {line : TagLine}
    (member : line ∈ linesFrom marker group start lines) :
    start ≤ line.index ∧ line.index < start + lines.length := by
  induction lines generalizing start with
  | nil => simp [linesFrom] at member
  | cons text later ih =>
    rw [linesFrom_cons, List.mem_append, Option.mem_toList] at member
    rw [List.length_cons]
    rcases member with first | further
    · have same := accept?_index first
      omega
    · have bounds := ih further
      omega

theorem linesFrom_ordered (start : Nat) (lines : List String) :
    (linesFrom marker group start lines).Pairwise fun line later => line.index < later.index := by
  induction lines generalizing start with
  | nil => exact .nil
  | cons text later ih =>
    rw [linesFrom_cons, List.pairwise_append]
    refine ⟨?_, ih (start + 1), ?_⟩
    · cases accept? marker group start text with
      | none => exact .nil
      | some line => exact List.pairwise_singleton _ line
    · intro line first other further
      have same := accept?_index (Option.mem_toList.mp first)
      have bounds := linesFrom_bounds further
      omega

theorem mem_tagLines_iff {lines : List String} {line : TagLine} :
    line ∈ tagLines marker group lines ↔
      ∃ text, lines[line.index]? = some text ∧
        accept? marker group line.index text = some line := by
  rw [tagLines_eq, linesFrom, List.mem_filterMap]
  constructor
  · intro read
    obtain ⟨⟨text, index⟩, member, accepted⟩ := read
    obtain rfl := accept?_index accepted
    exact ⟨text, List.mk_mem_zipIdx_iff_getElem?.mp member, accepted⟩
  · intro read
    obtain ⟨text, found, accepted⟩ := read
    exact ⟨(text, line.index), List.mk_mem_zipIdx_iff_getElem?.mpr found, accepted⟩

theorem tagLines_insert {front back : List String} {text : String}
    (rejected : accept? marker group front.length text = none) :
    tagLines marker group (front ++ text :: back) =
      (tagLines marker group (front ++ back)).map (TagLine.makeRoom front.length) := by
  rw [tagLines_eq, tagLines_eq, linesFrom_append, linesFrom_append, linesFrom_cons]
  rw [Nat.zero_add, rejected, linesFrom_next, List.map_append]
  have before : (linesFrom marker group 0 front).map (TagLine.makeRoom front.length) =
      linesFrom marker group 0 front := by
    conv => rhs; rw [← List.map_id (linesFrom marker group 0 front)]
    apply List.map_congr_left
    intro line member
    have bounds := linesFrom_bounds member
    rw [TagLine.makeRoom, if_pos (by omega), id]
  have behind : (linesFrom marker group front.length back).map (TagLine.makeRoom front.length) =
      (linesFrom marker group front.length back).map TagLine.next := by
    apply List.map_congr_left
    intro line member
    have bounds := linesFrom_bounds member
    rw [TagLine.makeRoom, if_neg (by omega)]
  rw [before, behind]
  rfl

end LinesFrom
end CommentTags
