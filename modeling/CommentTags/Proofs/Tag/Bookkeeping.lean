import CommentTags.Proofs.Tag.Moves

/- What a configuration holds at each stage. Every move keeps it so, and with it the cap on links,
   so both hold of every configuration that a run comes to. -/
namespace CommentTags

def Stage.precedesArguments : Stage → Bool
  | .start | .tagName | .afterName | .firstArgument => true
  | _ => false

def Stage.followsPayload : Stage → Bool
  | .afterTag | .slash | .comment | .ended => true
  | _ => false

namespace Config

/-- Only the name of an argument is pending in front of its value, and only behind the value is
    a value pending. -/
def Pended (s : Config) : Prop :=
  match s.stage with
  | .argumentValue =>
    (∃ name, IsName isNameInterior name ∧ s.pendingName = some (String.ofList name)) ∧
      s.pendingValue = none
  | .afterArgument =>
    ∃ spelling : ScalarSpelling, spelling.Valid ∧ s.pendingValue = some spelling.token
  | _ => s.pendingName = none ∧ s.pendingValue = none

structure Settled (s : Config) : Prop where
  pended : s.Pended
  noArguments : s.stage.precedesArguments = true → s.head.arguments = []
  noPayload : s.stage.followsPayload = false → s.payload = .none

theorem settled_start (outer : List Head) (cursor : Cursor) : Settled (start outer cursor) :=
  ⟨⟨rfl, rfl⟩, fun _ => rfl, fun _ => rfl⟩

theorem Pended.held {s : Config} (pended : s.Pended) (stage : s.stage = .afterArgument) :
    ∃ spelling : ScalarSpelling, spelling.Valid ∧ s.pendingValue = some spelling.token := by
  unfold Pended at pended
  simp only [stage] at pended
  exact pended

theorem Pended.valueless {s : Config} (pended : s.Pended) (early : s.stage ≠ .afterArgument) :
    s.pendingValue = none := by
  unfold Pended at pended
  split at pended
  · exact pended.2
  · contradiction
  · exact pended.2

theorem Pended.nothing {s : Config} (pended : s.Pended) (unnamed : s.stage ≠ .argumentValue)
    (early : s.stage ≠ .afterArgument) : s.pendingName = none ∧ s.pendingValue = none := by
  unfold Pended at pended
  split at pended
  · contradiction
  · contradiction
  · exact pended

theorem addArgument_pending (s : Config) {token : Token} (held : s.pendingValue = some token) :
    s.addArgument = { s with
      head := ⟨s.head.name, s.head.arguments ++ [⟨s.pendingName.getD "", token.value⟩]⟩
      pendingName := none
      pendingValue := none } := by
  simp only [addArgument, held]

theorem addArgument_outer (s : Config) : s.addArgument.outer = s.outer := by
  unfold addArgument
  split <;> rfl

theorem addArgument_payload (s : Config) : s.addArgument.payload = s.payload := by
  unfold addArgument
  split <;> rfl

section Moves
variable {options : Options} {s after : Config} {c : Char}

theorem pended_move (pended : s.Pended) (move : Move options s c after) : after.Pended := by
  have kept := pended
  unfold Pended at kept
  cases move with
  | blank => exact pended
  | enter stage | name stage | opening stage | closeEmpty stage =>
    simp only [stage] at kept
    exact kept
  | equals stage | white stage =>
    rcases stage with stage | stage <;> simp only [stage] at kept <;> exact kept
  | scalar awaits read =>
    obtain ⟨spelling, valid, _, rfl⟩ := readToken_sound read
    exact ⟨spelling, valid, rfl⟩
  | comma stage | close stage =>
    obtain ⟨spelling, _, held⟩ := pended.held stage
    rw [addArgument_pending s held]
    exact ⟨rfl, rfl⟩
  | colon stage _ _ bare =>
    obtain ⟨spelling, valid, held⟩ := pended.held stage
    rw [held] at bare
    cases spelling with
    | bare text =>
      obtain rfl := Option.some.inj bare
      exact ⟨⟨text, valid, rfl⟩, rfl⟩
    | integer | quoted | verbatim => simp [ScalarSpelling.token, ScalarSpelling.bareName?] at bare
  | link => exact ⟨rfl, rfl⟩
  | raw stage | payload stage | slash stage | comment stage | remark stage =>
    simp only [stage] at kept
    exact kept

theorem noArguments_move
    (noArguments : s.stage.precedesArguments = true → s.head.arguments = [])
    (move : Move options s c after) (early : after.stage.precedesArguments = true) :
    after.head.arguments = [] := by
  cases move with
  | blank => exact noArguments early
  | enter stage | name stage | opening stage => exact noArguments (by rw [stage]; rfl)
  | link => rfl
  | _ => exact absurd early Bool.false_ne_true

theorem noPayload_move (noPayload : s.stage.followsPayload = false → s.payload = .none)
    (move : Move options s c after) (early : after.stage.followsPayload = false) :
    after.payload = .none := by
  cases move with
  | blank => exact noPayload early
  | enter stage | name stage | opening stage | closeEmpty stage | colon stage =>
    exact noPayload (by rw [stage]; rfl)
  | equals stage =>
    rcases stage with stage | stage <;> exact noPayload (by rw [stage]; rfl)
  | scalar awaits =>
    refine noPayload ?_
    cases stage : s.stage <;> simp_all [Stage.awaitsArgument, Stage.followsPayload]
  | comma stage | close stage =>
    exact (addArgument_payload s).trans (noPayload (by rw [stage]; rfl))
  | link => rfl
  | _ => exact absurd early.symm Bool.false_ne_true

theorem settled_move (settled : Settled s) (move : Move options s c after) : Settled after :=
  ⟨pended_move settled.pended move, noArguments_move settled.noArguments move,
    noPayload_move settled.noPayload move⟩

end Moves

/-- The tag inside the links that are set aside. -/
def enclose (outer : List Head) (tag : Tag) : Tag :=
  outer.foldl (fun next head => .link head next) tag

theorem tag_eq_enclose (s : Config) : s.tag = enclose s.outer (.single s.head s.payload) := rfl

theorem enclose_cons (outer : List Head) (head : Head) (tag : Tag) :
    enclose (head :: outer) tag = enclose outer (.link head tag) := rfl

theorem enclose_links (outer : List Head) (tag : Tag) :
    (enclose outer tag).links = outer.length + tag.links := by
  induction outer generalizing tag with
  | nil => simp [enclose]
  | cons head outer ih =>
    rw [enclose_cons, ih, Tag.links, List.length_cons]
    omega

theorem finish_tag {s : Config} {tag : Tag} (finished : s.finish = .ok tag) : tag = s.tag := by
  unfold finish at finished
  split at finished <;> simp_all [fail]

theorem outer_move {options : Options} {s after : Config} {c : Char}
    (shallow : s.outer.length ≤ options.maxDepth) (move : Move options s c after) :
    after.outer.length ≤ options.maxDepth := by
  cases move with
  | link _ _ _ within => exact within
  | comma | close =>
    rw [← addArgument_outer s] at shallow
    exact shallow
  | _ => exact shallow

theorem run_links {options : Options} {s : Config} {tag : Tag}
    (shallow : s.outer.length ≤ options.maxDepth) (accepted : (run options s).2 = .ok tag) :
    tag.links ≤ options.maxDepth := by
  fun_induction run options s with
  | case1 s =>
    rw [finish_tag accepted, tag_eq_enclose, enclose_links]
    exact shallow
  | case2 => simp at accepted
  | case3 s c rest front after stepped ih =>
    exact ih (outer_move shallow (move_of_step stepped)) accepted

end Config
end CommentTags
