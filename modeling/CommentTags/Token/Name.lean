import CommentTags.Token.Class
import CommentTags.Token.Reading

/- Names: a letter or an underscore, then the longest run of interior characters. -/
namespace CommentTags

def readName (interior : Char → Bool) (here : Cursor) : Reading (List Char) :=
  match here.rest with
  | [] => .fail (.noName none) here.position here
  | c :: rest =>
    if isNameStart c then
      let (tail, beyond) := (here.move [c] rest).takeRun interior
      .read (c :: tail) beyond
    else .fail (.noName (some c)) here.position here

theorem readName_passes (interior : Char → Bool) (here : Cursor) :
    (∃ name, (readName interior here).result = .ok name ∧ name ≠ [] ∧
      here.Passes name (readName interior here).cursor) ∨
    (∃ error, (readName interior here).result = .error error ∧
      (readName interior here).cursor = here) := by
  unfold readName
  split
  · exact .inr ⟨_, rfl, rfl⟩
  · rename_i c rest front
    split
    · exact .inl ⟨_, rfl, by simp, Cursor.passes_append (Cursor.move_passes here [c] rest front)
        (Cursor.takeRun_passes _ _)⟩
    · exact .inr ⟨_, rfl, rfl⟩

end CommentTags
