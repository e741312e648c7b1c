/- What a tag line is filed under: a name, and a group in front of the first colon. -/
namespace CommentTags

/-- The group of a name without a colon is empty. -/
structure Identifier where
  group : String
  name : String
deriving DecidableEq

namespace Identifier

def ofChars (text : List Char) : Identifier :=
  match text.dropWhile (· != ':') with
  | [] => ⟨"", String.ofList text⟩
  | _ :: name => ⟨String.ofList (text.takeWhile (· != ':')), String.ofList name⟩

def ofText (text : String) : Identifier := ofChars text.toList

def hasGroup (id : Identifier) : Bool := id.group != ""

def lead (id : Identifier) : String := if id.hasGroup then id.group ++ ":" else ""

def text (id : Identifier) : String := id.lead ++ id.name

instance : LT Identifier where
  lt a b := a.group < b.group ∨ (a.group = b.group ∧ a.name < b.name)

instance : DecidableLT Identifier := fun a b =>
  inferInstanceAs (Decidable (a.group < b.group ∨ (a.group = b.group ∧ a.name < b.name)))

end Identifier
end CommentTags
