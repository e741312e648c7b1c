import CommentTags.Tag.Basic
import CommentTags.Token.Integer
import CommentTags.Token.Name
import CommentTags.Token.Quoted

/- One scalar: an integer, a quoted string, or a bare name. The bare names `true` and `false` are
   truth values; every other one is a string. -/
namespace CommentTags

/-- A bare name is kept beside its value, because it may turn out to name an argument. -/
structure Token where
  value : Scalar
  bare : Option String
deriving DecidableEq

def Scalar.ofName (name : List Char) : Scalar :=
  if name = "true".toList then .bool true
  else if name = "false".toList then .bool false
  else .string (String.ofList name)

def startsInteger (c : Char) : Bool := c == '+' || c == '-' || c.isDigit

def startsQuoted (c : Char) : Bool := c == '"' || c == '`'

def readIntegerToken (here : Cursor) : Except TagError (Token × Cursor) :=
  match readInteger here with
  | ⟨.error error, _⟩ => .error error
  | ⟨.ok literal, beyond⟩ =>
    match literal.value with
    | .error fault => .error ⟨fault, here.position, beyond.position⟩
    | .ok value => .ok (⟨.int (String.ofList literal.text) value, none⟩, beyond)

def readQuotedToken (here : Cursor) : Except TagError (Token × Cursor) :=
  match readQuoted here with
  | ⟨.error error, _⟩ => .error error
  | ⟨.ok text, beyond⟩ => .ok (⟨.string (String.ofList text), none⟩, beyond)

def readNameToken (here : Cursor) : Except TagError (Token × Cursor) :=
  match readName isNameInterior here with
  | ⟨.error error, _⟩ => .error error
  | ⟨.ok name, beyond⟩ => .ok (⟨.ofName name, some (String.ofList name)⟩, beyond)

def readToken (place : Place) (here : Cursor) : Except TagError (Token × Cursor) :=
  match here.rest with
  | [] => .error ⟨.noInput, here.position, here.position⟩
  | c :: _ =>
    if startsInteger c then readIntegerToken here
    else if startsQuoted c then readQuotedToken here
    else if isNameStart c then readNameToken here
    else .error ⟨.unexpected c place, here.position, here.position⟩

theorem readToken_passes {place : Place} {here beyond : Cursor} {token : Token}
    (read : readToken place here = .ok (token, beyond)) :
    ∃ passed, passed ≠ [] ∧ here.Passes passed beyond := by
  unfold readToken at read
  split at read
  · simp at read
  · split at read
    · have move := readInteger_passes here
      have digits := readInteger_digits here
      unfold readIntegerToken at read
      split at read
      · simp at read
      · rename_i literal after outcome
        simp only [outcome] at move digits
        obtain ⟨same, present⟩ := digits literal rfl
        split at read
        · simp at read
        · simp only [Except.ok.injEq, Prod.mk.injEq] at read
          exact ⟨literal.text, by simp [IntegerLiteral.text, present], read.2 ▸ same ▸ move⟩
    · split at read
      · obtain ⟨passed, move, stuck⟩ := readQuoted_passes here
        unfold readQuotedToken at read
        split at read
        · simp at read
        · rename_i text after outcome
          simp only [outcome] at move stuck
          simp only [Except.ok.injEq, Prod.mk.injEq] at read
          exact ⟨passed, fun none => by simpa using stuck none, read.2 ▸ move⟩
      · split at read
        · have name := readName_passes isNameInterior here
          unfold readNameToken at read
          split at read
          · simp at read
          · rename_i text after outcome
            simp only [outcome] at name
            simp only [Except.ok.injEq, Prod.mk.injEq] at read
            rcases name with ⟨passed, _, present, move⟩ | ⟨error, failed, _⟩
            · exact ⟨passed, present, read.2 ▸ move⟩
            · simp at failed
        · simp at read

end CommentTags
