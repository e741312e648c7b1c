import CommentTags.Tag.Basic
import CommentTags.Token.Quoted

/- The written form of a tag. Strings are always quoted and integers keep their literal. -/
namespace CommentTags

def Scalar.text : Scalar → String
  | .string text => String.ofList (quote text.toList)
  | .int literal _ => literal
  | .bool value => if value then "true" else "false"

def Argument.text (argument : Argument) : String :=
  if argument.isPositional then argument.value.text
  else argument.name ++ ": " ++ argument.value.text

def Head.text (head : Head) : String :=
  if head.arguments.isEmpty then head.name
  else head.name ++ "(" ++ ", ".intercalate (head.arguments.map Argument.text) ++ ")"

def Payload.text : Payload → String
  | .none => ""
  | .scalar value => "=" ++ value.text
  | .raw text => "=" ++ text

def Tag.text : Tag → String
  | .single head payload => head.text ++ payload.text
  | .link head next => head.text ++ "=+" ++ next.text

end CommentTags
