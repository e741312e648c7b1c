import CommentTags.Json.Text
import CommentTags.Tag.Basic

/- Tags as JSON values. A tag without a payload has no field `value`. -/
namespace CommentTags

def Scalar.fields : Scalar → List (String × Json)
  | .string text => [("type", .string "string"), ("value", .string text)]
  | .int literal value =>
    [("type", .string "int"), ("value", .int value.toInt), ("literal", .string literal)]
  | .bool value => [("type", .string "bool"), ("value", .bool value)]

def Scalar.json (value : Scalar) : Json := .ofFields value.fields

def Argument.json (argument : Argument) : Json :=
  if argument.isPositional then .ofFields argument.value.fields
  else .ofFields (argument.value.fields ++ [("name", .string argument.name)])

def Head.fields (head : Head) (kind : Kind) : List (String × Json) :=
  [("name", .string head.name), ("args", .array (head.arguments.map Argument.json)),
    ("valueType", .string kind.text)]

def Payload.fields : Payload → List (String × Json)
  | .none => []
  | .scalar value => [("value", value.json)]
  | .raw text => [("value", .string text)]

def Tag.json : Tag → Json
  | .single head payload => .ofFields (head.fields payload.kind ++ payload.fields)
  | .link head next => .ofFields (head.fields .tag ++ [("value", next.json)])

end CommentTags
