/- Tags. A tag has a head and may carry a scalar, a raw text, or another tag linked to it. -/
namespace CommentTags

/-- An integer keeps the literal it was written with. -/
inductive Scalar
  | string (text : String)
  | int (literal : String) (value : Int64)
  | bool (value : Bool)
deriving DecidableEq

/-- An empty name marks a positional argument. -/
structure Argument where
  name : String
  value : Scalar
deriving DecidableEq

structure Head where
  name : String
  arguments : List Argument
deriving DecidableEq

inductive Payload
  | none
  | scalar (value : Scalar)
  | raw (text : String)
deriving DecidableEq

inductive Tag
  | single (head : Head) (payload : Payload)
  | link (head : Head) (next : Tag)
deriving DecidableEq

inductive Kind
  | none
  | string
  | int
  | bool
  | tag
  | raw
deriving DecidableEq

def Kind.text : Kind → String
  | .none => "none"
  | .string => "string"
  | .int => "int"
  | .bool => "bool"
  | .tag => "tag"
  | .raw => "raw"

namespace Scalar

def kind : Scalar → Kind
  | string _ => .string
  | int _ _ => .int
  | bool _ => .bool

def string? : Scalar → Option String
  | string text => some text
  | _ => none

def int? : Scalar → Option Int64
  | int _ value => some value
  | _ => none

def bool? : Scalar → Option Bool
  | bool value => some value
  | _ => none

end Scalar

def Argument.isPositional (argument : Argument) : Bool := argument.name = ""

namespace Head

def positional? (head : Head) : Option Scalar :=
  match head.arguments with
  | [argument] => if argument.isPositional then some argument.value else none
  | _ => none

/-- The value of the first argument of that name; positional arguments have none. -/
def named? (head : Head) (name : String) : Option Scalar :=
  (head.arguments.find? fun argument => !argument.isPositional && argument.name == name).map
    Argument.value

end Head

def Payload.kind : Payload → Kind
  | .none => .none
  | .scalar value => value.kind
  | .raw _ => .raw

namespace Tag

def head : Tag → Head
  | single head _ => head
  | link head _ => head

def kind : Tag → Kind
  | single _ payload => payload.kind
  | link _ _ => .tag

def scalar? : Tag → Option Scalar
  | single _ (.scalar value) => some value
  | _ => none

def next? : Tag → Option Tag
  | single _ _ => none
  | link _ next => some next

def chain : Tag → List Tag
  | single head payload => [single head payload]
  | link head next => link head next :: next.chain

def links : Tag → Nat
  | single _ _ => 0
  | link _ next => next.links + 1

theorem chain_length (tag : Tag) : tag.chain.length = tag.links + 1 := by
  induction tag with
  | single => rfl
  | link head next ih => simp [chain, links, ih]

end Tag
end CommentTags
