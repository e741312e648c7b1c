import CommentTags.Options
import CommentTags.Text.Blank
import CommentTags.Token.Scalar

/- Reading a tag one character or one token at a time. A link sets the head read so far aside and
   starts over on the rest of the text, so the last tag of a chain owns everything behind it. -/
namespace CommentTags
open Unicode

inductive Stage
  | start
  | tagName
  | afterName
  /-- Behind an opening parenthesis: an argument or the closing one. -/
  | firstArgument
  /-- Behind a comma: an argument must follow. -/
  | nextArgument
  /-- Behind the name of an argument: its value must follow. -/
  | argumentValue
  | afterArgument
  | afterArguments
  | value
  | afterTag
  | slash
  | comment
  | ended
deriving DecidableEq

/-- A stage that may be entered without taking a character. The next step from it takes one. -/
def Stage.isLookahead : Stage → Bool
  | .tagName | .afterTag => true
  | _ => false

/-- `outer` holds the heads whose linked tag is being read, innermost first. `opening` is the place
    of the last opening parenthesis. -/
structure Config where
  cursor : Cursor
  stage : Stage
  outer : List Head
  head : Head
  payload : Payload
  opening : Position
  pendingName : Option String
  pendingValue : Option Token
deriving DecidableEq

namespace Config

def start (outer : List Head) (cursor : Cursor) : Config :=
  ⟨cursor, .start, outer, ⟨"", []⟩, .none, cursor.position, none, none⟩

def fail (s : Config) (fault : Fault) : Except TagError α :=
  .error ⟨fault, s.cursor.position, s.cursor.position⟩

def skipTo (s : Config) (stage : Stage) : Config :=
  { s with cursor := s.cursor.skip, stage := stage }

def addArgument (s : Config) : Config :=
  match s.pendingValue with
  | none => s
  | some token =>
    { s with
      head := ⟨s.head.name, s.head.arguments ++ [⟨s.pendingName.getD "", token.value⟩]⟩
      pendingName := none
      pendingValue := none }

def closeArguments (s : Config) : Except TagError Config :=
  let closed := s.skipTo .afterArguments
  let positional := s.head.arguments.countP Argument.isPositional
  if 0 < positional ∧ positional < s.head.arguments.length then
    .error ⟨.mixedArguments, s.opening, closed.cursor.position⟩
  else if 1 < positional then
    .error ⟨.severalPositional positional, s.opening, closed.cursor.position⟩
  else .ok closed

def readArgument (s : Config) (c : Char) : Except TagError Config :=
  if isWhiteSpace c then .ok (s.skipTo s.stage)
  else if c = ')' then
    if s.stage = .firstArgument then s.closeArguments
    else if s.stage = .nextArgument then s.fail .noArgument
    else s.fail (.noArgumentValue (s.pendingName.getD ""))
  else
    match readToken .argumentList s.cursor with
    | .error error => .error error
    | .ok (token, beyond) =>
      .ok { s with cursor := beyond, stage := .afterArgument, pendingValue := some token }

def endArgument (s : Config) (c : Char) : Except TagError Config :=
  if isWhiteSpace c then .ok (s.skipTo .afterArgument)
  else if c = ',' then .ok (s.addArgument.skipTo .nextArgument)
  else if c = ')' then s.addArgument.closeArguments
  else if c = ':' then
    if s.pendingName.isSome then s.fail (.unexpected ':' .afterNamedArgument)
    else
      match s.pendingValue.bind Token.bare with
      | none => s.fail .unnamable
      | some name =>
        .ok { s.skipTo .argumentValue with pendingName := some name, pendingValue := none }
  else s.fail (.unexpected c .argumentList)

def opensLink (s : Config) (c : Char) : Bool := c == '+' && (s.cursor.peek 1).any isNameStart

def readValue (options : Options) (s : Config) (c : Char) : Except TagError Config :=
  if options.raw then
    let (text, beyond) := s.cursor.takeRest
    .ok { s with cursor := beyond, stage := .ended, payload := .raw (String.ofList text) }
  else if s.opensLink c then
    let inside := s.cursor.skip
    if options.maxDepth ≤ s.outer.length then
      .error ⟨.tooDeep options.maxDepth, s.cursor.position, inside.position⟩
    else .ok (start (s.head :: s.outer) inside)
  else
    match readToken .value s.cursor with
    | .error error => .error error
    | .ok (token, beyond) =>
      .ok { s with cursor := beyond, stage := .afterTag, payload := .scalar token.value }

def step (options : Options) (s : Config) (c : Char) : Except TagError Config :=
  match s.stage with
  | .start =>
    if isWhiteSpace c then .ok (s.skipTo .start)
    else if isNameStart c then .ok { s with stage := .tagName }
    else s.fail (.unexpected c .tagStart)
  | .tagName =>
    match readName isTagNameInterior s.cursor with
    | ⟨.error error, _⟩ => .error error
    | ⟨.ok name, beyond⟩ =>
      .ok { s with
        cursor := beyond
        stage := .afterName
        head := ⟨String.ofList name, s.head.arguments⟩ }
  | .afterName =>
    if c = '(' then .ok { s.skipTo .firstArgument with opening := s.cursor.position }
    else if c = '=' then .ok (s.skipTo .value)
    else if isWhiteSpace c then .ok { s with stage := .afterTag }
    else s.fail (.unexpected c .afterTagName)
  | .firstArgument | .nextArgument | .argumentValue => s.readArgument c
  | .afterArgument => s.endArgument c
  | .afterArguments =>
    if c = '=' then .ok (s.skipTo .value)
    else if isWhiteSpace c then .ok { s with stage := .afterTag }
    else s.fail (.unexpected c .afterArguments)
  | .value => readValue options s c
  | .afterTag =>
    if isWhiteSpace c then .ok (s.skipTo .afterTag)
    else if c = '/' then .ok (s.skipTo .slash)
    else s.fail (.unexpected c .afterTag)
  | .slash => if c = '/' then .ok (s.skipTo .comment) else s.fail .noComment
  | .comment => .ok { s with cursor := s.cursor.takeRest.2, stage := .ended }
  | .ended => s.fail (.unexpected c .afterEnd)

def tag (s : Config) : Tag :=
  s.outer.foldl (fun next head => .link head next) (.single s.head s.payload)

def finish (s : Config) : Except TagError Tag :=
  match s.stage with
  | .start | .tagName => s.fail .noTagName
  | .firstArgument | .nextArgument | .argumentValue | .afterArgument =>
    .error ⟨.openArguments, s.opening, s.cursor.position⟩
  | .value => s.fail .noValue
  | .slash => s.fail .openComment
  | .afterName | .afterArguments | .afterTag | .comment | .ended => .ok s.tag

end Config
end CommentTags
