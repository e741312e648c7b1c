import CommentTags.Text.Position

/- Why a text is no tag. A fault is the cause, an error is a fault with the stretch of text that
   shows it, and a notice is what a reader is told. -/
namespace CommentTags

/-- Lexical faults lie inside one literal, syntactic ones between tokens, and grammatical ones in
    a combination of well-formed parts. -/
inductive Layer
  | lexical
  | syntactic
  | grammatical
deriving DecidableEq

def Layer.code : Layer → String
  | .lexical => "tag-lexical-error"
  | .syntactic => "tag-syntax-error"
  | .grammatical => "tag-grammar-error"

inductive Place
  | tagStart
  | afterTagName
  | argumentList
  | afterNamedArgument
  | afterArguments
  | value
  | afterTag
  | afterEnd
deriving DecidableEq

def Place.phrase : Place → String
  | .tagStart => "at start of tag"
  | .afterTagName => "after tag name"
  | .argumentList => "in argument list"
  | .afterNamedArgument => "after named argument value"
  | .afterArguments => "after argument list"
  | .value => "in value"
  | .afterTag => "after tag"
  | .afterEnd => "after end of tag"

inductive Fault
  | noDigit
  | noDigitAfter (radixMark : String)
  | outOfRange (literal : String)
  | notOctal (literal : String)
  | notInteger (literal : String)
  | noQuote
  | openString
  | openBacktick
  | badEscape (c : Char)
  | noName (found : Option Char)
  | unexpected (c : Char) (place : Place)
  | noTagName
  | openArguments
  | noArgument
  | noArgumentValue (name : String)
  | unnamable
  | noValue
  | noInput
  | noComment
  | openComment
  | mixedArguments
  | severalPositional (count : Nat)
  | tooDeep (limit : Nat)
deriving DecidableEq

namespace Fault

def layer : Fault → Layer
  | noDigit | noDigitAfter _ | outOfRange _ | notOctal _ | notInteger _ => .lexical
  | noQuote | openString | openBacktick | badEscape _ => .lexical
  | noName _ | unexpected _ _ | noTagName | openArguments | noArgument => .syntactic
  | noArgumentValue _ | unnamable | noValue | noInput | noComment | openComment => .syntactic
  | mixedArguments | severalPositional _ | tooDeep _ => .grammatical

def message : Fault → String
  | noDigit => "Expected a digit"
  | noDigitAfter radixMark => "Expected digits after '" ++ radixMark ++ "'"
  | outOfRange literal => "Integer literal " ++ literal ++ " is out of range"
  | notOctal literal => "Invalid octal literal " ++ literal
  | notInteger literal => "Invalid integer literal " ++ literal
  | noQuote => "Expected a quoted string"
  | openString => "Unterminated string"
  | openBacktick => "Unterminated backtick string"
  | badEscape c => "Invalid escape sequence '\\" ++ c.toString ++ "'"
  | noName none => "Expected an identifier"
  | noName (some c) => "Expected an identifier, found '" ++ c.toString ++ "'"
  | unexpected c place => "Unexpected character '" ++ c.toString ++ "' " ++ place.phrase
  | noTagName => "Expected a tag name"
  | openArguments => "Unterminated argument list; expected ')'"
  | noArgument => "Expected an argument after ','"
  | noArgumentValue name => "Expected a value for argument '" ++ name ++ "'"
  | unnamable => "Argument name must be an identifier"
  | noValue => "Expected a value after '='"
  | noInput => "Unexpected end of input"
  | noComment => "Expected '//' to start a trailing comment"
  | openComment => "Unterminated trailing comment; expected '//'"
  | mixedArguments => "Mixed positional and named arguments; name every argument"
  | severalPositional count => "Found " ++ count.repr
      ++ " positional arguments; multiple arguments must use name: value form"
  | tooDeep limit => "Tag chain nested deeper than " ++ limit.repr ++ " levels"

end Fault

/-- The stretch runs from `start` up to but without `stop`. -/
structure TagError where
  fault : Fault
  start : Position
  stop : Position
deriving DecidableEq

structure Notice where
  layer : Layer
  message : String
  start : Position
  stop : Position
deriving DecidableEq

def TagError.notice (error : TagError) : Notice :=
  ⟨error.fault.layer, error.fault.message, error.start, error.stop⟩

namespace Notice

def columns (notice : Notice) : String :=
  if notice.start = notice.stop then notice.start.column.repr
  else notice.start.column.repr ++ "-" ++ notice.stop.column.repr

def text (notice : Notice) : String :=
  notice.columns ++ ": " ++ notice.message ++ " (" ++ notice.layer.code ++ ")"

end Notice
end CommentTags
