import CommentTags.Identifier
import CommentTags.Text.Blank
import CommentTags.Text.Position

/- The lines of a comment that hold a tag. Such a line starts with the marker, blanks apart. Its
   identifier ends at the first parenthesis or equals sign, and its body is what follows the
   marker and the group. -/
namespace CommentTags

/-- `index` counts lines from zero, and `bodyOffset` is where the body starts in the whole line. -/
structure TagLine where
  index : Nat
  bodyOffset : Nat
  identifier : Identifier
  body : String
deriving DecidableEq

def stripFront : (front text : List Char) → Option (List Char)
  | [], text => some text
  | _, [] => none
  | a :: front, c :: text => if a = c then stripFront front text else none

def endsIdentifier (c : Char) : Bool := c == '(' || c == '='

namespace TagLine

def ofLine? (marker : String) (index : Nat) (line : String) : Option TagLine :=
  match stripFront marker.toList (trim line.toList) with
  | none => none
  | some marked =>
    let identifier := Identifier.ofChars (marked.takeWhile (!endsIdentifier ·))
    let lead := identifier.lead.toList
    some {
      index := index
      bodyOffset := byteLength (indent line.toList) + byteLength marker.toList + byteLength lead
      identifier := identifier
      body := String.ofList (marked.drop lead.length) }

def inGroup (line : TagLine) (group : Option String) : Bool :=
  match group with
  | none => true
  | some group => line.identifier.group == group

end TagLine

def markedLines (marker : String) (lines : List String) : List TagLine :=
  lines.zipIdx.filterMap fun (line, index) => TagLine.ofLine? marker index line

def tagLines (marker : String) (group : Option String) (lines : List String) : List TagLine :=
  (markedLines marker lines).filter (·.inGroup group)

end CommentTags
