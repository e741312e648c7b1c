import CommentTags.Extraction
import CommentTags.Tag.Json

/- What is printed of an extraction. The keys are the texts of the identifiers; where two
   identifiers have one text, the later of them takes the place of the earlier. -/
namespace CommentTags

def bodiesJson (filed : Keyed Identifier (List String)) : Json :=
  .ofFields (filed.map fun (id, bodies) => (id.text, .array (bodies.map .string)))

def tagsJson (filed : Keyed Identifier (List Tag)) : Json :=
  .ofFields (filed.map fun (id, tags) => (id.text, .array (tags.map Tag.json)))

/-- The notice of an error in the body of a line. Lines are shown from one on. -/
structure LineNotice where
  index : Nat
  identifier : Identifier
  notice : Notice
deriving DecidableEq

def LineError.notice (error : LineError) : LineNotice :=
  ⟨error.line.index, error.line.identifier, error.source.notice⟩

def Position.json (p : Position) : Json :=
  .ofFields [("column", .int p.column), ("offset", .int p.offset)]

namespace LineNotice

def text (shown : LineNotice) : String :=
  "line " ++ (shown.index + 1).repr ++ ": tag `" ++ shown.identifier.text ++ "`: "
    ++ shown.notice.text

def json (shown : LineNotice) : Json :=
  .ofFields [
    ("code", .string shown.notice.layer.code),
    ("message", .string shown.notice.message),
    ("line", .int shown.index),
    ("identifier", .string shown.identifier.text),
    ("begin", shown.notice.start.json),
    ("end", shown.notice.stop.json)]

end LineNotice
end CommentTags
