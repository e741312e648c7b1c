import CommentTags.Keyed
import CommentTags.Tag.Run
import CommentTags.TagLine

/- Tag lines filed under their identifiers, as bodies or as the tags these spell. The first line
   whose body is no tag is the error of the batch. -/
namespace CommentTags

def extract (marker : String) (group : Option String) (lines : List String) :
    Keyed Identifier (List String) :=
  (tagLines marker group lines).foldl (fun filed line => filed.file line.identifier line.body) []

structure LineError where
  line : TagLine
  source : TagError
deriving DecidableEq

def parseLines (options : Options) (filed : Keyed Identifier (List Tag)) :
    List TagLine → Except LineError (Keyed Identifier (List Tag))
  | [] => .ok filed
  | line :: later =>
    match Tag.parse options line.body with
    | .error source => .error ⟨line, source⟩
    | .ok tag => parseLines options (filed.file line.identifier tag) later

def extractTags (options : Options) (marker : String) (group : Option String)
    (lines : List String) : Except LineError (Keyed Identifier (List Tag)) :=
  parseLines options [] (tagLines marker group lines)

end CommentTags
