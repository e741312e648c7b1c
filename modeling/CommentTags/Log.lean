import CommentTags.Extraction

/- What is logged on the way. Nothing that is computed depends on it. -/
namespace CommentTags

inductive Level
  | off
  | debug
  | trace
deriving DecidableEq

namespace Level

def text : Level → String
  | off => "OFF"
  | debug => "DEBUG"
  | trace => "TRACE"

def ofCount (count : Nat) : Level :=
  match count with
  | 0 => off
  | 1 => debug
  | _ => trace

def rank : Level → Nat
  | off => 0
  | debug => 1
  | trace => 2

end Level

/-- Line indices count from zero, depths from one. -/
inductive Event
  | found (index : Nat) (id : Identifier)
  | outside (index : Nat) (id : Identifier) (group : String)
  | extracted (kept : Nat) (marker : String) (scanned : Nat)
  | linked (name : String) (depth : Nat)
deriving DecidableEq

namespace Event

def level : Event → Level
  | extracted _ _ _ => .debug
  | _ => .trace

def target : Event → String
  | linked _ _ => "codetags::parser"
  | _ => "codetags::extract"

def message : Event → String
  | found index id => "line " ++ (index + 1).repr ++ ": found tag '" ++ id.text ++ "'"
  | outside index id group =>
    "line " ++ (index + 1).repr ++ ": skipping '" ++ id.text ++ "' outside group '" ++ group ++ "'"
  | extracted kept marker scanned =>
    "extracted " ++ kept.repr ++ " tag line(s) with marker '" ++ marker ++ "' from "
      ++ scanned.repr ++ " line(s)"
  | linked name depth =>
    "parsing chained tag value of '" ++ name ++ "' at depth " ++ depth.repr

def text (event : Event) : String :=
  "[" ++ event.level.text ++ "] " ++ event.target ++ ": " ++ event.message ++ "\n"

def ofLine (group : Option String) (line : TagLine) : Event :=
  match group with
  | none => found line.index line.identifier
  | some group =>
    if line.inGroup (some group) then found line.index line.identifier
    else outside line.index line.identifier group

def ofExtraction (marker : String) (group : Option String) (lines : List String) : List Event :=
  (markedLines marker lines).map (ofLine group)
    ++ [extracted (tagLines marker group lines).length marker lines.length]

def ofBody (options : Options) (body : String) : List Event :=
  ((Tag.opened options body).zipIdx 1).map fun (name, depth) => linked name depth

/-- The links of each body, up to and with the first body that is no tag. -/
def ofLines (options : Options) : List TagLine → List Event
  | [] => []
  | line :: later =>
    match Tag.parse options line.body with
    | .error _ => ofBody options line.body
    | .ok _ => ofBody options line.body ++ ofLines options later

def textUpTo (level : Level) (events : List Event) : String :=
  String.join ((events.filter fun event => event.level.rank ≤ level.rank).map text)

end Event
end CommentTags
