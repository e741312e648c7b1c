/- The command line. Each long option stands alone or before its value; short options may share
   one dash. Reading stops at the first argument that settles the outcome. -/
namespace CommentTags

/-- `none` in a field means that the option was not given. -/
structure Command where
  marker : Option String := none
  group : Option String := none
  raw : Bool := false
  extractOnly : Bool := false
  pretty : Bool := false
  verbosity : Nat := 0
deriving DecidableEq

inductive Request
  | run (command : Command)
  | version
  | help
  | misuse
deriving DecidableEq

inductive Valued
  | marker
  | group
deriving DecidableEq

inductive Switch
  | raw
  | extractOnly
  | pretty
  | verbose
  | version
  | help
deriving DecidableEq

inductive LongOption
  | valued (option : Valued)
  | switch (option : Switch)
deriving DecidableEq

def LongOption.ofName? : String → Option LongOption
  | "marker" => some (.valued .marker)
  | "group" => some (.valued .group)
  | "raw" => some (.switch .raw)
  | "extract-only" => some (.switch .extractOnly)
  | "pretty" => some (.switch .pretty)
  | "verbose" => some (.switch .verbose)
  | "version" => some (.switch .version)
  | "help" => some (.switch .help)
  | _ => none

def Switch.ofLetter? : Char → Option Switch
  | 'v' => some .verbose
  | 'V' => some .version
  | 'h' => some .help
  | _ => none

namespace Command

def set? (command : Command) (option : Valued) (value : String) : Option Command :=
  match option with
  | .marker => if command.marker.isNone then some { command with marker := some value } else none
  | .group => if command.group.isNone then some { command with group := some value } else none

def turn (command : Command) (option : Switch) : Except Request Command :=
  match option with
  | .raw => if command.raw then .error .misuse else .ok { command with raw := true }
  | .extractOnly =>
    if command.extractOnly then .error .misuse else .ok { command with extractOnly := true }
  | .pretty => if command.pretty then .error .misuse else .ok { command with pretty := true }
  | .verbose => .ok { command with verbosity := command.verbosity + 1 }
  | .version => .error .version
  | .help => .error .help

def turnLetters (command : Command) : List Char → Except Request Command
  | [] => .ok command
  | letter :: letters =>
    match Switch.ofLetter? letter with
    | none => .error .misuse
    | some option =>
      match command.turn option with
      | .error request => .error request
      | .ok command => command.turnLetters letters

/-- An argument that begins with a dash is an option, and so no value; a dash alone is one. -/
def isValue (argument : List Char) : Bool :=
  match argument with
  | '-' :: _ :: _ => false
  | _ => true

def read (command : Command) (arguments : List (List Char)) : Request :=
  match arguments with
  | [] => .run command
  | ('-' :: '-' :: []) :: operands => if operands.isEmpty then .run command else .misuse
  | ('-' :: '-' :: long) :: later =>
    let name := String.ofList (long.takeWhile (· != '='))
    match LongOption.ofName? name, long.dropWhile (· != '=') with
    | none, _ => .misuse
    | some (.switch _), _ :: _ => .misuse
    | some (.switch option), [] =>
      match command.turn option with
      | .error request => request
      | .ok command => command.read later
    | some (.valued option), _ :: value =>
      match command.set? option (String.ofList value) with
      | none => .misuse
      | some command => command.read later
    | some (.valued option), [] =>
      match later with
      | [] => .misuse
      | value :: later =>
        if isValue value then
          match command.set? option (String.ofList value) with
          | none => .misuse
          | some command => command.read later
        else .misuse
  | ('-' :: letter :: letters) :: later =>
    match command.turnLetters (letter :: letters) with
    | .error request => request
    | .ok command => command.read later
  | _ :: _ => .misuse

end Command

def Request.ofArguments (arguments : List String) : Request :=
  Command.read {} (arguments.map String.toList)

end CommentTags
