import CommentTags.Command
import CommentTags.Extraction.Json
import CommentTags.Log
import CommentTags.Text.Lines

/- What the program prints for its arguments and its input. -/
namespace CommentTags

structure Outcome where
  exit : Nat
  output : String
  errors : String
deriving DecidableEq

namespace Command

def markerText (command : Command) : String := command.marker.getD "+"

def layout (command : Command) : Layout := if command.pretty then .pretty else .compact

def options (command : Command) : Options := { raw := command.raw }

end Command

def columnAt? (column offset : Nat) (text : List Char) : Option Nat :=
  match offset, text with
  | 0, _ => some column
  | _, [] => none
  | offset, c :: rest =>
    if c.utf8Size ≤ offset then columnAt? (column + 1) (offset - c.utf8Size) rest else none

/-- A caret under the first character at fault and underscores under the others. -/
def underline (start stop : Nat) : List Char :=
  List.replicate start ' ' ++ '^' :: List.replicate (stop - start - 1) '_'

def LineError.report (lines : List String) (error : LineError) : String :=
  let line := lines[error.line.index]?.getD ""
  let body := (columnAt? 0 error.line.bodyOffset line.toList).getD 0
  let marks := underline (body + error.source.start.column) (body + error.source.stop.column)
  "ERROR AT LINE " ++ (error.line.index + 1).repr ++ ":\n" ++ line ++ "\n"
    ++ String.ofList marks ++ "\n" ++ error.notice.text ++ "\n\n"

namespace Outcome

def version : Outcome := ⟨0, "codetags 0.1.0\n", ""⟩

def usage : String :=
  "Usage: codetags [--marker TEXT] [--group GROUP] [--raw] [--extract-only] [--pretty] [-v]...\n"

def success (command : Command) (value : Json) (events : List Event) : Outcome :=
  ⟨0, value.text command.layout ++ "\n", Event.textUpTo (.ofCount command.verbosity) events⟩

def ofLines (command : Command) (lines : List String) : Outcome :=
  let marker := command.markerText
  let extracted := Event.ofExtraction marker command.group lines
  if command.extractOnly then
    success command (bodiesJson (extract marker command.group lines)) extracted
  else
    let kept := tagLines marker command.group lines
    let events := extracted ++ Event.ofLines command.options kept
    match extractTags command.options marker command.group lines with
    | .ok filed => success command (tagsJson filed) events
    | .error error =>
      ⟨1, "", Event.textUpTo (.ofCount command.verbosity) events ++ error.report lines⟩

/-- Input that is not UTF-8 is refused before anything is read from it. -/
def ofInput (command : Command) (input : ByteArray) : Outcome :=
  match String.fromUTF8? input with
  | none => ⟨1, "", "Failed to read stdin: stream did not contain valid UTF-8\n"⟩
  | some text => ofLines command (lines text)

def ofRequest (request : Request) (input : ByteArray) : Outcome :=
  match request with
  | .run command => ofInput command input
  | .version => version
  | .help => ⟨0, usage, ""⟩
  | .misuse => ⟨2, "", usage⟩

end Outcome
end CommentTags
