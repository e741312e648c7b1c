import CommentTags.Program

/- Input and output of the program. -/
namespace CommentTags

partial def readAll (stream : IO.FS.Stream) (read : ByteArray) : IO ByteArray := do
  let more ← stream.read 65536
  if more.isEmpty then return read
  readAll stream (read ++ more)

def serve (arguments : List String) : IO UInt32 := do
  let request := Request.ofArguments arguments
  let input ← match request with
    | .run _ => readAll (← IO.getStdin) .empty
    | _ => pure .empty
  let outcome := Outcome.ofRequest request input
  (← IO.getStderr).putStr outcome.errors
  (← IO.getStdout).putStr outcome.output
  return outcome.exit.toUInt32

end CommentTags

def main (arguments : List String) : IO UInt32 := CommentTags.serve arguments
