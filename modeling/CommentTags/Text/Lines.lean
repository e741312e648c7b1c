/- Lines end at a line feed, or at a carriage return and a line feed. Only text after the final line
   feed makes an unfinished last line, which keeps its carriage returns. -/
namespace CommentTags

def endLine : List Char → List Char
  | '\r' :: line => line.reverse
  | line => line.reverse

def splitLines (complete : List (List Char)) (line : List Char) : List Char → List (List Char)
  | [] => if line.isEmpty then complete.reverse else (line.reverse :: complete).reverse
  | '\n' :: rest => splitLines (endLine line :: complete) [] rest
  | c :: rest => splitLines complete (c :: line) rest

def lines (text : String) : List String := (splitLines [] [] text.toList).map String.ofList

end CommentTags
