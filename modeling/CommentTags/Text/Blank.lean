import CommentTags.Unicode.WhiteSpace

/- White space at the two ends of a text. -/
namespace CommentTags
open Unicode

def indent (text : List Char) : List Char := text.takeWhile isWhiteSpace

def trimStart (text : List Char) : List Char := text.dropWhile isWhiteSpace

def trimEnd (text : List Char) : List Char := (text.reverse.dropWhile isWhiteSpace).reverse

def trim (text : List Char) : List Char := trimEnd (trimStart text)

theorem indent_append_trimStart (text : List Char) : indent text ++ trimStart text = text :=
  List.takeWhile_append_dropWhile

end CommentTags
