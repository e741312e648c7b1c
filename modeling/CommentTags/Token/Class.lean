import CommentTags.Unicode.Alphabetic
import CommentTags.Unicode.Numeric

/- Characters of names. A tag name may hold colons, because its group stands before one. -/
namespace CommentTags
open Unicode

def isNameStart (c : Char) : Bool := isAlphabetic c || c == '_'

def isNameInterior (c : Char) : Bool :=
  isAlphabetic c || isNumeric c || c == '_' || c == '.' || c == '-'

def isTagNameInterior (c : Char) : Bool := isNameInterior c || c == ':'

theorem name_start_is_interior (c : Char) (start : isNameStart c = true) :
    isNameInterior c = true := by
  simp only [isNameStart, isNameInterior, Bool.or_eq_true] at *
  rcases start with letter | underscore <;> simp [*]

end CommentTags
