/- How tags are read. In raw mode everything after an equals sign is kept as it stands;
   otherwise at most `maxDepth` links may follow one another. -/
namespace CommentTags

structure Options where
  raw : Bool := false
  maxDepth : Nat := 64
deriving DecidableEq

end CommentTags
