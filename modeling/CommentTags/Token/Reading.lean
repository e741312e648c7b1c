import CommentTags.Error
import CommentTags.Text.Cursor

/- The outcome of reading one token. A reader that fails stops in the middle of its token, and the
   next one may go on from there, so the cursor is kept in both cases. -/
namespace CommentTags

structure Reading (α : Type) where
  result : Except TagError α
  cursor : Cursor

namespace Reading

def read (value : α) (cursor : Cursor) : Reading α := ⟨.ok value, cursor⟩

def fail (fault : Fault) (start : Position) (cursor : Cursor) : Reading α :=
  ⟨.error ⟨fault, start, cursor.position⟩, cursor⟩

end Reading
end CommentTags
