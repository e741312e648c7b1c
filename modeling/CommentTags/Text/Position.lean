/- Places in a text. Columns count characters and offsets count UTF-8 bytes; both start at zero. -/
namespace CommentTags

def byteLength (text : List Char) : Nat := text.foldr (fun c bytes => c.utf8Size + bytes) 0

@[simp] theorem byteLength_nil : byteLength [] = 0 := rfl

@[simp] theorem byteLength_cons (c : Char) (text : List Char) :
    byteLength (c :: text) = c.utf8Size + byteLength text := rfl

@[simp] theorem byteLength_append (first second : List Char) :
    byteLength (first ++ second) = byteLength first + byteLength second := by
  induction first with
  | nil => simp
  | cons c first ih => simp [ih]; omega

structure Position where
  column : Nat
  offset : Nat
deriving DecidableEq

namespace Position

def start : Position := ⟨0, 0⟩

def past (p : Position) (c : Char) : Position := ⟨p.column + 1, p.offset + c.utf8Size⟩

def after (p : Position) (passed : List Char) : Position :=
  ⟨p.column + passed.length, p.offset + byteLength passed⟩

@[simp] theorem after_nil (p : Position) : p.after [] = p := rfl

@[simp] theorem after_cons (p : Position) (c : Char) (passed : List Char) :
    p.after (c :: passed) = (p.past c).after passed := by
  simp [after, past]; omega

theorem after_append (p : Position) (first second : List Char) :
    p.after (first ++ second) = (p.after first).after second := by
  simp [after]; omega

end Position
end CommentTags
