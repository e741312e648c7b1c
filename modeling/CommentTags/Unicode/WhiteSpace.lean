import CommentTags.Unicode.Ranges

/- The Unicode property White_Space. -/
namespace CommentTags.Unicode

def whiteSpace : List Range := [
  ⟨0x0009, 0x000D⟩, ⟨0x0020, 0x0020⟩, ⟨0x0085, 0x0085⟩, ⟨0x00A0, 0x00A0⟩, ⟨0x1680, 0x1680⟩,
  ⟨0x2000, 0x200A⟩, ⟨0x2028, 0x2029⟩, ⟨0x202F, 0x202F⟩, ⟨0x205F, 0x205F⟩, ⟨0x3000, 0x3000⟩]

theorem whiteSpace_ascending : Ascending whiteSpace := by decide +kernel

def isWhiteSpace (c : Char) : Bool := covers c.toNat whiteSpace

end CommentTags.Unicode
