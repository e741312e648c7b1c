/- UTF-8 keeps the order of texts: the bytes of two texts compare as their characters do. -/
namespace CommentTags
open String (utf8EncodeChar)

def utf8 (text : String) : List UInt8 := text.toUTF8.data.toList

theorem utf8_eq (text : String) : utf8 text = text.toList.flatMap utf8EncodeChar := by
  rw [utf8, String.toUTF8_eq_toByteArray, ← String.utf8Encode_toList, List.utf8Encode,
    List.toList_data_toByteArray]

theorem byte_cons_lt_iff {m n : Nat} (small : m < 256) (small' : n < 256) (xs ys : List UInt8) :
    UInt8.ofNat m :: xs < UInt8.ofNat n :: ys ↔ m < n ∨ (m = n ∧ xs < ys) := by
  rw [List.cons_lt_cons_iff, UInt8.lt_iff_toNat_lt, ← UInt8.toNat_inj]
  rw [UInt8.toNat_ofNat_of_lt' small, UInt8.toNat_ofNat_of_lt' small']

/-- The bytes of two characters differ before either of them ends. -/
theorem utf8EncodeChar_lt {c d : Char} (less : c < d) (rest other : List UInt8) :
    utf8EncodeChar c ++ rest < utf8EncodeChar d ++ other := by
  have codes : c.val.toNat < d.val.toNat := UInt32.lt_iff_toNat_lt.mp (Char.lt_def.mp less)
  have most : d.val.toNat < 1114112 := by
    rcases d.valid with low | high
    · omega
    · exact high.2
  unfold utf8EncodeChar
  generalize c.val.toNat = m at *
  generalize d.val.toNat = n at *
  have second (v : Nat) : v / 4096 = v / 64 / 64 := by omega
  have third (v : Nat) : v / 262144 = v / 64 / 64 / 64 := by omega
  simp only [second, third]
  -- one case for each pair of widths: a longer code has the greater lead byte, and codes of one
  -- width are compared digit by digit in base 64
  repeat' split
  all_goals
    simp (disch := omega) only [List.cons_append, byte_cons_lt_iff]
    omega

theorem encoded_lt {text other : List Char} (less : text < other) :
    text.flatMap utf8EncodeChar < other.flatMap utf8EncodeChar := by
  induction text generalizing other with
  | nil =>
    cases other with
    | nil => exact absurd less (List.lt_irrefl [])
    | cons d other =>
      rw [List.flatMap_cons, List.flatMap_nil]
      cases bytes : utf8EncodeChar d with
      | nil => exact absurd bytes String.utf8EncodeChar_ne_nil
      | cons byte bytes => exact List.nil_lt_cons _ _
  | cons c text ih =>
    cases other with
    | nil => exact absurd less (List.not_lt_nil _)
    | cons d other =>
      rw [List.flatMap_cons, List.flatMap_cons]
      rcases List.cons_lt_cons_iff.mp less with first | ⟨same, further⟩
      · exact utf8EncodeChar_lt first _ _
      · rw [same]
        exact List.append_left_lt (ih further)

theorem utf8_lt_of_lt {text other : String} (less : text < other) : utf8 text < utf8 other := by
  rw [utf8_eq, utf8_eq]
  exact encoded_lt (String.lt_iff.mp less)

theorem utf8_lt_iff (text other : String) : utf8 text < utf8 other ↔ text < other := by
  constructor
  · intro bytes
    by_cases less : text < other
    · exact less
    · by_cases more : other < text
      · exact absurd bytes (Std.Asymm.asymm _ _ (utf8_lt_of_lt more))
      · rw [Std.Trichotomous.trichotomous _ _ less more] at bytes
        exact absurd bytes (List.lt_irrefl _)
  · exact utf8_lt_of_lt

end CommentTags
