import CommentTags.Proofs.Text.Runs
import CommentTags.Token.Quoted

/- What may stand between quotes and what it stands for. Reading a quoted text takes exactly one
   such stretch and gives back the characters it stands for. -/
namespace CommentTags

/-- A character between double quotes: by itself, or behind a backslash. -/
inductive QuotedChar
  | plain (c : Char)
  | escaped (c : Char)
deriving DecidableEq

namespace QuotedChar

def Valid : QuotedChar → Prop
  | plain c => c ≠ '"' ∧ c ≠ '\\'
  | escaped c => c = '"' ∨ c = '\\'

def text : QuotedChar → List Char
  | plain c => [c]
  | escaped c => ['\\', c]

def meaning : QuotedChar → Char
  | plain c => c
  | escaped c => c

def ofChar (c : Char) : QuotedChar := if needsEscape c then escaped c else plain c

theorem ofChar_valid (c : Char) : (ofChar c).Valid := by
  unfold ofChar
  split <;> simp_all [needsEscape, Valid]

theorem ofChar_meaning (c : Char) : (ofChar c).meaning = c := by
  unfold ofChar
  split <;> rfl

theorem ofChar_text (c : Char) :
    (ofChar c).text = if needsEscape c then ['\\', c] else [c] := by
  unfold ofChar
  split <;> rfl

theorem eq_ofChar {item : QuotedChar} (valid : item.Valid) : item = ofChar item.meaning := by
  cases item with
  | plain c => simp_all [Valid, ofChar, meaning, needsEscape]
  | escaped c => rcases valid with rfl | rfl <;> rfl

end QuotedChar

theorem flatMap_ofChar (content : List Char) :
    (content.map QuotedChar.ofChar).flatMap QuotedChar.text = escape content := by
  simp only [List.flatMap_map, QuotedChar.ofChar_text, escape]

theorem map_meaning_ofChar (content : List Char) :
    (content.map QuotedChar.ofChar).map QuotedChar.meaning = content := by
  simp [Function.comp_def, QuotedChar.ofChar_meaning]

theorem quoted_chars_unique {items others : List QuotedChar} (valid : ∀ item ∈ items, item.Valid)
    (valid' : ∀ item ∈ others, item.Valid)
    (same : items.map QuotedChar.meaning = others.map QuotedChar.meaning) : items = others := by
  have written {list : List QuotedChar} (each : ∀ item ∈ list, item.Valid) :
      (list.map QuotedChar.meaning).map QuotedChar.ofChar = list := by
    rw [List.map_map]
    calc list.map (QuotedChar.ofChar ∘ QuotedChar.meaning)
        = list.map id := List.map_congr_left fun item member =>
          (QuotedChar.eq_ofChar (each item member)).symm
      _ = list := List.map_id list
  rw [← written valid, same, written valid']

section Reading
variable (opening : Position) (content : List Char) (here : Position) (rest : List Char)

theorem readEscaped_closed :
    readEscaped opening content here ('"' :: rest) =
      .read content.reverse ⟨here.past '"', rest⟩ := by
  rw [readEscaped.eq_def]
  simp

theorem readEscaped_plain {c : Char} (plain : c ≠ '"' ∧ c ≠ '\\') :
    readEscaped opening content here (c :: rest) =
      readEscaped opening (c :: content) (here.past c) rest := by
  conv => lhs; rw [readEscaped.eq_def]
  simp [plain]

theorem readEscaped_pair {c : Char} (needed : needsEscape c = true) :
    readEscaped opening content here ('\\' :: c :: rest) =
      readEscaped opening (c :: content) ((here.past '\\').past c) rest := by
  conv => lhs; rw [readEscaped.eq_def]
  simp [needed]

end Reading

/-- Characters that may stand between quotes are read up to whatever follows them. -/
theorem readEscaped_items (opening : Position) (content : List Char) (here : Position)
    (items : List QuotedChar) (valid : ∀ item ∈ items, item.Valid) (tail : List Char) :
    readEscaped opening content here (items.flatMap QuotedChar.text ++ tail) =
      readEscaped opening ((items.map QuotedChar.meaning).reverse ++ content)
        (here.after (items.flatMap QuotedChar.text)) tail := by
  induction items generalizing content here with
  | nil => simp
  | cons item items ih =>
    have first := valid item (by simp)
    have valid' : ∀ other ∈ items, other.Valid := fun other member => valid other (by simp [member])
    cases item with
    | plain c =>
      simp only [List.flatMap_cons, QuotedChar.text, List.cons_append, List.nil_append]
      rw [readEscaped_plain opening content here _ first, ih _ _ valid']
      simp [QuotedChar.meaning]
    | escaped c =>
      have needed : needsEscape c = true := by
        rcases first with rfl | rfl <;> rfl
      simp only [List.flatMap_cons, QuotedChar.text, List.cons_append, List.nil_append]
      rw [readEscaped_pair opening content here _ needed, ih _ _ valid']
      simp [QuotedChar.meaning]

theorem readEscaped_complete (opening : Position) (content : List Char) (here : Position)
    (items : List QuotedChar) (valid : ∀ item ∈ items, item.Valid) (rest : List Char) :
    readEscaped opening content here (items.flatMap QuotedChar.text ++ '"' :: rest) =
      .read (content.reverse ++ items.map QuotedChar.meaning)
        ⟨here.after (items.flatMap QuotedChar.text ++ ['"']), rest⟩ := by
  rw [readEscaped_items opening content here items valid, readEscaped_closed]
  simp [Position.after_append]

theorem readEscaped_sound {opening : Position} {content : List Char} {here : Position}
    {text result : List Char} {beyond : Cursor}
    (read : readEscaped opening content here text = ⟨.ok result, beyond⟩) :
    ∃ items : List QuotedChar, (∀ item ∈ items, item.Valid) ∧
      result = content.reverse ++ items.map QuotedChar.meaning ∧
      Cursor.Passes ⟨here, text⟩ (items.flatMap QuotedChar.text ++ ['"']) beyond := by
  fun_induction readEscaped opening content here text with
  | case1 => simp [Reading.fail] at read
  | case2 content here rest =>
    simp only [Reading.read, Reading.mk.injEq, Except.ok.injEq] at read
    obtain ⟨rfl, rfl⟩ := read
    exact ⟨[], by simp, by simp, by simp [Cursor.Passes]⟩
  | case3 => simp [Reading.fail] at read
  | case4 content here escaped later needed _ ih =>
    obtain ⟨items, valid, same, moved⟩ := ih read
    refine ⟨.escaped escaped :: items, ?_, ?_, ?_⟩
    · intro item member
      rcases List.mem_cons.mp member with rfl | further
      · simpa [QuotedChar.Valid, needsEscape] using needed
      · exact valid item further
    · simp [same, QuotedChar.meaning]
    · simpa [Cursor.Passes, QuotedChar.text] using moved
  | case5 => simp [Reading.fail] at read
  | case6 content here c rest notQuote notBackslash ih =>
    obtain ⟨items, valid, same, moved⟩ := ih read
    refine ⟨.plain c :: items, ?_, ?_, ?_⟩
    · intro item member
      rcases List.mem_cons.mp member with rfl | further
      · exact ⟨notQuote, notBackslash⟩
      · exact valid item further
    · simp [same, QuotedChar.meaning]
    · simpa [Cursor.Passes, QuotedChar.text] using moved

theorem readVerbatim_complete (opening : Position) {here : Cursor} {content rest : List Char}
    (free : '`' ∉ content) (unread : here.rest = content ++ '`' :: rest) :
    readVerbatim opening here = .read content (here.move (content ++ ['`']) rest) := by
  have stops : Stops (· != '`') ('`' :: rest) := by simp [stops_cons_iff]
  have run := takeWhile_run (others_inside free) stops
  have behind := dropWhile_run (others_inside free) stops
  unfold readVerbatim Cursor.takeRun
  simp only [unread, run, behind, Cursor.move_rest]
  rw [Cursor.skip_eq_move (Cursor.move_rest _ _ _), Cursor.move_move]

theorem readVerbatim_sound {opening : Position} {here beyond : Cursor} {content : List Char}
    (read : readVerbatim opening here = ⟨.ok content, beyond⟩) :
    '`' ∉ content ∧ here.Passes (content ++ ['`']) beyond := by
  have run := Cursor.takeRun_passes here (· != '`')
  unfold readVerbatim at read
  simp only at read
  split at read
  · simp [Reading.fail] at read
  · rename_i c rest front
    simp only [Reading.read, Reading.mk.injEq, Except.ok.injEq] at read
    obtain ⟨rfl, rfl⟩ := read
    have closing : c = '`' := by
      have outside := dropWhile_stops (· != '`') here.rest c
      rw [show here.rest.dropWhile (· != '`') = c :: rest from front] at outside
      simpa using outside (by simp)
    refine ⟨?_, Cursor.passes_append run (Cursor.skip_passes (closing ▸ front))⟩
    intro member
    simpa using List.mem_takeWhile_imp member

theorem readVerbatim_open (opening : Position) (here : Cursor) (free : '`' ∉ here.rest) :
    readVerbatim opening here = .fail .openBacktick opening (here.move here.rest []) := by
  have run := takeWhile_run (others_inside free) (stops_nil _)
  have behind := dropWhile_run (others_inside free) (stops_nil _)
  rw [List.append_nil] at run behind
  simp only [readVerbatim, Cursor.takeRun, run, behind, Cursor.move_rest]

theorem readQuoted_backtick {here : Cursor} {text : List Char} (front : here.rest = '`' :: text) :
    readQuoted here = readVerbatim here.position (here.move ['`'] text) := by
  rw [← Cursor.skip_eq_move front]
  simp only [readQuoted, front]

end CommentTags
