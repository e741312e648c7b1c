import CommentTags.Proofs.Token.Quoted
import CommentTags.Tag.Text

/- Quoted text is read exactly. Behind the opening quote every text goes on with characters that
   may stand there, and what follows them decides: a closing quote, a bad escape, or the end. -/
namespace CommentTags

def Quotes (items : List QuotedChar) (tail text : List Char) : Prop :=
  (∀ item ∈ items, item.Valid) ∧ text = items.flatMap QuotedChar.text ++ tail

def Misescapes (tail : List Char) : Prop :=
  ∃ c rest, tail = '\\' :: c :: rest ∧ needsEscape c = false

theorem quotes_nothing (text : List Char) : Quotes [] text text := ⟨by simp, rfl⟩

theorem quotes_cons {item : QuotedChar} {items : List QuotedChar} {tail text : List Char}
    (valid : item.Valid) (quotes : Quotes items tail text) :
    Quotes (item :: items) tail (item.text ++ text) :=
  ⟨List.forall_mem_cons.mpr ⟨valid, quotes.1⟩, by rw [quotes.2]; simp⟩

/-- Every text closes, has a bad escape in front of any closing quote, or stays open, with or
    without a backslash at its end. -/
theorem exists_quotes (text : List Char) :
    ∃ items tail, Quotes items tail text ∧
      ((∃ rest, tail = '"' :: rest) ∨ Misescapes tail ∨ tail = [] ∨ tail = ['\\']) := by
  -- the cases are those of the reader, wherever it stands
  have behind (content : List Char) (here : Position) : ∃ items tail, Quotes items tail text ∧
      ((∃ rest, tail = '"' :: rest) ∨ Misescapes tail ∨ tail = [] ∨ tail = ['\\']) := by
    induction content, here, text using readEscaped.induct with
    | case1 => exact ⟨[], [], quotes_nothing [], .inr (.inr (.inl rfl))⟩
    | case2 _ _ rest => exact ⟨[], _, quotes_nothing _, .inl ⟨rest, rfl⟩⟩
    | case3 => exact ⟨[], _, quotes_nothing _, .inr (.inr (.inr rfl))⟩
    | case4 _ _ c rest needed _ ih =>
      obtain ⟨items, tail, quotes, ends⟩ := ih
      have valid : (QuotedChar.escaped c).Valid := by
        simpa [QuotedChar.Valid, needsEscape] using needed
      exact ⟨_, tail, quotes_cons valid quotes, ends⟩
    | case5 _ _ c rest plain =>
      exact ⟨[], _, quotes_nothing _, .inr (.inl ⟨c, rest, rfl, by simpa using plain⟩)⟩
    | case6 _ _ c rest notQuote notBackslash ih =>
      obtain ⟨items, tail, quotes, ends⟩ := ih
      have valid : (QuotedChar.plain c).Valid := ⟨notQuote, notBackslash⟩
      exact ⟨_, tail, quotes_cons valid quotes, ends⟩
  exact behind [] .start

section Double
variable {here : Cursor} {text : List Char} {items : List QuotedChar}

theorem readQuoted_items {tail : List Char} (front : here.rest = '"' :: text)
    (quotes : Quotes items tail text) :
    readQuoted here = readEscaped here.position (items.map QuotedChar.meaning).reverse
      (here.position.after ('"' :: items.flatMap QuotedChar.text)) tail := by
  simp only [readQuoted, front]
  rw [quotes.2, readEscaped_items _ _ _ items quotes.1, List.append_nil, Position.after_cons]

theorem readQuoted_closed {rest : List Char} (front : here.rest = '"' :: text)
    (quotes : Quotes items ('"' :: rest) text) :
    readQuoted here = .read (items.map QuotedChar.meaning)
      (here.move ('"' :: (items.flatMap QuotedChar.text ++ ['"'])) rest) := by
  rw [readQuoted_items front quotes, readEscaped_closed, List.reverse_reverse]
  simp [Cursor.move, Position.after_append]

theorem readQuoted_misescaped {c : Char} {rest : List Char} (front : here.rest = '"' :: text)
    (quotes : Quotes items ('\\' :: c :: rest) text) (plain : needsEscape c = false) :
    readQuoted here = .fail (.badEscape c)
      (here.position.after ('"' :: (items.flatMap QuotedChar.text ++ ['\\'])))
      (here.move ('"' :: (items.flatMap QuotedChar.text ++ ['\\', c])) rest) := by
  rw [readQuoted_items front quotes, readEscaped.eq_def]
  simp [plain, Cursor.move, Position.after_append]

theorem readQuoted_open {tail : List Char} (front : here.rest = '"' :: text)
    (quotes : Quotes items tail text) (ends : tail = [] ∨ tail = ['\\']) :
    readQuoted here = .fail .openString here.position (here.move here.rest []) := by
  rw [readQuoted_items front quotes, front, quotes.2, readEscaped.eq_def]
  rcases ends with rfl | rfl <;> simp [Cursor.move, Position.after_append]

theorem closed_of_read {content : List Char} (front : here.rest = '"' :: text)
    (read : (readQuoted here).result = .ok content) :
    ∃ items rest, Quotes items ('"' :: rest) text := by
  obtain ⟨items, tail, quotes, ⟨rest, rfl⟩ | ⟨c, rest, rfl, plain⟩ | ends⟩ := exists_quotes text
  · exact ⟨items, rest, quotes⟩
  · simp [readQuoted_misescaped front quotes plain, Reading.fail] at read
  · simp [readQuoted_open front quotes ends, Reading.fail] at read

theorem readQuoted_written (value : String) {rest : List Char}
    (unread : here.rest = (Scalar.string value).text.toList ++ rest) :
    readQuoted here =
      .read value.toList (here.move (Scalar.string value).text.toList rest) := by
  have written : (Scalar.string value).text.toList = quote value.toList := String.toList_ofList
  rw [written, quote, ← flatMap_ofChar] at unread ⊢
  have quotes : Quotes (value.toList.map QuotedChar.ofChar) ('"' :: rest)
      ((value.toList.map QuotedChar.ofChar).flatMap QuotedChar.text ++ '"' :: rest) := by
    refine ⟨?_, rfl⟩
    intro item member
    obtain ⟨c, _, rfl⟩ := List.mem_map.mp member
    exact QuotedChar.ofChar_valid c
  rw [readQuoted_closed (by simpa using unread) quotes, map_meaning_ofChar]

end Double

/-- Between double quotes a text is read for what it stands for, up to the quote that closes it.
    A bad escape in front of that is shown by its character, and an open text from its quote to the
    end. What is written for a string is read back, and between backticks nothing is escaped. -/
theorem readQuoted_exact (here : Cursor) :
    (∀ text, here.rest = '"' :: text →
      (∀ content beyond, readQuoted here = .read content beyond ↔
        ∃ items rest, Quotes items ('"' :: rest) text ∧
          content = items.map QuotedChar.meaning ∧
          beyond = here.move ('"' :: (items.flatMap QuotedChar.text ++ ['"'])) rest) ∧
      (∀ items c rest, Quotes items ('\\' :: c :: rest) text → needsEscape c = false →
        readQuoted here = .fail (.badEscape c)
          (here.position.after ('"' :: (items.flatMap QuotedChar.text ++ ['\\'])))
          (here.move ('"' :: (items.flatMap QuotedChar.text ++ ['\\', c])) rest)) ∧
      ((∀ items rest, ¬ Quotes items ('"' :: rest) text) →
        (∀ items tail, Quotes items tail text → ¬ Misescapes tail) →
        readQuoted here = .fail .openString here.position (here.move here.rest []))) ∧
    (∀ (value : String) rest, here.rest = (Scalar.string value).text.toList ++ rest →
      readQuoted here =
        .read value.toList (here.move (Scalar.string value).text.toList rest)) ∧
    (∀ text, here.rest = '`' :: text →
      (∀ content rest, '`' ∉ content → text = content ++ '`' :: rest →
        readQuoted here = .read content (here.move ('`' :: (content ++ ['`'])) rest)) ∧
      ('`' ∉ text →
        readQuoted here = .fail .openBacktick here.position (here.move here.rest []))) ∧
    (∀ c, (Fault.badEscape c).message = "Invalid escape sequence '\\" ++ c.toString ++ "'") ∧
    Fault.openString.message = "Unterminated string" := by
  refine ⟨?_, ?_, ?_, fun _ => rfl, rfl⟩
  · intro text front
    refine ⟨?_, ?_, ?_⟩
    · intro content beyond
      constructor
      · intro read
        obtain ⟨items, rest, quotes⟩ := closed_of_read front (congrArg Reading.result read)
        rw [readQuoted_closed front quotes] at read
        obtain ⟨same, moved⟩ := Reading.mk.inj read
        exact ⟨items, rest, quotes, (Except.ok.inj same).symm, moved.symm⟩
      · rintro ⟨items, rest, quotes, rfl, rfl⟩
        exact readQuoted_closed front quotes
    · intro items c rest quotes plain
      exact readQuoted_misescaped front quotes plain
    · intro unclosed unmistaken
      obtain ⟨items, tail, quotes, ⟨rest, rfl⟩ | mistaken | ends⟩ := exists_quotes text
      · exact absurd quotes (unclosed items rest)
      · exact absurd mistaken (unmistaken items tail quotes)
      · exact readQuoted_open front quotes ends
  · intro value rest unread
    exact readQuoted_written value unread
  · intro text front
    constructor
    · intro content rest free split
      rw [readQuoted_backtick front, readVerbatim_complete _ free split, Cursor.move_move]
      rfl
    · intro free
      rw [readQuoted_backtick front, readVerbatim_open _ _ free, Cursor.move_move, front]
      rfl

theorem quoted_forms_read :
    readQuoted (.start "\"a\\\"ü\\\\\" b".toList) =
        .read "a\"ü\\".toList ⟨⟨8, 9⟩, " b".toList⟩ ∧
      readQuoted (.start "\"ü\\n\"".toList) =
        .fail (.badEscape 'n') ⟨3, 4⟩ ⟨⟨4, 5⟩, ['"']⟩ ∧
      readQuoted (.start "\"\\\"\\".toList) = .fail .openString .start ⟨⟨4, 4⟩, []⟩ ∧
      readQuoted (.start "`\\ü` b".toList) = .read "\\ü".toList ⟨⟨4, 5⟩, " b".toList⟩ := by
  refine ⟨?_, ?_, ?_, ?_⟩
  · have written := (readQuoted_exact (.start "\"a\\\"ü\\\\\" b".toList)).2.1
    exact written "a\"ü\\" " b".toList (by decide)
  · obtain ⟨-, misescaped, -⟩ := (readQuoted_exact (.start "\"ü\\n\"".toList)).1 _ rfl
    exact misescaped [.plain 'ü'] 'n' ['"'] ⟨by simp [QuotedChar.Valid], rfl⟩ rfl
  · obtain ⟨closes, misescaped, stays⟩ :=
      (readQuoted_exact (.start "\"\\\"\\".toList)).1 _ rfl
    have outcome : (readQuoted (.start "\"\\\"\\".toList)).result =
      .error ⟨.openString, ⟨0, 0⟩, ⟨4, 4⟩⟩ := by decide
    refine stays ?_ ?_
    · intro items rest quotes
      rw [(closes _ _).mpr ⟨items, rest, quotes, rfl, rfl⟩] at outcome
      simp [Reading.read] at outcome
    · rintro items tail quotes ⟨c, rest, rfl, plain⟩
      rw [misescaped items c rest quotes plain] at outcome
      simp [Reading.fail] at outcome
  · obtain ⟨closed, -⟩ := (readQuoted_exact (.start "`\\ü` b".toList)).2.2.1 _ rfl
    exact closed ['\\', 'ü'] " b".toList (by decide) rfl

end CommentTags
