import CommentTags.Json.Text
import CommentTags.Proofs.Text.Runs
import CommentTags.Token.Integer

/- The text of a JSON value tells the value. A value shows its form by its first character, and it
   can be read without a look at what follows, but for numbers, which end where no digit follows.
   Both layouts put the same characters between the parts, whatever the parts are. -/
namespace CommentTags
namespace Json

section Quoted

def unmark : Char → Char
  | 'b' => '\x08'
  | 't' => '\t'
  | 'n' => '\n'
  | 'f' => '\x0c'
  | 'r' => '\r'
  | c => c

/-- The character whose code is at the front, and what follows the code. A quotation mark by itself
    is no code. -/
def readCode? : List Char → Option (Char × List Char)
  | '\\' :: 'u' :: '0' :: '0' :: high :: low :: rest =>
    some (Char.ofNat (16 * (digitValue 16 high).getD 0 + (digitValue 16 low).getD 0), rest)
  | '\\' :: mark :: rest => some (unmark mark, rest)
  | c :: rest => if c = '"' then none else some (c, rest)
  | [] => none

theorem digitValue_digitChar : ∀ n, n < 16 → digitValue 16 (Nat.digitChar n) = some n := by decide

theorem readCode?_control {c : Char} (control : c.toNat < 0x20) (rest : List Char) :
    readCode? ('\\' :: 'u' :: '0' :: '0' :: Nat.digitChar (c.toNat / 16) ::
      Nat.digitChar (c.toNat % 16) :: rest) = some (c, rest) := by
  have high := digitValue_digitChar (c.toNat / 16) (by omega)
  have low := digitValue_digitChar (c.toNat % 16) (by omega)
  have code : 16 * (c.toNat / 16) + c.toNat % 16 = c.toNat := by omega
  simp [readCode?, high, low, code]

theorem readCode?_plain {c : Char} (noQuote : ¬c = '"') (noBackslash : ¬c = '\\')
    (rest : List Char) : readCode? (c :: rest) = some (c, rest) := by
  rw [readCode?.eq_def]
  split <;> simp_all

theorem readCode?_escapeChar (c : Char) (rest : List Char) :
    readCode? (escapeChar c ++ rest) = some (c, rest) := by
  unfold escapeChar
  -- the characters that have a letter of their own behind the backslash
  iterate 7 (split; · subst_vars; rfl)
  split
  · exact readCode?_control ‹_› rest
  · exact readCode?_plain ‹¬c = '"'› ‹¬c = '\\'› rest

theorem codes_unique {text other rest rest' : List Char}
    (same : text.flatMap escapeChar ++ '"' :: rest = other.flatMap escapeChar ++ '"' :: rest') :
    text = other ∧ rest = rest' := by
  induction text generalizing other with
  | nil =>
    cases other with
    | nil => exact ⟨rfl, (List.cons.inj same).2⟩
    | cons d other =>
      have codes := congrArg readCode? same
      rw [List.flatMap_cons, List.append_assoc, readCode?_escapeChar] at codes
      simp [readCode?] at codes
  | cons c text ih =>
    have codes := congrArg readCode? same
    rw [List.flatMap_cons, List.append_assoc, readCode?_escapeChar] at codes
    cases other with
    | nil => simp [readCode?] at codes
    | cons d other =>
      rw [List.flatMap_cons, List.append_assoc, readCode?_escapeChar] at codes
      obtain ⟨rfl, further⟩ := Prod.mk.inj (Option.some.inj codes)
      obtain ⟨rfl, rests⟩ := ih further
      exact ⟨rfl, rests⟩

theorem quote_unique {text other : String} {rest rest' : List Char}
    (same : quote text ++ rest = quote other ++ rest') : text = other ∧ rest = rest' := by
  simp only [quote, List.cons_append, List.append_assoc, List.nil_append] at same
  obtain ⟨texts, rests⟩ := codes_unique (List.cons.inj same).2
  exact ⟨String.toList_inj.mp texts, rests⟩

end Quoted

section Numbers

def NoDigit (rest : List Char) : Prop := Stops Char.isDigit rest

theorem toDigits_digit {n : Nat} {c : Char} (member : c ∈ Nat.toDigits 10 n) :
    c.isDigit = true :=
  Nat.isDigit_of_mem_toDigits (by decide) (by decide) member

theorem toDigits_unique {m n : Nat} {rest rest' : List Char} (ends : NoDigit rest)
    (ends' : NoDigit rest') (same : Nat.toDigits 10 m ++ rest = Nat.toDigits 10 n ++ rest') :
    m = n ∧ rest = rest' := by
  obtain ⟨digits, rests⟩ := run_unique (fun _ => toDigits_digit) ends (fun _ => toDigits_digit)
    ends' same
  refine ⟨?_, rests⟩
  rw [← Nat.ofDigitChars_ten_toDigits (n := m), digits, Nat.ofDigitChars_ten_toDigits]

theorem toDigits_front (n : Nat) (rest : List Char) :
    ∃ c tail, Nat.toDigits 10 n ++ rest = c :: tail ∧ c.isDigit = true := by
  cases digits : Nat.toDigits 10 n with
  | nil => exact absurd digits Nat.toDigits_ne_nil
  | cons c tail => exact ⟨c, tail ++ rest, rfl, toDigits_digit (digits ▸ List.mem_cons_self)⟩

theorem toDigits_unsigned (m : Nat) (rest rest' : List Char) :
    Nat.toDigits 10 m ++ rest ≠ '-' :: rest' := by
  obtain ⟨c, tail, front, digit⟩ := toDigits_front m rest
  rw [front]
  intro same
  rw [(List.cons.inj same).1] at digit
  exact absurd digit (by decide)

theorem digits_unique {value other : Int} {rest rest' : List Char} (ends : NoDigit rest)
    (ends' : NoDigit rest') (same : digits value ++ rest = digits other ++ rest') :
    value = other ∧ rest = rest' := by
  unfold digits at same
  split at same <;> split at same
  · obtain ⟨sizes, rests⟩ := toDigits_unique ends ends' (List.cons.inj same).2
    exact ⟨by omega, rests⟩
  · exact absurd same.symm (toDigits_unsigned _ _ _)
  · exact absurd same (toDigits_unsigned _ _ _)
  · obtain ⟨sizes, rests⟩ := toDigits_unique ends ends' same
    exact ⟨by omega, rests⟩

end Numbers

section Forms
variable {layout : Layout} {depth : Nat}

inductive Form
  | bool
  | int
  | string
  | array
  | object
deriving DecidableEq

def form : Json → Form
  | bool _ => .bool
  | int _ => .int
  | string _ => .string
  | array _ => .array
  | object _ => .object

def Form.ofChar? (c : Char) : Option Form :=
  if c == '-' || c.isDigit then some .int
  else if c = '"' then some .string
  else if c = '[' then some .array
  else if c = '\x7b' then some .object
  else if c = 't' ∨ c = 'f' then some .bool
  else none

theorem write_bool (value : Bool) (rest : List Char) :
    write layout depth (.bool value) rest =
      (if value then "true" else "false").toList ++ rest := by
  cases value <;> rfl

theorem write_int (value : Int) (rest : List Char) :
    write layout depth (.int value) rest = digits value ++ rest := rfl

theorem write_string (text : String) (rest : List Char) :
    write layout depth (.string text) rest = quote text ++ rest := rfl

theorem write_front (layout : Layout) (depth : Nat) (value : Json) (rest : List Char) :
    ∃ c tail, write layout depth value rest = c :: tail ∧ Form.ofChar? c = some value.form := by
  cases value with
  | bool value => cases value <;> exact ⟨_, _, rfl, rfl⟩
  | int value =>
    rw [write_int, digits]
    split
    · exact ⟨_, _, rfl, rfl⟩
    · obtain ⟨c, tail, front, digit⟩ := toDigits_front value.natAbs rest
      exact ⟨c, tail, front, by simp [Form.ofChar?, form, digit]⟩
  | string text => exact ⟨_, _, rfl, rfl⟩
  | array items => cases items <;> exact ⟨_, _, rfl, rfl⟩
  | object fields => cases fields <;> exact ⟨_, _, rfl, rfl⟩

theorem form_of_write {value other : Json} {rest rest' : List Char}
    (same : write layout depth value rest = write layout depth other rest') :
    value.form = other.form := by
  obtain ⟨c, tail, front, form⟩ := write_front layout depth value rest
  obtain ⟨d, tail', front', form'⟩ := write_front layout depth other rest'
  rw [front, front'] at same
  rw [(List.cons.inj same).1, form'] at form
  exact (Option.some.inj form).symm

end Forms

/-- What is written for the item is not the front of what is written for another one. -/
def Unmistakable {α : Type} (one : α → List Char → List Char) (item : α) : Prop :=
  ∀ (other : α) (rest rest' : List Char), NoDigit rest → NoDigit rest' →
    one item rest = one other rest' → item = other ∧ rest = rest'

section Lists
variable {α : Type}

def writeLater (layout : Layout) (depth : Nat) (one : α → List Char → List Char)
    (items : List α) (rest : List Char) : List Char :=
  items.foldr (fun item rest => ',' :: (lineBreak layout depth ++ one item rest)) rest

def writeList (layout : Layout) (depth : Nat) (opening closing : Char)
    (one : α → List Char → List Char) (items : List α) (rest : List Char) : List Char :=
  match items with
  | [] => opening :: closing :: rest
  | first :: later =>
    opening :: (lineBreak layout (depth + 1) ++ one first
      (writeLater layout (depth + 1) one later (lineBreak layout depth ++ closing :: rest)))

def ListEnds (rest : List Char) : Prop := Stops (fun c => c.isDigit || c == ',') rest

variable {layout : Layout} {depth : Nat} {opening closing : Char}
  {one : α → List Char → List Char} {items others : List α} {rest rest' : List Char}

theorem closing_ends (closes : closing = ']' ∨ closing = '\x7d') (rest : List Char) :
    ListEnds (lineBreak layout depth ++ closing :: rest) := by
  cases layout with
  | compact =>
    refine (stops_cons_iff _ _ _).mpr ?_
    rcases closes with rfl | rfl <;> decide
  | pretty => exact (stops_cons_iff _ _ _).mpr (by decide)

theorem writeLater_noDigit (ends : ListEnds rest) :
    NoDigit (writeLater layout depth one items rest) := by
  cases items with
  | nil => exact stops_narrow (by simp +contextual) ends
  | cons item items => exact (stops_cons_iff _ _ _).mpr (by decide)

theorem writeLater_cons_ne (ends : ListEnds rest) (item : α) :
    writeLater layout depth one (item :: items) rest' ≠ rest := by
  rintro rfl
  exact absurd (ends ',' rfl) (by decide)

theorem writeLater_unique (told : ∀ item ∈ items, Unmistakable one item) (ends : ListEnds rest)
    (ends' : ListEnds rest')
    (same : writeLater layout depth one items rest = writeLater layout depth one others rest') :
    items = others ∧ rest = rest' := by
  induction items generalizing others with
  | nil =>
    cases others with
    | nil => exact ⟨rfl, same⟩
    | cons other others => exact absurd same.symm (writeLater_cons_ne ends other)
  | cons item items ih =>
    obtain ⟨first, further⟩ := List.forall_mem_cons.mp told
    cases others with
    | nil => exact absurd same (writeLater_cons_ne ends' item)
    | cons other others =>
      have later := List.append_cancel_left (List.cons.inj same).2
      obtain ⟨rfl, behind⟩ :=
        first other _ _ (writeLater_noDigit ends) (writeLater_noDigit ends') later
      obtain ⟨rfl, rests⟩ := ih further behind
      exact ⟨rfl, rests⟩

theorem closing_not_first (closes : closing = ']' ∨ closing = '\x7d')
    (filled : ∀ item rest rest', one item rest ≠ closing :: rest') (item : α) :
    lineBreak layout depth ++ one item rest ≠ closing :: rest' := by
  cases layout with
  | compact => exact filled item rest rest'
  | pretty =>
    intro same
    obtain rfl := (List.cons.inj same).1
    exact absurd closes (by decide)

theorem writeList_unique (closes : closing = ']' ∨ closing = '\x7d')
    (filled : ∀ item rest rest', one item rest ≠ closing :: rest')
    (told : ∀ item ∈ items, Unmistakable one item)
    (same : writeList layout depth opening closing one items rest =
      writeList layout depth opening closing one others rest') : items = others ∧ rest = rest' := by
  cases items with
  | nil =>
    cases others with
    | nil => exact ⟨rfl, (List.cons.inj (List.cons.inj same).2).2⟩
    | cons other others =>
      exact absurd (List.cons.inj same).2.symm (closing_not_first closes filled other)
  | cons item items =>
    obtain ⟨first, further⟩ := List.forall_mem_cons.mp told
    cases others with
    | nil => exact absurd (List.cons.inj same).2 (closing_not_first closes filled item)
    | cons other others =>
      have inside := List.append_cancel_left (List.cons.inj same).2
      have ends (rest : List Char) : ListEnds (lineBreak layout depth ++ closing :: rest) :=
        closing_ends closes rest
      obtain ⟨rfl, later⟩ :=
        first other _ _ (writeLater_noDigit (ends rest)) (writeLater_noDigit (ends rest')) inside
      obtain ⟨rfl, behind⟩ := writeLater_unique further (ends rest) (ends rest') later
      exact ⟨rfl, (List.cons.inj (List.append_cancel_left behind)).2⟩

end Lists

section Values
variable {layout : Layout} {depth : Nat}

def writeField (layout : Layout) (depth : Nat) (field : String × Json) (rest : List Char) :
    List Char :=
  quote field.1 ++ (colon layout ++ write layout depth field.2 rest)

theorem writeItems_eq (items : List Json) (rest : List Char) :
    writeItems layout depth items rest = writeLater layout depth (write layout depth) items rest := by
  induction items with
  | nil => rfl
  | cons item items ih =>
    change ',' :: (lineBreak layout depth ++
      write layout depth item (writeItems layout depth items rest)) = _
    rw [ih]
    rfl

theorem writeFields_eq (fields : List (String × Json)) (rest : List Char) :
    writeFields layout depth fields rest =
      writeLater layout depth (writeField layout depth) fields rest := by
  induction fields with
  | nil => rfl
  | cons field fields ih =>
    change ',' :: (lineBreak layout depth ++
      writeField layout depth field (writeFields layout depth fields rest)) = _
    rw [ih]
    rfl

theorem write_array (items : List Json) (rest : List Char) :
    write layout depth (.array items) rest =
      writeList layout depth '[' ']' (write layout (depth + 1)) items rest := by
  cases items with
  | nil => rfl
  | cons item items =>
    rw [writeList, ← writeItems_eq]
    rfl

theorem write_object (fields : List (String × Json)) (rest : List Char) :
    write layout depth (.object fields) rest =
      writeList layout depth '\x7b' '\x7d' (writeField layout (depth + 1)) fields rest := by
  cases fields with
  | nil => rfl
  | cons field fields =>
    rw [writeList, ← writeFields_eq]
    rfl

theorem unmistakable_bool (value : Bool) : Unmistakable (write layout depth) (.bool value) := by
  intro other rest rest' _ _ same
  cases other with
  | bool other =>
    rw [write_bool, write_bool] at same
    cases value <;> cases other <;> simp_all
  | _ => exact absurd (form_of_write same) (by simp [form])

theorem unmistakable_int (value : Int) : Unmistakable (write layout depth) (.int value) := by
  intro other rest rest' ends ends' same
  cases other with
  | int other =>
    rw [write_int, write_int] at same
    obtain ⟨rfl, rests⟩ := digits_unique ends ends' same
    exact ⟨rfl, rests⟩
  | _ => exact absurd (form_of_write same) (by simp [form])

theorem unmistakable_string (text : String) :
    Unmistakable (write layout depth) (.string text) := by
  intro other rest rest' _ _ same
  cases other with
  | string other =>
    rw [write_string, write_string] at same
    obtain ⟨rfl, rests⟩ := quote_unique same
    exact ⟨rfl, rests⟩
  | _ => exact absurd (form_of_write same) (by simp [form])

theorem unmistakable_array {items : List Json}
    (told : ∀ item ∈ items, Unmistakable (write layout (depth + 1)) item) :
    Unmistakable (write layout depth) (.array items) := by
  intro other rest rest' _ _ same
  cases other with
  | array others =>
    have filled (item : Json) (rest rest' : List Char) :
        write layout (depth + 1) item rest ≠ ']' :: rest' := by
      obtain ⟨c, tail, front, form⟩ := write_front layout (depth + 1) item rest
      rw [front]
      intro same
      rw [(List.cons.inj same).1] at form
      exact absurd form.symm (Option.some_ne_none _)
    rw [write_array, write_array] at same
    obtain ⟨rfl, rests⟩ := writeList_unique (.inl rfl) filled told same
    exact ⟨rfl, rests⟩
  | _ => exact absurd (form_of_write same) (by simp [form])

theorem unmistakable_field {field : String × Json}
    (told : Unmistakable (write layout depth) field.2) :
    Unmistakable (writeField layout depth) field := by
  intro other rest rest' ends ends' same
  obtain ⟨keys, behind⟩ := quote_unique same
  obtain ⟨values, rests⟩ := told other.2 rest rest' ends ends' (List.append_cancel_left behind)
  exact ⟨Prod.ext keys values, rests⟩

theorem unmistakable_object {fields : List (String × Json)}
    (told : ∀ field ∈ fields, Unmistakable (writeField layout (depth + 1)) field) :
    Unmistakable (write layout depth) (.object fields) := by
  intro other rest rest' _ _ same
  cases other with
  | object others =>
    have filled (field : String × Json) (rest rest' : List Char) :
        writeField layout (depth + 1) field rest ≠ '\x7d' :: rest' := by
      intro same
      exact absurd (List.cons.inj same).1 (by decide)
    rw [write_object, write_object] at same
    obtain ⟨rfl, rests⟩ := writeList_unique (.inr rfl) filled told same
    exact ⟨rfl, rests⟩
  | _ => exact absurd (form_of_write same) (by simp [form])

theorem write_unmistakable (layout : Layout) (depth : Nat) (value : Json) :
    Unmistakable (write layout depth) value := by
  match value with
  | .bool value => exact unmistakable_bool value
  | .int value => exact unmistakable_int value
  | .string text => exact unmistakable_string text
  | .array items =>
    exact unmistakable_array fun item _ => write_unmistakable layout (depth + 1) item
  | .object fields =>
    exact unmistakable_object fun field _ =>
      unmistakable_field (write_unmistakable layout (depth + 1) field.2)
termination_by value
decreasing_by
  · decreasing_tactic
  · have smaller := List.sizeOf_lt_of_mem ‹field ∈ fields›
    obtain ⟨key, value⟩ := field
    simp only [Prod.mk.sizeOf_spec, object.sizeOf_spec] at smaller ⊢
    omega

end Values

theorem text_injective (layout : Layout) {value other : Json}
    (same : value.text layout = other.text layout) : value = other :=
  (write_unmistakable layout 0 value other [] [] (stops_nil _) (stops_nil _)
    (String.ofList_injective same)).1

end Json
end CommentTags
