import CommentTags.Proofs.Tag.Starts

/- A text has at most one derivation. Part after part, what may follow a part shows where it ends,
   so two derivations of one text agree on their first part and on the rest. -/
namespace CommentTags
open Unicode

/-- No value can be taken for a name, because a colon stands behind a name and no separator. -/
theorem value_not_name {value : ScalarSpelling} {name blanks blanks' text text' : List Char}
    (valid : value.Valid) (named : IsName isNameInterior name) (blank : Blank blanks)
    (blank' : Blank blanks') (separated : Separated text) :
    value.text ++ (blanks ++ text) ≠ name ++ (blanks' ++ ':' :: text') := by
  intro same
  have bareValid : (ScalarSpelling.bare name).Valid := named
  obtain ⟨_, rests⟩ := scalar_spelling_unique valid (separator_ends_name blank separated) bareValid
    (colon_ends_name blank' text') same
  obtain ⟨_, ends⟩ := run_unique blank (separated_dark separated) blank'
    ((stops_cons_iff _ _ _).mpr (by decide)) rests
  obtain ⟨c, _, rfl, rfl | rfl⟩ := separated <;> simp at ends

theorem value_unique {value other : ScalarSpelling} {behind behind' rest rest' : List Char}
    (valid : value.Valid) (blank : Blank behind) (separated : Separated rest)
    (valid' : other.Valid) (blank' : Blank behind') (separated' : Separated rest')
    (same : value.text ++ (behind ++ rest) = other.text ++ (behind' ++ rest')) :
    value = other ∧ behind = behind' ∧ rest = rest' := by
  obtain ⟨rfl, rests⟩ := scalar_spelling_unique valid (separator_ends_name blank separated) valid'
    (separator_ends_name blank' separated') same
  obtain ⟨rfl, rfl⟩ := run_unique blank (separated_dark separated) blank'
    (separated_dark separated') rests
  exact ⟨rfl, rfl, rfl⟩

theorem argument_unique {argument other : ArgumentSpelling} {behind behind' rest rest' : List Char}
    (valid : argument.Valid) (blank : Blank behind) (separated : Separated rest)
    (valid' : other.Valid) (blank' : Blank behind') (separated' : Separated rest')
    (same : argument.text ++ (behind ++ rest) = other.text ++ (behind' ++ rest')) :
    argument = other ∧ behind = behind' ∧ rest = rest' := by
  cases argument with
  | positional value =>
    cases other with
    | positional value' =>
      obtain ⟨rfl, rests⟩ := value_unique valid blank separated valid' blank' separated' same
      exact ⟨rfl, rests⟩
    | named name before between value' =>
      simp only [ArgumentSpelling.text, List.append_assoc, List.cons_append] at same
      exact (value_not_name valid valid'.1 blank valid'.2.1 separated same).elim
  | named name before between value =>
    cases other with
    | positional value' =>
      simp only [ArgumentSpelling.text, List.append_assoc, List.cons_append] at same
      exact (value_not_name valid' valid.1 blank' valid.2.1 separated' same.symm).elim
    | named name' before' between' value' =>
      obtain ⟨named, blankBefore, blankBetween, valueValid⟩ := valid
      obtain ⟨named', blankBefore', blankBetween', valueValid'⟩ := valid'
      simp only [ArgumentSpelling.text, List.append_assoc, List.cons_append] at same
      obtain ⟨rfl, names⟩ := name_unique named (colon_ends_name blankBefore _) named'
        (colon_ends_name blankBefore' _) same
      obtain ⟨rfl, colons⟩ := run_unique blankBefore ((stops_cons_iff _ _ _).mpr (by decide))
        blankBefore' ((stops_cons_iff _ _ _).mpr (by decide)) names
      obtain ⟨rfl, values⟩ := run_unique blankBetween (scalar_dark valueValid _) blankBetween'
        (scalar_dark valueValid' _) (List.cons.inj colons).2
      obtain ⟨rfl, rests⟩ := value_unique valueValid blank separated valueValid' blank' separated'
        values
      exact ⟨rfl, rests⟩

theorem slot_unique {slot other : Slot} {rest rest' : List Char} (valid : slot.Valid)
    (separated : Separated rest) (valid' : other.Valid) (separated' : Separated rest')
    (same : slot.text ++ rest = other.text ++ rest') : slot = other ∧ rest = rest' := by
  obtain ⟨before, argument, behind⟩ := slot
  obtain ⟨before', argument', behind'⟩ := other
  obtain ⟨blank, argumentValid, blankBehind⟩ := valid
  obtain ⟨blank', argumentValid', blankBehind'⟩ := valid'
  simp only [Slot.text, List.append_assoc] at same
  obtain ⟨rfl, arguments⟩ := run_unique blank (argument_dark argumentValid _) blank'
    (argument_dark argumentValid' _) same
  obtain ⟨rfl, rfl, rfl⟩ := argument_unique argumentValid blankBehind separated argumentValid'
    blankBehind' separated' arguments
  exact ⟨rfl, rfl⟩

theorem later_unique {later others : List Slot} {rest rest' : List Char}
    (valid : ∀ slot ∈ later, slot.Valid) (valid' : ∀ slot ∈ others, slot.Valid)
    (same : Slot.laterText later ++ rest = Slot.laterText others ++ rest') :
    later = others ∧ rest = rest' := by
  induction later generalizing others with
  | nil =>
    cases others with
    | nil => exact ⟨rfl, (List.cons.inj same).2⟩
    | cons other others => simp [Slot.laterText] at same
  | cons slot later ih =>
    cases others with
    | nil => simp [Slot.laterText] at same
    | cons other others =>
      have texts : slot.text ++ (Slot.laterText later ++ rest) =
          other.text ++ (Slot.laterText others ++ rest') := by
        simpa [Slot.laterText] using same
      obtain ⟨rfl, rests⟩ := slot_unique (valid slot (by simp)) (later_text_separated later rest)
        (valid' other (by simp)) (later_text_separated others rest') texts
      obtain ⟨rfl, rfl⟩ := ih (fun slot member => valid slot (by simp [member]))
        (fun slot member => valid' slot (by simp [member])) rests
      exact ⟨rfl, rfl⟩

theorem empty_not_present {blanks rest : List Char} {first : Slot} {later : List Slot}
    {rest' : List Char} (blank : Blank blanks) (valid : first.Valid) :
    blanks ++ ')' :: rest ≠ first.text ++ (Slot.laterText later ++ rest') := by
  intro same
  obtain ⟨before, argument, behind⟩ := first
  obtain ⟨blank', argumentValid, _⟩ := valid
  obtain ⟨c, tail, text, starts⟩ := argument_starts argumentValid
  simp only [Slot.text, List.append_assoc] at same
  obtain ⟨_, ends⟩ := run_unique blank ((stops_cons_iff _ _ _).mpr (by decide)) blank'
    (argument_dark argumentValid _) same
  rw [text, List.cons_append] at ends
  rw [← (List.cons.inj ends).1] at starts
  exact absurd starts (by decide)

section Endings
variable {isRaw isRaw' : Bool} {ending other : Ending}

theorem blank_front {blanks : List Char} {comment : Option (List Char)} {c : Char}
    {tail : List Char} (valid : (Ending.blank blanks comment).Valid isRaw)
    (same : (Ending.blank blanks comment).text = c :: tail) : isWhiteSpace c = true := by
  obtain ⟨blank, something⟩ := valid
  cases blanks with
  | nil => exact absurd rfl something
  | cons b blanks =>
    rw [← (List.cons.inj same).1]
    exact blank b (by simp)

theorem ending_not_open (valid : ending.Valid isRaw) (tail : List Char) :
    ending.text ≠ '(' :: tail := by
  intro same
  cases ending with
  | nothing => simp [Ending.text] at same
  | blank => exact absurd (blank_front valid same) (by decide)
  | scalar | raw | link => simp [Ending.text] at same

theorem list_unique {list list' : ListSpelling} (valid : list.Valid) (ends : ending.Valid isRaw)
    (valid' : list'.Valid) (ends' : other.Valid isRaw')
    (same : list.text ++ ending.text = list'.text ++ other.text) :
    list = list' ∧ ending.text = other.text := by
  cases list with
  | absent =>
    cases list' with
    | absent => exact ⟨rfl, same⟩
    | empty | present => exact (ending_not_open ends _ same).elim
  | empty blanks =>
    cases list' with
    | absent => exact (ending_not_open ends' _ same.symm).elim
    | empty blanks' =>
      have insides : blanks ++ ')' :: ending.text = blanks' ++ ')' :: other.text := by
        simpa [ListSpelling.text] using same
      have closed (text : List Char) : Stops isWhiteSpace (')' :: text) :=
        (stops_cons_iff _ _ _).mpr (by decide)
      obtain ⟨rfl, closes⟩ := run_unique valid (closed _) valid' (closed _) insides
      exact ⟨rfl, (List.cons.inj closes).2⟩
    | present first later =>
      have insides : blanks ++ ')' :: ending.text =
          first.text ++ (Slot.laterText later ++ other.text) := by
        simpa [ListSpelling.text] using same
      exact (empty_not_present valid (valid' first (by simp)) insides).elim
  | present first later =>
    cases list' with
    | absent => exact (ending_not_open ends' _ same.symm).elim
    | empty blanks =>
      have insides : blanks ++ ')' :: other.text =
          first.text ++ (Slot.laterText later ++ ending.text) := by
        simpa [ListSpelling.text] using same.symm
      exact (empty_not_present valid' (valid first (by simp)) insides).elim
    | present first' later' =>
      have insides : first.text ++ (Slot.laterText later ++ ending.text) =
          first'.text ++ (Slot.laterText later' ++ other.text) := by
        simpa [ListSpelling.text] using same
      obtain ⟨rfl, rests⟩ := slot_unique (valid first (by simp)) (later_text_separated _ _)
        (valid' first' (by simp)) (later_text_separated _ _) insides
      obtain ⟨rfl, texts⟩ := later_unique (fun slot member => valid slot (by simp [member]))
        (fun slot member => valid' slot (by simp [member])) rests
      exact ⟨rfl, texts⟩

theorem head_unique {head head' : HeadSpelling} (valid : head.Valid) (ends : ending.Valid isRaw)
    (valid' : head'.Valid) (ends' : other.Valid isRaw')
    (same : head.text ++ ending.text = head'.text ++ other.text) :
    head = head' ∧ ending.text = other.text := by
  obtain ⟨name, list⟩ := head
  obtain ⟨name', list'⟩ := head'
  simp only [HeadSpelling.text, List.append_assoc] at same
  obtain ⟨rfl, lists⟩ := name_unique valid.1 (list_stops list ends) valid'.1
    (list_stops list' ends') same
  obtain ⟨rfl, texts⟩ := list_unique valid.2.1 ends valid'.2.1 ends' lists
  exact ⟨rfl, texts⟩

theorem remark_unique {blanks blanks' : List Char} {comment comment' : Option (List Char)}
    (blank : Blank blanks) (blank' : Blank blanks')
    (same : blanks ++ commentText comment = blanks' ++ commentText comment') :
    blanks = blanks' ∧ comment = comment' := by
  have dark (comment : Option (List Char)) : Stops isWhiteSpace (commentText comment) :=
    comment_stops (by decide) comment
  obtain ⟨rfl, comments⟩ := run_unique blank (dark comment) blank' (dark comment') same
  refine ⟨rfl, ?_⟩
  cases comment <;> cases comment' <;> simp_all [commentText]

theorem blank_not_equals {blanks : List Char} {comment : Option (List Char)} {tail : List Char}
    (valid : (Ending.blank blanks comment).Valid isRaw) :
    (Ending.blank blanks comment).text ≠ '=' :: tail := by
  intro same
  exact absurd (blank_front valid same) (by decide)

theorem blank_not_nothing {blanks : List Char} {comment : Option (List Char)}
    (valid : (Ending.blank blanks comment).Valid isRaw) :
    (Ending.blank blanks comment).text ≠ [] := by
  intro same
  exact valid.2 (List.append_eq_nil_iff.mp same).1

theorem scalar_not_link {value : ScalarSpelling} {rest : List Char} {head : HeadSpelling}
    {tail : List Char} (valid : value.Valid) (valid' : head.Valid) :
    value.text ++ rest ≠ '+' :: (head.text ++ tail) := by
  intro same
  obtain ⟨c, further, text, first⟩ := head_starts valid' tail
  obtain ⟨d, later, written, _⟩ := scalar_starts valid
  have plus : d = '+' := by
    rw [written, List.cons_append] at same
    exact (List.cons.inj same).1
  rw [plus] at written
  obtain ⟨e, _, rfl, other⟩ := scalar_plus valid written
  rw [written, text, List.cons_append, List.cons_append] at same
  rw [(List.cons.inj (List.cons.inj same).2).1, first] at other
  simp at other

theorem ending_unique (valid : ending.Valid isRaw) (valid' : other.Valid isRaw)
    (same : ending.text = other.text) : ending = other := by
  induction ending generalizing other with
  | nothing =>
    cases other with
    | nothing => rfl
    | blank => exact (blank_not_nothing valid' same.symm).elim
    | scalar | raw | link => simp [Ending.text] at same
  | blank blanks comment =>
    cases other with
    | nothing => exact (blank_not_nothing valid same).elim
    | blank blanks' comment' =>
      obtain ⟨rfl, rfl⟩ := remark_unique valid.1 valid'.1 same
      rfl
    | scalar | raw | link => exact (blank_not_equals valid same).elim
  | scalar value blanks comment =>
    obtain ⟨typed, valueValid, blank⟩ := valid
    cases other with
    | nothing => simp [Ending.text] at same
    | blank => exact (blank_not_equals valid' same.symm).elim
    | scalar value' blanks' comment' =>
      obtain ⟨_, valueValid', blank'⟩ := valid'
      obtain ⟨rfl, rests⟩ := scalar_spelling_unique valueValid (comment_ends_name blank comment)
        valueValid' (comment_ends_name blank' comment') (List.cons.inj same).2
      obtain ⟨rfl, rfl⟩ := remark_unique blank blank' rests
      rfl
    | raw => exact absurd (typed.symm.trans valid'.1) Bool.false_ne_true
    | link head ending => exact (scalar_not_link valueValid valid'.2.1 (List.cons.inj same).2).elim
  | raw text =>
    cases other with
    | nothing => simp [Ending.text] at same
    | blank => exact (blank_not_equals valid' same.symm).elim
    | scalar | link => exact absurd (valid'.1.symm.trans valid.1) Bool.false_ne_true
    | raw text' => rw [(List.cons.inj same).2]
  | link head ending ih =>
    obtain ⟨typed, headValid, endingValid⟩ := valid
    cases other with
    | nothing => simp [Ending.text] at same
    | blank => exact (blank_not_equals valid' same.symm).elim
    | scalar => exact (scalar_not_link valid'.2.1 headValid (List.cons.inj same.symm).2).elim
    | raw => exact absurd (typed.symm.trans valid'.1) Bool.false_ne_true
    | link head' ending' =>
      obtain ⟨_, headValid', endingValid'⟩ := valid'
      -- the inner head ends where its own ending begins, whatever that ending is
      have insides : head.text ++ ending.text = head'.text ++ ending'.text :=
        (List.cons.inj (List.cons.inj same).2).2
      obtain ⟨rfl, texts⟩ := head_unique headValid endingValid headValid' endingValid' insides
      rw [ih endingValid endingValid' texts]

end Endings

/-- Two derivations of one text agree up to the ending, also if they are of different modes. -/
theorem spelling_head_unique {isRaw isRaw' : Bool} {spelling other : TagSpelling}
    (valid : spelling.Valid isRaw) (valid' : other.Valid isRaw')
    (same : spelling.text = other.text) :
    spelling.lead = other.lead ∧ spelling.head = other.head ∧
      spelling.ending.text = other.ending.text := by
  obtain ⟨blank, headValid, endingValid⟩ := valid
  obtain ⟨blank', headValid', endingValid'⟩ := valid'
  have dark {head : HeadSpelling} (valid : head.Valid) (rest : List Char) :
      Stops isWhiteSpace (head.text ++ rest) := by
    obtain ⟨c, tail, text, first⟩ := head_starts valid rest
    rw [text]
    exact (stops_cons_iff _ _ _).mpr (name_start_not_white first)
  obtain ⟨leads, heads⟩ := run_unique blank (dark headValid _) blank' (dark headValid' _) same
  exact ⟨leads, head_unique headValid endingValid headValid' endingValid' heads⟩

theorem spelling_unique {isRaw : Bool} {spelling other : TagSpelling}
    (valid : spelling.Valid isRaw) (valid' : other.Valid isRaw)
    (same : spelling.text = other.text) : spelling = other := by
  obtain ⟨leads, heads, endings⟩ := spelling_head_unique valid valid' same
  have sameEnding := ending_unique valid.2.2 valid'.2.2 endings
  obtain ⟨lead, head, ending⟩ := spelling
  obtain ⟨lead', head', ending'⟩ := other
  simp only at leads heads sameEnding
  rw [leads, heads, sameEnding]

end CommentTags
