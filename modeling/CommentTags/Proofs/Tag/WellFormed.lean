import CommentTags.Proofs.Tag.Spelling

/- The tags that some text is read as. What a derivation stands for is always one of them. -/
namespace CommentTags

/-- An integer must keep a literal of its own value. -/
def Scalar.WellFormed : Scalar → Prop
  | string _ | bool _ => True
  | int literal value => ∃ parts : IntegerLiteral,
      parts.WellFormed ∧ parts.text = literal.toList ∧ parts.Denotes value

structure Head.WellFormed (head : Head) : Prop where
  name : IsName isTagNameInterior head.name.toList
  names : (head.arguments.length ≤ 1 ∧ ∀ argument ∈ head.arguments, argument.name = "") ∨
    ∀ argument ∈ head.arguments, IsName isNameInterior argument.name.toList
  values : ∀ argument ∈ head.arguments, argument.value.WellFormed

/-- Raw text stands up to the end of the text, where blanks belong to no tag. -/
def Payload.WellFormed (isRaw : Bool) : Payload → Prop
  | none => True
  | scalar value => isRaw = false ∧ value.WellFormed
  | raw text => isRaw = true ∧ text ≠ "" ∧ Trimmed text.toList

def Tag.WellFormed (isRaw : Bool) : Tag → Prop
  | single head payload => head.WellFormed ∧ payload.WellFormed isRaw
  | link head next => isRaw = false ∧ head.WellFormed ∧ next.WellFormed isRaw

theorem isName_not_nil {interior : Char → Bool} {name : List Char} (valid : IsName interior name) :
    name ≠ [] := by
  rintro rfl
  exact valid

theorem tag_name_interior {name : List Char} (valid : IsName isTagNameInterior name) :
    ∀ c ∈ name, isTagNameInterior c = true := by
  apply name_interior valid
  intro c start
  exact name_interior_in_tag_name (name_start_is_interior c start)

theorem tag_name_endsDark {name : List Char} (valid : IsName isTagNameInterior name) :
    EndsDark name := by
  apply endsDark_of_dark (isName_not_nil valid)
  intro c member
  exact tag_name_interior_not_white (tag_name_interior valid c member)

theorem ofList_not_empty {text : List Char} (something : text ≠ []) : String.ofList text ≠ "" := by
  intro same
  exact something (String.ofList_injective same)

theorem spelled_scalar_wellFormed {spelling : ScalarSpelling} (valid : spelling.Valid) :
    spelling.scalar.WellFormed := by
  cases spelling with
  | integer literal value => exact ⟨literal, valid.1, by simp, valid.2⟩
  | quoted | verbatim => exact trivial
  | bare name =>
    simp only [ScalarSpelling.scalar]
    unfold ScalarSpelling.bareScalar
    split <;> exact trivial

theorem spelled_argument_value {spelling : ArgumentSpelling} (valid : spelling.Valid) :
    spelling.argument.value.WellFormed := by
  cases spelling with
  | positional value => exact spelled_scalar_wellFormed valid
  | named name before behind value => exact spelled_scalar_wellFormed valid.2.2.2

theorem spelled_argument_name {spelling : ArgumentSpelling} (valid : spelling.Valid) :
    spelling.argument.name = "" ∨ IsName isNameInterior spelling.argument.name.toList := by
  cases spelling with
  | positional value => exact .inl rfl
  | named name before behind value =>
    exact .inr (by simpa [ArgumentSpelling.argument, ArgumentSpelling.name?] using valid.1)

theorem spelled_arguments {list : ListSpelling} (valid : list.Valid) {argument : Argument}
    (member : argument ∈ list.arguments) :
    ∃ spelling : ArgumentSpelling, spelling.Valid ∧ spelling.argument = argument := by
  cases list with
  | absent | empty => simp [ListSpelling.arguments] at member
  | present first later =>
    obtain ⟨slot, slots, same⟩ := List.mem_map.mp member
    exact ⟨slot.argument, (valid slot slots).2.1, same⟩

theorem spelled_head_wellFormed {spelling : HeadSpelling} (valid : spelling.Valid) :
    spelling.head.WellFormed := by
  obtain ⟨nameValid, listValid, consistent⟩ := valid
  refine ⟨by simpa [HeadSpelling.head] using nameValid, ?_, ?_⟩
  · have names (argument : Argument) (member : argument ∈ spelling.list.arguments) :
        argument.name = "" ∨ IsName isNameInterior argument.name.toList := by
      obtain ⟨written, valid, rfl⟩ := spelled_arguments listValid member
      exact spelled_argument_name valid
    simp only [HeadSpelling.head]
    rcases consistent with few | named
    · cases arguments : spelling.list.arguments with
      | nil => simp
      | cons first further =>
        simp only [arguments, List.length_cons] at few names
        have alone : further = [] := List.length_eq_zero_iff.mp (by omega)
        rw [alone]
        rcases names first (by simp) with positional | named
        · exact .inl ⟨by simp, by simpa using positional⟩
        · exact .inr (by simpa using named)
    · right
      intro argument member
      exact (names argument member).resolve_left (named argument member)
  · intro argument member
    obtain ⟨written, valid, rfl⟩ := spelled_arguments listValid member
    exact spelled_argument_value valid

theorem spelled_ending_wellFormed {isRaw : Bool} {ending : Ending} (valid : ending.Valid isRaw)
    (trimmed : Trimmed ending.text) {head : Head} (formed : head.WellFormed) :
    (ending.tag head).WellFormed isRaw := by
  induction ending generalizing head with
  | nothing | blank => exact ⟨formed, trivial⟩
  | scalar value blanks comment => exact ⟨formed, valid.1, spelled_scalar_wellFormed valid.2.1⟩
  | raw text =>
    obtain ⟨isRaw, something⟩ := valid
    refine ⟨formed, isRaw, ofList_not_empty something, ?_⟩
    have suffix : Trimmed (['='] ++ text) := trimmed
    rw [String.toList_ofList]
    exact trimmed_suffix suffix
  | link spelling ending ih =>
    obtain ⟨typed, headValid, endingValid⟩ := valid
    have suffix : Trimmed (['=', '+'] ++ spelling.text ++ ending.text) := by
      simpa [Ending.text] using trimmed
    exact ⟨typed, formed,
      ih endingValid (trimmed_suffix suffix) (spelled_head_wellFormed headValid)⟩

theorem spelled_wellFormed {isRaw : Bool} {spelling : TagSpelling} (valid : spelling.Valid isRaw)
    (trimmed : Trimmed spelling.text) : spelling.tag.WellFormed isRaw := by
  obtain ⟨_, headValid, endingValid⟩ := valid
  have suffix : Trimmed (spelling.lead ++ spelling.head.text ++ spelling.ending.text) := by
    simpa [TagSpelling.text] using trimmed
  exact spelled_ending_wellFormed endingValid (trimmed_suffix suffix)
    (spelled_head_wellFormed headValid)

end CommentTags
