import CommentTags.Identifier
import CommentTags.Proofs.Text.Runs

/- The first colon of a text decides its group. What is lost of the text of an identifier is a
   single colon at its front, which sets an empty group apart, so two identifiers have one text
   only if one of them is without a group. That one comes first. The others are read back from
   their text unless the group itself holds a colon. -/
namespace CommentTags

attribute [ext] Identifier

namespace Identifier

theorem ofChars_plain {text : List Char} (plain : ':' ∉ text) :
    ofChars text = ⟨"", String.ofList text⟩ := by
  have nothing := dropWhile_run (others_inside plain) (stops_nil _)
  rw [List.append_nil] at nothing
  simp [ofChars, nothing]

theorem ofChars_grouped {group name : List Char} (plain : ':' ∉ group) :
    ofChars (group ++ ':' :: name) = ⟨String.ofList group, String.ofList name⟩ := by
  have inside := others_inside plain
  have stops : Stops (· != ':') (':' :: name) := (stops_cons_iff _ _ _).mpr (by decide)
  simp [ofChars, dropWhile_run inside stops, takeWhile_run inside stops]

theorem first_colon (text : List Char) :
    ':' ∉ text ∨ ∃ group name, ':' ∉ group ∧ text = group ++ ':' :: name := by
  by_cases member : ':' ∈ text
  · obtain ⟨group, name, split, plain⟩ := List.eq_append_cons_of_mem member
    exact .inr ⟨group, name, plain, split⟩
  · exact .inl member

theorem group_plain (text : List Char) : ':' ∉ (ofChars text).group.toList := by
  rcases first_colon text with plain | ⟨group, name, plain, rfl⟩
  · simp [ofChars_plain plain]
  · simpa [ofChars_grouped plain] using plain

theorem ungrouped_colon {text : List Char} (ungrouped : (ofChars text).group = "")
    (colon : ':' ∈ (ofChars text).name.toList) : ∃ name, text = ':' :: name := by
  rcases first_colon text with plain | ⟨group, name, plain, rfl⟩
  · rw [ofChars_plain plain, String.toList_ofList] at colon
    exact absurd colon plain
  · rw [ofChars_grouped plain] at ungrouped
    have nothing := congrArg String.toList ungrouped
    rw [String.toList_ofList, String.toList_empty] at nothing
    exact ⟨name, by rw [nothing, List.nil_append]⟩

theorem starts_with_lead (text : List Char) : (ofChars text).lead.toList <+: text := by
  rcases first_colon text with plain | ⟨group, name, plain, rfl⟩
  · simp [ofChars_plain plain, lead, hasGroup]
  · rw [ofChars_grouped plain]
    unfold lead
    split
    · exact ⟨name, by simp⟩
    · simp

theorem text_ofChars (text : List Char) :
    (ofChars text).text.toList = match text with
      | ':' :: name => name
      | _ => text := by
  rcases first_colon text with plain | ⟨group, name, plain, rfl⟩
  · split
    · simp at plain
    · simp [ofChars_plain plain, Identifier.text, lead, hasGroup]
  · rw [ofChars_grouped plain]
    cases group with
    | nil => simp [Identifier.text, lead, hasGroup]
    | cons c group =>
      have dark : c ≠ ':' := fun same => plain (by simp [same])
      simp [Identifier.text, lead, hasGroup, dark]

theorem text_length (text : List Char) : (ofChars text).text.toList.length ≤ text.length ∧
    text.length ≤ (ofChars text).text.toList.length + 1 := by
  rw [text_ofChars]
  split <;> simp

theorem first_colon_unique {group other name name' : List Char} (plain : ':' ∉ group)
    (plain' : ':' ∉ other) (same : group ++ ':' :: name = other ++ ':' :: name') :
    group = other ∧ name = name' := by
  have stops (name : List Char) : Stops (· != ':') (':' :: name) :=
    (stops_cons_iff _ _ _).mpr (by decide)
  obtain ⟨groups, names⟩ := run_unique (others_inside plain) (stops name) (others_inside plain')
    (stops name') same
  exact ⟨groups, (List.cons.inj names).2⟩

section Text
variable {id other : Identifier}

theorem text_grouped (grouped : id.group ≠ "") :
    id.text.toList = id.group.toList ++ ':' :: id.name.toList := by
  simp [text, lead, hasGroup, grouped]

theorem ungrouped_lead (ungrouped : id.group = "") : id.lead = "" := by
  simp [lead, hasGroup, ungrouped]

theorem text_ungrouped (ungrouped : id.group = "") : id.text = id.name := by
  simp [text, ungrouped_lead ungrouped]

/-- The text tells identifiers apart if both have a group or neither has. -/
theorem eq_of_text (plain : ':' ∉ id.group.toList) (plain' : ':' ∉ other.group.toList)
    (alike : id.group = "" ↔ other.group = "") (same : id.text = other.text) : id = other := by
  by_cases ungrouped : id.group = ""
  · have ungrouped' := alike.mp ungrouped
    rw [text_ungrouped ungrouped, text_ungrouped ungrouped'] at same
    exact Identifier.ext (ungrouped.trans ungrouped'.symm) same
  · have texts := congrArg String.toList same
    rw [text_grouped ungrouped, text_grouped (mt alike.mpr ungrouped)] at texts
    obtain ⟨groups, names⟩ := first_colon_unique plain plain' texts
    exact Identifier.ext (String.toList_inj.mp groups) (String.toList_inj.mp names)

end Text

section Legible

/-- The first colon of the text, if there is one, is the one behind the group. -/
def Legible (id : Identifier) : Prop :=
  ':' ∉ id.group.toList ∧ (id.group ≠ "" ∨ ':' ∉ id.name.toList)

instance (id : Identifier) : Decidable id.Legible :=
  inferInstanceAs (Decidable (_ ∧ (_ ∨ _)))

variable {id : Identifier}

theorem ofText_text (legible : id.Legible) : ofText id.text = id := by
  obtain ⟨plain, clear⟩ := legible
  by_cases ungrouped : id.group = ""
  · have plainName : ':' ∉ id.name.toList := by simpa [ungrouped] using clear
    rw [text_ungrouped ungrouped, ofText, ofChars_plain plainName, String.ofList_toList,
      ← ungrouped]
  · rw [ofText, text_grouped ungrouped, ofChars_grouped plain, String.ofList_toList,
      String.ofList_toList]

theorem legible_of_ofText_text (same : ofText id.text = id) : id.Legible := by
  have plain : ':' ∉ id.group.toList := by
    rw [← same]
    exact group_plain _
  refine ⟨plain, ?_⟩
  by_cases ungrouped : id.group = ""
  · -- with a colon in its name an identifier that is read back would be longer than its text
    right
    intro colon
    have ungrouped' : (ofText id.text).group = "" := same.symm ▸ ungrouped
    have colon' : ':' ∈ (ofText id.text).name.toList := same.symm ▸ colon
    obtain ⟨name, front⟩ := ungrouped_colon ungrouped' colon'
    have lost := text_ofChars id.text.toList
    rw [← ofText, same, front] at lost
    exact absurd (congrArg List.length lost) (by simp)
  · exact .inl ungrouped

/-- An identifier is read back from its text exactly if it is legible, so no two legible ones have
    one text. The text of what is read lacks a single colon at the front, and nothing else. -/
theorem ofText_text_iff :
    (∀ id : Identifier, ofText id.text = id ↔ id.Legible) ∧
    (∀ id other : Identifier, id.Legible → other.Legible → id.text = other.text → id = other) ∧
    ∀ text : String, (ofText text).text.toList = match text.toList with
      | ':' :: name => name
      | _ => text.toList := by
  refine ⟨?_, ?_, ?_⟩
  · intro id
    exact ⟨legible_of_ofText_text, ofText_text⟩
  · intro id other legible legible' same
    rw [← ofText_text legible, same, ofText_text legible']
  · intro text
    exact text_ofChars text.toList

theorem colons_in_name_read_back :
    let id : Identifier := ⟨"g", ":a:b"⟩
    id.Legible ∧ id.text = "g::a:b" ∧ ofText "g::a:b" = id := by
  intro id
  have legible : id.Legible := by decide
  have read : (ofText "g::a:b").Legible := by decide
  exact ⟨legible, by decide, ofText_text_iff.2.1 _ id read legible (by decide)⟩

end Legible

section Order

instance : Std.Irrefl fun a b : Identifier => a < b where
  irrefl a less := by
    rcases less with group | ⟨-, name⟩
    · exact String.lt_irrefl _ group
    · exact String.lt_irrefl _ name

instance : Trans (fun a b : Identifier => a < b) (fun a b => a < b) fun a b => a < b where
  trans {a b c} less further := by
    rcases less with group | ⟨same, name⟩
    · rcases further with group' | ⟨same', -⟩
      · exact .inl (String.lt_trans group group')
      · exact .inl (same' ▸ group)
    · rcases further with group' | ⟨same', name'⟩
      · exact .inl (same ▸ group')
      · exact .inr ⟨same.trans same', String.lt_trans name name'⟩

instance : Std.Trichotomous fun a b : Identifier => a < b where
  trichotomous a b notLess notMore := by
    have groups : a.group = b.group := Std.Trichotomous.trichotomous _ _
      (fun less => notLess (.inl less)) fun more => notMore (.inl more)
    have names : a.name = b.name := Std.Trichotomous.trichotomous _ _
      (fun less => notLess (.inr ⟨groups, less⟩)) fun more => notMore (.inr ⟨groups.symm, more⟩)
    exact Identifier.ext groups names

theorem ungrouped_first {id other : Identifier} (less : id < other) (ungrouped : other.group = "") :
    id.group = "" := by
  rcases less with group | ⟨same, -⟩
  · rw [ungrouped, String.lt_iff] at group
    exact absurd group (List.not_lt_nil _)
  · rw [same, ungrouped]

end Order
end Identifier
end CommentTags
