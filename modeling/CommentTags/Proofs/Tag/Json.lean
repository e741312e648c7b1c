import CommentTags.Proofs.Json.Text
import CommentTags.Proofs.KeyedFiles
import CommentTags.Tag.Json

/- The JSON form of a tag tells the tag. Each part of it is found under a key of its own, and the
   kind of the value says how the field `value` is to be taken. A part that is missing has no field,
   so a positional argument is not taken for one with a name. -/
namespace CommentTags

attribute [ext] Argument Head

def Json.field? (value : Json) (key : String) : Option Json :=
  match value with
  | .object fields => Keyed.find? fields key
  | _ => none

theorem Json.field?_ofFields (fields : List (String × Json)) (key : String) :
    (ofFields fields).field? key = Keyed.find? fields.reverse key :=
  Keyed.find?_ofList fields key

def optionalField (key : String) (value? : Option Json) : List (String × Json) :=
  (value?.map fun value => (key, value)).toList

theorem Kind.text_injective {kind other : Kind} (same : kind.text = other.text) : kind = other := by
  cases kind <;> cases other <;> simp_all [text]

namespace Scalar

def content : Scalar → Json
  | string text => .string text
  | int _ value => .int value.toInt
  | bool value => .bool value

def literal? : Scalar → Option String
  | int literal _ => some literal
  | _ => none

theorem fields_eq (value : Scalar) : value.fields =
    [("type", .string value.kind.text), ("value", value.content)] ++
      optionalField "literal" (value.literal?.map Json.string) := by
  cases value <;> rfl

theorem eq_of_parts {value other : Scalar} (kinds : value.kind = other.kind)
    (contents : value.content = other.content) (literals : value.literal? = other.literal?) :
    value = other := by
  cases value <;> cases other <;> simp_all [kind, content, literal?, Int64.toInt_inj]

theorem kind_scalar (value : Scalar) :
    value.kind = .string ∨ value.kind = .int ∨ value.kind = .bool := by
  cases value <;> simp [kind]

end Scalar

namespace Argument

def name? (argument : Argument) : Option String :=
  if argument.isPositional then none else some argument.name

theorem name_of_name? {argument other : Argument} (same : argument.name? = other.name?) :
    argument.name = other.name := by
  unfold name? isPositional at same
  split at same <;> split at same <;> simp_all

theorem json_eq (argument : Argument) : argument.json =
    .ofFields (argument.value.fields ++
      optionalField "name" (argument.name?.map Json.string)) := by
  unfold json name?
  split
  · exact congrArg Json.ofFields (List.append_nil _).symm
  · rfl

theorem json_fields (argument : Argument) :
    argument.json.field? "type" = some (.string argument.value.kind.text) ∧
      argument.json.field? "value" = some argument.value.content ∧
      argument.json.field? "literal" = argument.value.literal?.map Json.string ∧
      argument.json.field? "name" = argument.name?.map Json.string := by
  rw [json_eq, Scalar.fields_eq]
  simp only [Json.field?_ofFields]
  cases argument.name? <;> cases argument.value.literal? <;> simp [optionalField, Keyed.find?]

theorem json_injective {argument other : Argument} (same : argument.json = other.json) :
    argument = other := by
  obtain ⟨kind, content, literal, name⟩ := argument.json_fields
  obtain ⟨kind', content', literal', name'⟩ := other.json_fields
  rw [same] at kind content literal name
  have kinds : argument.value.kind = other.value.kind :=
    Kind.text_injective (Json.string.inj (Option.some.inj (kind.symm.trans kind')))
  have contents : argument.value.content = other.value.content :=
    Option.some.inj (content.symm.trans content')
  have literals : argument.value.literal? = other.value.literal? :=
    (Option.map_inj_right fun _ _ => Json.string.inj).mp (literal.symm.trans literal')
  have names : argument.name? = other.name? :=
    (Option.map_inj_right fun _ _ => Json.string.inj).mp (name.symm.trans name')
  exact Argument.ext (name_of_name? names) (Scalar.eq_of_parts kinds contents literals)

end Argument

theorem Scalar.json_injective {value other : Scalar} (same : value.json = other.json) :
    value = other := by
  have positional : Argument.json ⟨"", value⟩ = Argument.json ⟨"", other⟩ := same
  exact (Argument.mk.inj (Argument.json_injective positional)).2

namespace Payload

def json? : Payload → Option Json
  | none => .none
  | scalar value => some value.json
  | raw text => some (.string text)

theorem fields_eq (payload : Payload) : payload.fields = optionalField "value" payload.json? := by
  cases payload <;> rfl

theorem kind_ne_tag (payload : Payload) : payload.kind ≠ .tag := by
  cases payload with
  | none => simp [kind]
  | scalar value => rcases value.kind_scalar with same | same | same <;> simp [kind, same]
  | raw text => simp [kind]

theorem scalar_kind_ne_raw (value : Scalar) : (scalar value).kind ≠ .raw := by
  rcases value.kind_scalar with same | same | same <;> simp [kind, same]

/-- The kind tells raw text from a scalar, whatever stands under the key `value`. -/
theorem eq_of_parts {payload other : Payload} (kinds : payload.kind = other.kind)
    (contents : payload.json? = other.json?) : payload = other := by
  cases payload with
  | none => cases other <;> simp_all [json?]
  | scalar value =>
    cases other with
    | none => simp [json?] at contents
    | scalar other => rw [Scalar.json_injective (Option.some.inj contents)]
    | raw text => exact absurd kinds (scalar_kind_ne_raw value)
  | raw text =>
    cases other with
    | none => simp [json?] at contents
    | scalar other => exact absurd kinds.symm (scalar_kind_ne_raw other)
    | raw other => simp_all [json?]

end Payload

namespace Tag

def content? : Tag → Option Json
  | single _ payload => payload.json?
  | link _ next => some next.json

theorem json_eq (tag : Tag) : tag.json =
    .ofFields (tag.head.fields tag.kind ++ optionalField "value" tag.content?) := by
  cases tag with
  | single first payload =>
    rw [json, Payload.fields_eq]
    rfl
  | link first next => rfl

theorem json_fields (tag : Tag) :
    tag.json.field? "name" = some (.string tag.head.name) ∧
      tag.json.field? "args" = some (.array (tag.head.arguments.map Argument.json)) ∧
      tag.json.field? "valueType" = some (.string tag.kind.text) ∧
      tag.json.field? "value" = tag.content? := by
  rw [json_eq]
  simp only [Json.field?_ofFields]
  cases tag.content? <;> simp [Head.fields, optionalField, Keyed.find?]

variable {tag other : Tag}

theorem parts_of_json (same : tag.json = other.json) :
    tag.head = other.head ∧ tag.kind = other.kind ∧ tag.content? = other.content? := by
  obtain ⟨name, items, kind, content⟩ := tag.json_fields
  obtain ⟨name', items', kind', content'⟩ := other.json_fields
  rw [same] at name items kind content
  have names : tag.head.name = other.head.name :=
    Json.string.inj (Option.some.inj (name.symm.trans name'))
  have arguments : tag.head.arguments = other.head.arguments :=
    (List.map_inj_right fun _ _ => Argument.json_injective).mp
      (Json.array.inj (Option.some.inj (items.symm.trans items')))
  have kinds : tag.kind = other.kind :=
    Kind.text_injective (Json.string.inj (Option.some.inj (kind.symm.trans kind')))
  exact ⟨Head.ext names arguments, kinds, content.symm.trans content'⟩

theorem json_injective (same : tag.json = other.json) : tag = other := by
  induction tag generalizing other with
  | single first payload =>
    obtain ⟨heads, kinds, contents⟩ := parts_of_json same
    cases other with
    | single first' payload' =>
      rw [single.injEq]
      exact ⟨heads, Payload.eq_of_parts kinds contents⟩
    | link first' next => exact absurd kinds payload.kind_ne_tag
  | link first next ih =>
    obtain ⟨heads, kinds, contents⟩ := parts_of_json same
    cases other with
    | single first' payload => exact absurd kinds.symm payload.kind_ne_tag
    | link first' next' =>
      rw [link.injEq]
      exact ⟨heads, ih (Option.some.inj contents)⟩

/-- Two tags are one if and only if their JSON texts are, in either layout. -/
theorem jsonText_eq_iff (tag other : Tag) :
    (tag.json.text .compact = other.json.text .compact ↔ tag = other) ∧
      (tag.json.text .pretty = other.json.text .pretty ↔ tag = other) := by
  have told (layout : Layout) : tag.json.text layout = other.json.text layout ↔ tag = other := by
    constructor
    · intro same
      exact json_injective (Json.text_injective layout same)
    · intro same
      rw [same]
  exact ⟨told .compact, told .pretty⟩

end Tag
end CommentTags
