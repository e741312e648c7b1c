import CommentTags.Proofs.Token.Spelling

/- The grammar of tags, as trees of written parts. A tree is one derivation: `text` is what it
   derives, `Valid` says that every part obeys its rule, and the rest says what it stands for. -/
namespace CommentTags

def Consistent (arguments : List Argument) : Prop :=
  arguments.length ≤ 1 ∨ ∀ argument ∈ arguments, argument.name ≠ ""

inductive ArgumentSpelling
  | positional (value : ScalarSpelling)
  | named (name before behind : List Char) (value : ScalarSpelling)
deriving DecidableEq

namespace ArgumentSpelling

def Valid : ArgumentSpelling → Prop
  | positional value => value.Valid
  | named name before behind value =>
    IsName isNameInterior name ∧ Blank before ∧ Blank behind ∧ value.Valid

def text : ArgumentSpelling → List Char
  | positional value => value.text
  | named name before behind value => name ++ (before ++ ':' :: (behind ++ value.text))

def name? : ArgumentSpelling → Option String
  | positional _ => none
  | named name _ _ _ => some (String.ofList name)

def value : ArgumentSpelling → ScalarSpelling
  | positional value => value
  | named _ _ _ value => value

def argument (spelling : ArgumentSpelling) : Argument :=
  ⟨spelling.name?.getD "", spelling.value.scalar⟩

end ArgumentSpelling

/-- An argument with the blanks on both its sides. -/
structure Slot where
  before : List Char
  argument : ArgumentSpelling
  behind : List Char
deriving DecidableEq

namespace Slot

def Valid (slot : Slot) : Prop := Blank slot.before ∧ slot.argument.Valid ∧ Blank slot.behind

def text (slot : Slot) : List Char := slot.before ++ (slot.argument.text ++ slot.behind)

def laterText (later : List Slot) : List Char :=
  later.flatMap (fun slot => ',' :: slot.text) ++ [')']

theorem laterText_cons (slot : Slot) (later : List Slot) :
    laterText (slot :: later) = ',' :: (slot.text ++ laterText later) := by
  simp [laterText]

end Slot

inductive ListSpelling
  | absent
  | empty (blanks : List Char)
  | present (first : Slot) (later : List Slot)
deriving DecidableEq

namespace ListSpelling

def text : ListSpelling → List Char
  | absent => []
  | empty blanks => '(' :: (blanks ++ [')'])
  | present first later => '(' :: (first.text ++ Slot.laterText later)

def arguments : ListSpelling → List Argument
  | absent | empty _ => []
  | present first later => (first :: later).map fun slot => slot.argument.argument

def Valid : ListSpelling → Prop
  | absent => True
  | empty blanks => Blank blanks
  | present first later => ∀ slot ∈ first :: later, slot.Valid

end ListSpelling

structure HeadSpelling where
  name : List Char
  list : ListSpelling
deriving DecidableEq

namespace HeadSpelling

def Valid (spelling : HeadSpelling) : Prop :=
  IsName isTagNameInterior spelling.name ∧ spelling.list.Valid ∧
    Consistent spelling.list.arguments

def text (spelling : HeadSpelling) : List Char := spelling.name ++ spelling.list.text

def head (spelling : HeadSpelling) : Head :=
  ⟨String.ofList spelling.name, spelling.list.arguments⟩

end HeadSpelling

def commentText : Option (List Char) → List Char
  | none => []
  | some comment => '/' :: '/' :: comment

inductive Ending
  | nothing
  | blank (blanks : List Char) (comment : Option (List Char))
  | scalar (value : ScalarSpelling) (blanks : List Char) (comment : Option (List Char))
  | raw (text : List Char)
  | link (head : HeadSpelling) (ending : Ending)
deriving DecidableEq

namespace Ending

/-- Behind the equals sign stands raw text in raw mode only, a scalar or a link otherwise. -/
def Valid (isRaw : Bool) : Ending → Prop
  | nothing => True
  | blank blanks _ => Blank blanks ∧ blanks ≠ []
  | scalar value blanks _ => isRaw = false ∧ value.Valid ∧ Blank blanks
  | raw text => isRaw = true ∧ text ≠ []
  | link head ending => isRaw = false ∧ head.Valid ∧ ending.Valid isRaw

def text : Ending → List Char
  | nothing => []
  | blank blanks comment => blanks ++ commentText comment
  | scalar value blanks comment => '=' :: (value.text ++ (blanks ++ commentText comment))
  | raw text => '=' :: text
  | link head ending => '=' :: '+' :: (head.text ++ ending.text)

def tag (first : Head) : Ending → Tag
  | nothing | blank _ _ => .single first .none
  | scalar value _ _ => .single first (.scalar value.scalar)
  | raw text => .single first (.raw (String.ofList text))
  | link head ending => .link first (ending.tag head.head)

theorem tag_head (ending : Ending) (first : Head) : (ending.tag first).head = first := by
  cases ending <;> rfl

end Ending

/-- A whole text. Only the outermost tag may have blanks in front. -/
structure TagSpelling where
  lead : List Char
  head : HeadSpelling
  ending : Ending
deriving DecidableEq

namespace TagSpelling

def Valid (isRaw : Bool) (spelling : TagSpelling) : Prop :=
  Blank spelling.lead ∧ spelling.head.Valid ∧ spelling.ending.Valid isRaw

def text (spelling : TagSpelling) : List Char :=
  spelling.lead ++ (spelling.head.text ++ spelling.ending.text)

def tag (spelling : TagSpelling) : Tag := spelling.ending.tag spelling.head.head

end TagSpelling
end CommentTags
