import CommentTags.Json.Basic

/- JSON text. The compact layout has no blanks. The pretty one gives each item and each field a
   line of its own, two columns further in than what holds it. -/
namespace CommentTags

inductive Layout
  | compact
  | pretty
deriving DecidableEq

namespace Json

def escapeChar (c : Char) : List Char :=
  if c = '"' then ['\\', '"']
  else if c = '\\' then ['\\', '\\']
  else if c = '\x08' then ['\\', 'b']
  else if c = '\t' then ['\\', 't']
  else if c = '\n' then ['\\', 'n']
  else if c = '\x0c' then ['\\', 'f']
  else if c = '\r' then ['\\', 'r']
  else if c.toNat < 0x20 then
    ['\\', 'u', '0', '0', Nat.digitChar (c.toNat / 16), Nat.digitChar (c.toNat % 16)]
  else [c]

def quote (text : String) : List Char := '"' :: (text.toList.flatMap escapeChar ++ ['"'])

def digits (value : Int) : List Char :=
  if value < 0 then '-' :: Nat.toDigits 10 value.natAbs else Nat.toDigits 10 value.natAbs

def lineBreak (layout : Layout) (depth : Nat) : List Char :=
  match layout with
  | .compact => []
  | .pretty => '\n' :: List.replicate (2 * depth) ' '

def colon (layout : Layout) : List Char :=
  match layout with
  | .compact => [':']
  | .pretty => [':', ' ']

mutual

/-- Writes in front of `rest`. -/
def write (layout : Layout) (depth : Nat) (value : Json) (rest : List Char) : List Char :=
  match value with
  | .bool true => "true".toList ++ rest
  | .bool false => "false".toList ++ rest
  | .int value => digits value ++ rest
  | .string text => quote text ++ rest
  | .array [] => '[' :: ']' :: rest
  | .array (item :: items) =>
    '[' :: (lineBreak layout (depth + 1) ++ write layout (depth + 1) item
      (writeItems layout (depth + 1) items (lineBreak layout depth ++ ']' :: rest)))
  | .object [] => '\x7b' :: '\x7d' :: rest
  | .object ((key, value) :: fields) =>
    '\x7b' :: (lineBreak layout (depth + 1) ++ (quote key ++ (colon layout ++
      write layout (depth + 1) value
        (writeFields layout (depth + 1) fields (lineBreak layout depth ++ '\x7d' :: rest)))))

def writeItems (layout : Layout) (depth : Nat) (items : List Json) (rest : List Char) :
    List Char :=
  match items with
  | [] => rest
  | item :: items =>
    ',' :: (lineBreak layout depth ++ write layout depth item (writeItems layout depth items rest))

def writeFields (layout : Layout) (depth : Nat) (fields : List (String × Json))
    (rest : List Char) : List Char :=
  match fields with
  | [] => rest
  | (key, value) :: fields =>
    ',' :: (lineBreak layout depth ++ (quote key ++ (colon layout ++
      write layout depth value (writeFields layout depth fields rest))))

end

def text (layout : Layout) (value : Json) : String := String.ofList (write layout 0 value [])

end Json
end CommentTags
