/- Entries under keys, in ascending order of the keys and with one entry for each. -/
namespace CommentTags

abbrev Keyed (κ α : Type) := List (κ × α)

namespace Keyed
variable {κ α : Type} [LT κ] [DecidableLT κ] [DecidableEq κ]

def alter (entries : Keyed κ α) (key : κ) (change : Option α → α) : Keyed κ α :=
  match entries with
  | [] => [(key, change none)]
  | (first, value) :: later =>
    if key = first then (first, change (some value)) :: later
    else if key < first then (key, change none) :: (first, value) :: later
    else (first, value) :: alter later key change

def insert (entries : Keyed κ α) (key : κ) (value : α) : Keyed κ α :=
  entries.alter key fun _ => value

def file (entries : Keyed κ (List α)) (key : κ) (item : α) : Keyed κ (List α) :=
  entries.alter key fun items => items.getD [] ++ [item]

def find? (entries : Keyed κ α) (key : κ) : Option α :=
  match entries with
  | [] => none
  | (first, value) :: later => if key = first then some value else find? later key

/-- Of several entries under one key the last is kept. -/
def ofList (entries : List (κ × α)) : Keyed κ α :=
  entries.foldl (fun kept (key, value) => kept.insert key value) []

def sortedKeys (keys : List κ) : List κ := (ofList (keys.map (·, ()))).map Prod.fst

end Keyed
end CommentTags
