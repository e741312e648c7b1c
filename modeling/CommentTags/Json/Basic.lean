import CommentTags.Keyed

/- JSON values. Integers are the only numbers. The keys of an object ascend by code points, and of
   several fields with one key the last counts. -/
namespace CommentTags

inductive Json
  | bool (value : Bool)
  | int (value : Int)
  | string (text : String)
  | array (items : List Json)
  | object (fields : List (String × Json))

namespace Json

def ofFields (fields : List (String × Json)) : Json := object (Keyed.ofList fields)

end Json
end CommentTags
