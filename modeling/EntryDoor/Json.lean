namespace EntryDoor

-- A JSON value; a number is its digits as a whole number and how many of them follow the point.
inductive Json
  | null
  | bool (value : Bool)
  | number (digits : Int) (decimals : Nat)
  | string (value : String)
  | array (items : List Json)
  | object (entries : List (String × Json))
deriving Repr, Inhabited

namespace Json

-- The values of the fields `names` of a record, in that order. A record is an object, in which fields may be
-- absent and others may stand beside them, or an array of exactly its fields.
def record? (names : List String) : Json → Option (List (Option Json))
  | object entries => some (names.map fun n => entries.lookup n)
  | array items => if items.length = names.length then some (items.map some) else none
  | _ => none

-- The name of a choice without contents: a string, or an object with that one key and nothing under it.
def choice? : Json → Option String
  | string name => some name
  | object [(name, null)] => some name
  | _ => none

end Json

end EntryDoor
