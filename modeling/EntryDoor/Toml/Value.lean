namespace EntryDoor.Toml

-- What brought a table about decides who may still add to it: a header opens a table once, dotted keys add to
-- tables that only keys and sub-headers have named so far, and an inline table is complete as it stands.
inductive Origin
  | inline
  | header
  | implied
  | dotted
deriving DecidableEq, Repr

-- Floats and dates are kept as they are written.
inductive Value
  | string (value : String)
  | integer (value : Int)
  | float (text : String)
  | boolean (value : Bool)
  | moment (text : String)
  | array (items : List Value)
  | table (origin : Origin) (entries : List (String × Value))
  | tables (items : List (List (String × Value)))
deriving Inhabited

abbrev Entries := List (String × Value)

namespace Entries

def replace (es : Entries) (key : String) (v : Value) : Entries :=
  es.map fun (k, w) => if k = key then (k, v) else (k, w)

def changeLast (change : Entries → Option Entries) : List Entries → Option (List Entries)
  | [] => none
  | [t] => (change t).map ([·])
  | t :: ts => (changeLast change ts).map (t :: ·)

-- Changes the table that header keys lead to, where tables not named before are implied and an array of tables
-- stands for its last one.
def descend (change : Entries → Option Entries) : List String → Entries → Option Entries
  | [], es => change es
  | k :: path, es =>
    match es.lookup k with
    | none => (descend change path []).map fun inner => es ++ [(k, .table .implied inner)]
    | some (.table origin inner) =>
      if origin = .inline then none
      else (descend change path inner).map fun inner => es.replace k (.table origin inner)
    | some (.tables items) =>
      (changeLast (descend change path) items).map fun items => es.replace k (.tables items)
    | some _ => none

-- Tables not named before are dotted; the last table on the way has to be.
def assign : List String → String → Value → Entries → Option Entries
  | [], key, v, es => if (es.lookup key).isSome then none else some (es ++ [(key, v)])
  | k :: path, key, v, es =>
    match es.lookup k with
    | none => (assign path key v []).map fun inner => es ++ [(k, .table .dotted inner)]
    | some (.table origin inner) =>
      if origin = .dotted ∨ origin = .implied ∧ path ≠ [] then
        (assign path key v inner).map fun inner => es.replace k (.table origin inner)
      else none
    | some (.tables items) =>
      if path = [] then none
      else (changeLast (assign path key v) items).map fun items => es.replace k (.tables items)
    | some _ => none

-- A table may have been implied before, and then moves to the end.
def openTable (key : String) (es : Entries) : Option Entries :=
  match es.lookup key with
  | none => some (es ++ [(key, .table .header [])])
  | some (.table .implied inner) =>
    some (es.filter (fun e => e.1 ≠ key) ++ [(key, .table .header inner)])
  | some _ => none

def openNext (key : String) (es : Entries) : Option Entries :=
  match es.lookup key with
  | none => some (es ++ [(key, .tables [[]])])
  | some (.tables items) => some (es.replace key (.tables (items ++ [[]])))
  | some _ => none

end Entries

end EntryDoor.Toml
