import EntryDoor.Toml.Moment
import EntryDoor.Toml.Value

namespace EntryDoor.Toml

-- Values and keys may be nested less deep than this.
def depthLimit : Nat := 80

def skipComment : List Char → List Char
  | '#' :: r => r.dropWhile isPlain
  | r => r

def skipGap : Nat → List Char → List Char
  | 0, s => s
  | fuel + 1, s =>
    let r := skipComment (skipSpaces s)
    match newline? r with
    | some r => skipGap fuel r
    | none => r

def keyPath? (s : List Char) : Option (List String × String × List Char) := do
  let (keys, r) ← keys? (depthLimit - 1) s
  match keys.reverse, r with
  | key :: path, '=' :: r => some (path.reverse, key, r)
  | _, _ => none

mutual

def value? (fuel depth : Nat) (s : List Char) : Option (Value × List Char) :=
  match fuel with
  | 0 => none
  | fuel + 1 =>
    match s with
    | '[' :: r =>
      if depthLimit ≤ depth + 1 then none
      else (items? fuel (depth + 1) (skipGap r.length r)).map fun (vs, r) => (.array vs, r)
    | '\x7b' :: r =>
      if depthLimit ≤ depth + 1 then none
      else
        match skipSpaces r with
        | '\x7d' :: r => some (.table .inline [], r)
        | r => (entries? fuel (depth + 1) [] r).map fun (es, r) => (.table .inline es, r)
    | 't' :: 'r' :: 'u' :: 'e' :: r => some (.boolean true, r)
    | 'f' :: 'a' :: 'l' :: 's' :: 'e' :: r => some (.boolean false, r)
    | s =>
      (string? s |>.map fun (t, r) => (.string (String.ofList t), r)) <|>
        (moment? s |>.map fun (t, r) => (.moment t, r)) <|>
        (float? s |>.map fun (t, r) => (.float t, r)) <|>
        (integer? s |>.map fun (n, r) => (.integer n, r))

-- A comma may follow the last value.
def items? (fuel depth : Nat) (s : List Char) : Option (List Value × List Char) :=
  match fuel with
  | 0 => none
  | fuel + 1 =>
    match s with
    | ']' :: r => some ([], r)
    | s => do
      let (v, r) ← value? fuel depth s
      match skipGap r.length r with
      | ',' :: r => do
        let (vs, r) ← items? fuel depth (skipGap r.length r)
        some (v :: vs, r)
      | ']' :: r => some ([v], r)
      | _ => none

def entries? (fuel depth : Nat) (before : Entries) (s : List Char) : Option (Entries × List Char) :=
  match fuel with
  | 0 => none
  | fuel + 1 => do
    let (path, key, r) ← keyPath? s
    let (v, r) ← value? fuel depth (skipSpaces r)
    let entries ← before.assign path key v
    match skipSpaces r with
    | ',' :: r => entries? fuel depth entries r
    | '\x7d' :: r => some (entries, r)
    | _ => none

end

inductive Line
  | blank
  | tableHeader (path : List String) (key : String)
  | nextHeader (path : List String) (key : String)
  | entry (path : List String) (key : String) (value : Value)

def header? (closing : List Char) (s : List Char) : Option (List String × String × List Char) := do
  let (keys, r) ← keys? (depthLimit - 1) s
  match keys.reverse with
  | key :: path => if r.take closing.length = closing then some (path.reverse, key, r.drop closing.length) else none
  | [] => none

def line? (s : List Char) : Option (Line × List Char) :=
  match s with
  | [] => some (.blank, [])
  | '\n' :: _ => some (.blank, s)
  | '\r' :: _ => some (.blank, s)
  | '#' :: _ => some (.blank, s)
  | '[' :: '[' :: r => (header? [']', ']'] r).map fun (path, key, r) => (.nextHeader path key, r)
  | '[' :: r => (header? [']'] r).map fun (path, key, r) => (.tableHeader path key, r)
  | s => do
    let (path, key, r) ← keyPath? s
    let (v, r) ← value? (2 * r.length + 2) 0 (skipSpaces r)
    some (.entry path key v, r)

-- What has been read: the root table, and the header keys of the table that lines now add to.
structure Progress where
  root : Entries
  current : List String

namespace Progress

def add (p : Progress) : Line → Option Progress
  | .blank => some p
  | .tableHeader path key => do
    let root ← p.root.descend (Entries.openTable key) path
    some ⟨root, path ++ [key]⟩
  | .nextHeader path key => do
    let root ← p.root.descend (Entries.openNext key) path
    some ⟨root, path ++ [key]⟩
  | .entry path key v => do
    let root ← p.root.descend (Entries.assign path key v) p.current
    some ⟨root, p.current⟩

end Progress

def lines? : Nat → Progress → List Char → Option Entries
  | 0, _, _ => none
  | fuel + 1, p, s => do
    let (line, r) ← line? (skipSpaces s)
    let p ← p.add line
    match skipComment (skipSpaces r) with
    | [] => some p.root
    | r => do
      let r ← newline? r
      lines? fuel p r

-- A byte order mark may stand in front.
def read? (s : String) : Option Entries :=
  match s.toList with
  | '\ufeff' :: r => lines? (r.length + 1) ⟨[], []⟩ r
  | r => lines? (r.length + 1) ⟨[], []⟩ r

end EntryDoor.Toml
