import EntryDoor.Codec
import EntryDoor.Toml.Value

namespace EntryDoor.Toml

abbrev Reader (α : Type) := Value → Except DecodeFault α

namespace Reader

def string : Reader String
  | .string s => .ok s
  | _ => .error .malformed

def natural (bits : Nat) : Reader Nat
  | .integer n => if 0 ≤ n ∧ n < Nat.pow 2 bits then .ok n.toNat else .error .malformed
  | _ => .error .malformed

def text {α : Type} (read : String → Except ValidationError α) : Reader α
  | .string s => (read s).mapError .invalid
  | _ => .error .malformed

def wordText {α : Type} (read? : String → Option α) : Reader α
  | .string s =>
    match read? s with
    | some a => .ok a
    | none => .error .malformed
  | _ => .error .malformed

def items? : Value → Option (List Value)
  | .array vs => some vs
  | .tables ts => some (ts.map (.table .header))
  | _ => none

def list {α : Type} (item : Reader α) : Reader (List α) := fun v =>
  match items? v with
  | some vs => vs.mapM item
  | none => .error .malformed

def name {α : Type} (named? : String → Option α) : Reader α := fun v =>
  let found := match v with
    | .string s => named? s
    | .table _ [(key, .table _ [])] => named? key
    | .table _ [(key, .array [])] => named? key
    | _ => none
  match found with
  | some a => .ok a
  | none => .error .malformed

structure Field (α : Type) where
  name : String
  put : Value → α → Except DecodeFault α

def field {α β : Type} (name : String) (reader : Reader β) (put : β → α → α) : Field α :=
  ⟨name, fun v a => return put (← reader v) a⟩

-- The fields are taken in the order in which they are written, so the first fault is the one that is reported. A
-- date or time counts as a table without any known field.
def record {α : Type} (fields : List (Field α)) (default : α) : Reader α := fun v =>
  match v with
  | .table _ entries => entries.foldlM putEntry default
  | .moment _ => .ok default
  | v =>
    match items? v with
    | some vs => (fields.zip vs).foldlM (fun a (f, v) => f.put v a) default
    | none => .error .malformed
where
  putEntry (a : α) (entry : String × Value) : Except DecodeFault α :=
    match fields.find? (·.name == entry.1) with
    | some f => f.put entry.2 a
    | none => .ok a

end Reader

end EntryDoor.Toml
