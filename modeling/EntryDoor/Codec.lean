import EntryDoor.Hours.Reading
import EntryDoor.Json

namespace EntryDoor

inductive DecodeFault
  | malformed
  | invalid (cause : ValidationError)
deriving DecidableEq, Repr

def DecodeFault.cause? : DecodeFault → Option ValidationError
  | malformed => none
  | invalid cause => some cause

-- Each type has one way to be written. Its reader admits other spellings too.
class Codec (α : Type) where
  encode : α → Json
  decode : Json → Except DecodeFault α

export Codec (encode decode)

def decodeText {α : Type} (read : String → Except ValidationError α) : Json → Except DecodeFault α
  | .string s => (read s).mapError .invalid
  | _ => .error .malformed

def decodeName {α : Type} (named? : String → Option α) (v : Json) : Except DecodeFault α :=
  match v.choice?.bind named? with
  | some a => .ok a
  | none => .error .malformed

def required {α : Type} [Codec α] : Option Json → Except DecodeFault α
  | some v => decode v
  | none => .error .malformed

instance : Codec String where
  encode := .string
  decode
    | .string s => .ok s
    | _ => .error .malformed

instance : Codec Bool where
  encode := .bool
  decode
    | .bool b => .ok b
    | _ => .error .malformed

-- An optional field may be absent or null.
instance {α : Type} [Codec α] : Codec (Option α) where
  encode
    | some a => encode a
    | none => .null
  decode
    | .null => .ok none
    | v => some <$> decode v

def optional {α : Type} [Codec α] : Option Json → Except DecodeFault (Option α)
  | some v => decode v
  | none => .ok none

instance : Codec DayTime where
  encode d := .string (toString d)
  decode := decodeText DayTime.read

instance : Codec DayTimeRange where
  encode r := .string (toString r)
  decode := decodeText DayTimeRange.read

instance : Codec MonthDay where
  encode d := .string (toString d)
  decode := decodeText MonthDay.read

instance : Codec DoorState where
  encode s := .string s.name
  decode := decodeName DoorState.named?

instance : Codec Command where
  encode c := .string c.name
  decode := decodeName Command.named?

instance : Codec Timestamp where
  encode t := .string (toString t)
  decode
    | .string s =>
      match Timestamp.read? s with
      | some t => .ok t
      | none => .error .malformed
    | _ => .error .malformed

instance : Codec Interval where
  encode i := .object [("from", encode i.start), ("to", encode i.stop)]
  decode v := do
    match v.record? ["from", "to"] with
    | some [start, stop] => return ⟨← required start, ← required stop⟩
    | _ => throw .malformed

instance : Codec Overwrite where
  encode o := .object
    [("state", encode o.state), ("until", encode o.expiry), ("issued_by", encode o.issuedBy)]
  decode v := do
    match v.record? ["state", "until", "issued_by"] with
    | some [state, expiry, issuedBy] =>
      return ⟨← required state, ← required expiry, ← required issuedBy⟩
    | _ => throw .malformed

instance : Codec Resolved where
  encode r := .object [("state", encode r.state), ("valid_until", encode r.validUntil)]
  decode v := do
    match v.record? ["state", "valid_until"] with
    | some [state, validUntil] => return ⟨← required state, ← optional validUntil⟩
    | _ => throw .malformed

instance : Codec Status where
  encode s := .object
    [("state", encode s.state), ("valid_until", encode s.validUntil),
      ("reset_in_progress", encode s.resetInProgress), ("overwrite", encode s.overwrite)]
  decode v := do
    match v.record? ["state", "valid_until", "reset_in_progress", "overwrite"] with
    | some [state, validUntil, resetInProgress, overwrite] =>
      return ⟨← required state, ← optional validUntil, ← required resetInProgress,
        ← optional overwrite⟩
    | _ => throw .malformed

end EntryDoor
