import EntryDoor.Codec
import EntryDoor.Proofs.Calendar.ReadBack
import EntryDoor.Proofs.Hours.ReadBack
import EntryDoor.Proofs.Schedule.Rules

namespace EntryDoor

-- Instants have a written form within the range of the calendar.
def Timestamp.InRange (t : Timestamp) : Prop :=
  t.date.InRange

structure Interval.InRange (i : Interval) : Prop where
  start : i.start.InRange
  stop : i.stop.InRange

def Overwrite.InRange (o : Overwrite) : Prop :=
  o.expiry.InRange

def Resolved.InRange (r : Resolved) : Prop :=
  ∀ t ∈ r.validUntil, t.InRange

structure Status.InRange (s : Status) : Prop where
  validUntil : ∀ t ∈ s.validUntil, t.InRange
  overwrite : ∀ o ∈ s.overwrite, o.InRange

section

variable {α : Type} [Codec α]

-- The written form of a value reads back as that value, and nothing is read that has no written form.
structure Lawful (P : α → Prop) : Prop where
  decode_encode {a : α} (h : P a) : decode (encode a) = .ok a
  of_decode {v : Json} {a : α} (h : decode v = .ok a) : P a

-- Whatever spelling a value is read from, its written form is read as that value, and written again in
-- the same form.
structure RoundTrips (P : α → Prop) : Prop where
  decode_encode : ∀ a, P a → decode (encode a) = .ok a
  settles : ∀ v (a : α), decode v = .ok a →
    decode (encode a) = .ok a ∧ (decode (encode a) : Except DecodeFault α).map encode = .ok (encode a)

namespace Lawful

variable {P : α → Prop} {a : α} {o : Option α} {v : Json} {field : Option Json}

theorem roundTrips (l : Lawful P) : RoundTrips P where
  decode_encode _ := l.decode_encode
  settles _ _ h := by
    have hd := l.decode_encode (l.of_decode h)
    exact ⟨hd, hd ▸ rfl⟩

theorem of_required (l : Lawful P) (h : required field = .ok a) : P a := by
  cases field with
  | none => cases h
  | some => exact l.of_decode h

theorem decode_option (h : v ≠ .null) :
    (decode v : Except DecodeFault (Option α)) = some <$> decode v := by
  cases v with
  | null => contradiction
  | _ => rfl

-- Null is read as the absence of a value, so that no value may be written so.
theorem option (l : Lawful P) (hn : ∀ a : α, encode a ≠ .null) :
    Lawful fun o : Option α => ∀ a ∈ o, P a where
  decode_encode {o} h := by
    cases o with
    | none => rfl
    | some a =>
      have hd := l.decode_encode (h a rfl)
      exact (decode_option (hn a)).trans (congrArg (some <$> ·) hd)
  of_decode {v o} h := by
    by_cases hv : v = .null
    case pos =>
      subst hv
      cases h
      nofun
    case neg =>
      rw [decode_option hv] at h
      cases hd : (decode v : Except DecodeFault α) with
      | error => rw [hd] at h; cases h
      | ok a =>
        rw [hd] at h
        cases h
        intro _ ha
        cases ha
        exact l.of_decode hd

theorem of_optional (l : Lawful fun o : Option α => ∀ a ∈ o, P a) (h : optional field = .ok o) :
    ∀ a ∈ o, P a := by
  cases field with
  | none => cases h; nofun
  | some => exact l.of_decode h

end Lawful

end

section

variable {α : Type} {a : α} {s : String}

theorem decodeText_string {read : String → Except ValidationError α} (h : read s = .ok a) :
    decodeText read (.string s) = .ok a := by
  rw [decodeText, h]
  rfl

theorem decodeName_string {named? : String → Option α} (h : named? s = some a) :
    decodeName named? (.string s) = .ok a := by
  have hs : (Json.string s).choice?.bind named? = some a := h
  rw [decodeName, hs]

end

theorem DayTime.lawful : Lawful fun _ : DayTime => True where
  decode_encode _ := decodeText_string (read_toString _)
  of_decode _ := trivial

theorem DayTimeRange.lawful : Lawful fun _ : DayTimeRange => True where
  decode_encode _ := decodeText_string (read_toString _)
  of_decode _ := trivial

theorem MonthDay.lawful : Lawful fun _ : MonthDay => True where
  decode_encode _ := decodeText_string (read_toString _)
  of_decode _ := trivial

theorem DoorState.lawful : Lawful fun _ : DoorState => True where
  decode_encode _ := decodeName_string (named?_name _)
  of_decode _ := trivial

theorem Command.lawful : Lawful fun _ : Command => True where
  decode_encode _ := decodeName_string (named?_name _)
  of_decode _ := trivial

theorem Timestamp.decode_string {s : String} {t : Timestamp} :
    decode (.string s) = .ok t ↔ read? s = some t := by
  simp only [decode]
  cases read? s with
  | none => simp
  | some => simp

theorem Timestamp.lawful : Lawful InRange where
  decode_encode h := decode_string.mpr (read?_toString _ h)
  of_decode {v t} h := by
    cases v with
    | string => exact t.inRange_of_read? (decode_string.mp h)
    | _ => cases h

theorem Timestamp.lawful_option : Lawful fun o : Option Timestamp => ∀ t ∈ o, t.InRange :=
  lawful.option nofun

theorem Interval.lawful : Lawful InRange where
  decode_encode {i} h := by
    show (do return Interval.mk (← decode (encode i.start)) (← decode (encode i.stop))) = _
    rw [Timestamp.lawful.decode_encode h.start, Timestamp.lawful.decode_encode h.stop]
    rfl
  of_decode {v i} h := by
    simp only [decode] at h
    split at h
    case h_1 =>
      simp only [Except.bind_eq_ok] at h
      obtain ⟨_, hstart, _, hstop, h⟩ := h
      cases h
      exact ⟨Timestamp.lawful.of_required hstart, Timestamp.lawful.of_required hstop⟩
    case h_2 => cases h

theorem Overwrite.lawful : Lawful InRange where
  decode_encode {o} h := by
    show (do
      return Overwrite.mk (← decode (encode o.state)) (← decode (encode o.expiry))
        (← decode (encode o.issuedBy))) = _
    rw [DoorState.lawful.decode_encode trivial, Timestamp.lawful.decode_encode h]
    rfl
  of_decode {v o} h := by
    simp only [decode] at h
    split at h
    case h_1 =>
      simp only [Except.bind_eq_ok] at h
      obtain ⟨_, -, _, hexpiry, _, -, h⟩ := h
      cases h
      exact Timestamp.lawful.of_required hexpiry
    case h_2 => cases h

theorem Overwrite.lawful_option : Lawful fun o : Option Overwrite => ∀ a ∈ o, a.InRange :=
  lawful.option nofun

theorem Resolved.lawful : Lawful InRange where
  decode_encode {r} h := by
    show (do return Resolved.mk (← decode (encode r.state)) (← decode (encode r.validUntil))) = _
    rw [DoorState.lawful.decode_encode trivial, Timestamp.lawful_option.decode_encode h]
    rfl
  of_decode {v r} h := by
    simp only [decode] at h
    split at h
    case h_1 =>
      simp only [Except.bind_eq_ok] at h
      obtain ⟨_, -, _, huntil, h⟩ := h
      cases h
      exact Timestamp.lawful_option.of_optional huntil
    case h_2 => cases h

theorem Status.lawful : Lawful InRange where
  decode_encode {s} h := by
    show (do
      return Status.mk (← decode (encode s.state)) (← decode (encode s.validUntil))
        (← decode (encode s.resetInProgress)) (← decode (encode s.overwrite))) = _
    rw [DoorState.lawful.decode_encode trivial,
      Timestamp.lawful_option.decode_encode h.validUntil,
      Overwrite.lawful_option.decode_encode h.overwrite]
    rfl
  of_decode {v s} h := by
    simp only [decode] at h
    split at h
    case h_1 =>
      simp only [Except.bind_eq_ok] at h
      obtain ⟨_, -, _, huntil, _, -, _, hoverwrite, h⟩ := h
      cases h
      exact ⟨Timestamp.lawful_option.of_optional huntil,
        Overwrite.lawful_option.of_optional hoverwrite⟩
    case h_2 => cases h

theorem roundTrips_exchanged :
    RoundTrips (fun _ : DayTime => True) ∧
    RoundTrips (fun _ : DayTimeRange => True) ∧
    RoundTrips (fun _ : MonthDay => True) ∧
    RoundTrips (fun _ : DoorState => True) ∧
    RoundTrips (fun _ : Command => True) ∧
    RoundTrips Interval.InRange ∧
    RoundTrips Overwrite.InRange ∧
    RoundTrips Resolved.InRange ∧
    RoundTrips Status.InRange :=
  ⟨DayTime.lawful.roundTrips, DayTimeRange.lawful.roundTrips, MonthDay.lawful.roundTrips,
    DoorState.lawful.roundTrips, Command.lawful.roundTrips, Interval.lawful.roundTrips,
    Overwrite.lawful.roundTrips, Resolved.lawful.roundTrips, Status.lawful.roundTrips⟩

-- A record in the form of an array, with a state in the form of an object.
example : (decode (.array [.object [("unlocked", .null)], .null]) : Except DecodeFault Resolved) =
    .ok ⟨.unlocked, none⟩ := by
  decide

end EntryDoor
