import EntryDoor.Error
import EntryDoor.Text.Blank

namespace EntryDoor

open Text

namespace DayTime

def new (hour minute : Nat) : Except ValidationError DayTime :=
  if h : hour < 24 ∧ minute < 60 then .ok ⟨hour, minute, h.1, h.2⟩
  else .error (.invalidDayTime (String.ofList (writtenParts hour minute)))

def ofMinutes (n : Nat) : Except ValidationError DayTime :=
  match ofMinutes? n with
  | some d => .ok d
  | none => .error (.invalidDayTime (toString n))

def ofChars? (s : List Char) : Option DayTime := do
  let (hour, minute) ← splitAt? ':' s
  let hour ← numeral? hour
  let minute ← numeral? minute
  if h : hour < 24 ∧ minute < 60 then some ⟨hour, minute, h.1, h.2⟩ else none

def ofChars (s : List Char) : Except ValidationError DayTime :=
  match ofChars? s with
  | some d => .ok d
  | none => .error (.invalidDayTime (String.ofList s))

def read (s : String) : Except ValidationError DayTime :=
  ofChars s.toList

end DayTime

namespace DayTimeRange

def new (start stop : DayTime) : Except ValidationError DayTimeRange :=
  if h : start < stop then .ok ⟨start, stop, h⟩ else .error (.emptyRange start stop)

def ofChars (s : List Char) : Except ValidationError DayTimeRange :=
  match splitAt? '-' s with
  | none => .error (.invalidRange (String.ofList s))
  | some (start, stop) =>
    if '-' ∈ stop then .error (.invalidRange (String.ofList s))
    else do
      let start ← DayTime.ofChars (trim start)
      let stop ← DayTime.ofChars (trim stop)
      new start stop

def read (s : String) : Except ValidationError DayTimeRange :=
  ofChars s.toList

end DayTimeRange

namespace MonthDay

def new (month day : Nat) : Except ValidationError MonthDay :=
  match new? month day with
  | some d => .ok d
  | none => .error (.invalidMonthDay (String.ofList (writtenParts month day)))

def ofChars? (s : List Char) : Option MonthDay := do
  let (month, day) ← splitAt? '/' (trim s)
  let month ← unsigned? 32 month
  let day ← unsigned? 32 day
  new? month day

def read (s : String) : Except ValidationError MonthDay :=
  match ofChars? s.toList with
  | some d => .ok d
  | none => .error (.invalidMonthDay s)

def rank (d : MonthDay) : Nat :=
  d.month * 32 + d.day

end MonthDay

def Weekday.read (s : String) : Except ValidationError Weekday :=
  match named? s.toList with
  | some w => .ok w
  | none => .error (.invalidWeekday s)

def DoorState.read (s : String) : Except ValidationError DoorState :=
  match named? s with
  | some state => .ok state
  | none => .error (.invalidDoorState s)

end EntryDoor
