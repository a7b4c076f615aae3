import EntryDoor.Calendar.Timestamp
import EntryDoor.Text.Numeral

namespace EntryDoor

open Text

-- Four digits, or a sign and at least four for a year that has more or lies before year 0.
def Date.writtenYear (year : Int) : List Char :=
  if 0 ≤ year ∧ year ≤ 9999 then padded 4 year.toNat
  else (if year < 0 then '-' else '+') :: padded 4 year.natAbs

def Date.written (d : Date) : List Char :=
  writtenYear d.year ++ '-' :: padded 2 d.month ++ '-' :: padded 2 d.day

instance : ToString Date := ⟨fun d => String.ofList d.written⟩

namespace Timestamp

-- The fewest of 0, 3, 6 or 9 digits that lose nothing.
def writtenFraction (nanos : Nat) : List Char :=
  if nanos = 0 then []
  else if nanos % 1000000 = 0 then '.' :: padded 3 (nanos / 1000000)
  else if nanos % 1000 = 0 then '.' :: padded 6 (nanos / 1000)
  else '.' :: padded 9 nanos

-- A leap second is the second 60.
def writtenTime (t : Timestamp) : List Char :=
  padded 2 (t.secondOfDay / 3600) ++ ':' :: padded 2 (t.secondOfDay / 60 % 60) ++
    ':' :: padded 2 (t.secondOfDay % 60 + t.nanos / 1000000000) ++
    writtenFraction (t.nanos % 1000000000)

def written (t : Timestamp) : List Char :=
  t.date.written ++ 'T' :: t.writtenTime ++ ['Z']

def shown (t : Timestamp) : List Char :=
  t.date.written ++ 'T' :: t.writtenTime ++ "+00:00".toList

instance : ToString Timestamp := ⟨fun t => String.ofList t.written⟩

end Timestamp

def expect? (c : Char) : List Char → Option (List Char)
  | d :: r => if c = d then some r else none
  | [] => none

def year? (s : List Char) : Option (Int × List Char) :=
  match trimStart s with
  | '-' :: r => (digitRun? r).map fun (n, r) => (-n, r)
  | '+' :: r => (digitRun? r).map fun (n, r) => (n, r)
  | r => (digits? 4 r).map fun (n, r) => (n, r)

def field? (s : List Char) : Option (Nat × List Char) :=
  digits? 2 (trimStart s)

def leadingDate? (s : List Char) : Option (Date × List Char) := do
  let (year, s) ← year? s
  let s ← expect? '-' (trimStart s)
  let (month, s) ← field? s
  let s ← expect? '-' (trimStart s)
  let (day, s) ← field? s
  let date ← Date.ofCivil? year month day
  if date.InRange then some (date, s) else none

def Date.read? (s : String) : Option Date := do
  let (date, rest) ← leadingDate? s.toList
  if trimStart rest = [] then some date else none

def fractionNanos (digits : List Char) : Nat :=
  Nat.ofDigitChars 10 ((digits.take 9).rightpad 9 '0') 0

def fraction? : List Char → Option (Nat × List Char)
  | '.' :: r =>
    let run := r.takeWhile Char.isDigit
    if run = [] then none else some (fractionNanos run, r.dropWhile Char.isDigit)
  | r => some (0, r)

-- The second 60 is the second 59 with a full second of nanoseconds more.
def leadingTime? (s : List Char) : Option (Nat × Nat × List Char) := do
  let (hour, s) ← field? s
  let s ← expect? ':' (trimStart s)
  let (minute, s) ← field? s
  let s ← expect? ':' (trimStart s)
  let (second, s) ← field? s
  let (nanos, s) ← fraction? s
  if hour < 24 ∧ minute < 60 ∧ second ≤ 60 then
    let leap := if second = 60 then 1 else 0
    some (hour * 3600 + minute * 60 + (second - leap), nanos + leap * 1000000000, s)
  else none

def twoDigits? : List Char → Option (Nat × List Char)
  | a :: b :: r => (numeral? [a, b]).map fun n => (n, r)
  | _ => none

def offsetAfterSign? (s : List Char) : Option (Nat × List Char) := do
  let (hours, s) ← twoDigits? s
  let (minutes, s) ← twoDigits? (s.dropWhile fun c => c == ':' || isBlank c)
  if minutes < 60 then some (hours * 3600 + minutes * 60, s) else none

def offset? (s : List Char) : Option (Int × List Char) :=
  match s with
  | u :: t :: c :: r =>
    if lowerAscii [u, t, c] = ['u', 't', 'c'] then some (0, r) else signed s
  | _ => signed s
where
  signed : List Char → Option (Int × List Char)
    | 'Z' :: r => some (0, r)
    | 'z' :: r => some (0, r)
    | '+' :: r => (offsetAfterSign? r).map fun (n, r) => (n, r)
    | '-' :: r => (offsetAfterSign? r).map fun (n, r) => (-n, r)
    | '\u2212' :: r => (offsetAfterSign? r).map fun (n, r) => (-n, r)
    | _ => none

namespace Timestamp

def ofParts? (second : Int) (nanos : Nat) : Option Timestamp :=
  if h : nanos < 2000000000 ∧ (1000000000 ≤ nanos → second % 60 = 59) then
    some ⟨second, nanos, h.1, h.2⟩
  else none

-- Readers admit more than is written: blanks around the numbers of a date, any number of fraction digits, any
-- offset from UTC, and the second 60.
def read? (s : String) : Option Timestamp := do
  let (date, rest) ← leadingDate? s.toList
  let rest ← match rest with
    | c :: r => if c = 'T' ∨ c = 't' ∨ c = ' ' then some r else none
    | [] => none
  let (second, nanos, rest) ← leadingTime? rest
  let (offset, rest) ← offset? (trimStart rest)
  if rest = [] ∧ offset.natAbs < 86400 then
    let t ← ofParts? (date.dayNumber * 86400 + second - offset) nanos
    if t.date.InRange then some t else none
  else none

end Timestamp

end EntryDoor
