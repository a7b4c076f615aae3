import EntryDoor.Calendar.Date
import EntryDoor.Toml.Number

namespace EntryDoor.Toml

open Text

def fixedDigits? (count : Nat) (s : List Char) : Option (Nat × List Char) :=
  if (s.take count).length = count then
    (numeral? (s.take count)).map fun n => (n, s.drop count)
  else none

def after? (c : Char) : List Char → Option (List Char)
  | d :: r => if c = d then some r else none
  | [] => none

def isTime (hour minute second : Nat) : Bool :=
  hour < 24 && minute < 60 && second ≤ 60

def afterDate? (s : List Char) : Option (List Char) := do
  let (year, s) ← fixedDigits? 4 s
  let s ← after? '-' s
  let (month, s) ← fixedDigits? 2 s
  let s ← after? '-' s
  let (day, s) ← fixedDigits? 2 s
  if Date.IsCivil year month day then some s else none

def afterTime? (s : List Char) : Option (List Char) := do
  let (hour, s) ← fixedDigits? 2 s
  let s ← after? ':' s
  let (minute, s) ← fixedDigits? 2 s
  let s ← after? ':' s
  let (second, s) ← fixedDigits? 2 s
  let s ← match s with
    | '.' :: r => if (r.takeWhile Char.isDigit) = [] then none else some (r.dropWhile Char.isDigit)
    | r => some r
  if isTime hour minute second then some s else none

def afterOffset? : List Char → Option (List Char)
  | c :: r =>
    if c = 'Z' ∨ c = 'z' then some r
    else if c = '+' ∨ c = '-' then do
      let (hours, r) ← fixedDigits? 2 r
      let r ← after? ':' r
      let (minutes, r) ← fixedDigits? 2 r
      if isTime hours minutes 0 then some r else none
    else none
  | [] => none

def afterDateAndTime? (s : List Char) : Option (List Char) := do
  let s ← afterDate? s
  match s with
  | c :: r =>
    if c = 'T' ∨ c = 't' ∨ c = ' ' then
      match afterTime? r with
      | some r => some ((afterOffset? r).getD r)
      | none => some s
    else some s
  | [] => some []

def moment? (s : List Char) : Option (String × List Char) := do
  let rest ← (afterDateAndTime? s).or (afterTime? s)
  some (String.ofList (s.take (s.length - rest.length)), rest)

end EntryDoor.Toml
