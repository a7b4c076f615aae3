import EntryDoor.Text.Blank

namespace EntryDoor

inductive Weekday
  | monday | tuesday | wednesday | thursday | friday | saturday | sunday
deriving DecidableEq, Repr, Inhabited

namespace Weekday

def all : List Weekday :=
  [monday, tuesday, wednesday, thursday, friday, saturday, sunday]

theorem mem_all (w : Weekday) : w ∈ all := by
  cases w <;> decide

def shortName : Weekday → String
  | monday => "Mon"
  | tuesday => "Tue"
  | wednesday => "Wed"
  | thursday => "Thu"
  | friday => "Fri"
  | saturday => "Sat"
  | sunday => "Sun"

def fullName : Weekday → String
  | monday => "monday"
  | tuesday => "tuesday"
  | wednesday => "wednesday"
  | thursday => "thursday"
  | friday => "friday"
  | saturday => "saturday"
  | sunday => "sunday"

-- The first three letters of the name or all of them, in any ASCII case and with blanks around.
def IsNamed (w : Weekday) (name : List Char) : Prop :=
  let word := Text.lowerAscii (Text.trim name)
  word = w.fullName.toList ∨ word = w.fullName.toList.take 3

instance (w : Weekday) (name : List Char) : Decidable (w.IsNamed name) := by
  unfold IsNamed
  infer_instance

def named? (name : List Char) : Option Weekday :=
  all.find? (·.IsNamed name)

def ofIndex (n : Nat) : Weekday :=
  match n % 7 with
  | 0 => monday
  | 1 => tuesday
  | 2 => wednesday
  | 3 => thursday
  | 4 => friday
  | 5 => saturday
  | _ => sunday

end Weekday

end EntryDoor
