import EntryDoor.Calendar.Timestamp

namespace EntryDoor

-- A zone: seconds east of UTC, first the offset before any change, then each change as the instant and the
-- offset from then on.
structure Zone where
  name : String
  initial : Int
  changes : List (Int × Int)
deriving DecidableEq, Repr, Inhabited

-- What clocks show: seconds from 1970-01-01T00:00 on the clocks themselves.
abbrev WallTime := Int

namespace Zone

def offsetFrom (offset : Int) : List (Int × Int) → Int → Int
  | [], _ => offset
  | (start, later) :: rest, t => if t < start then offset else offsetFrom later rest t

def offsetAt (z : Zone) (t : Int) : Int :=
  offsetFrom z.initial z.changes t

def wallTime (z : Zone) (t : Int) : WallTime :=
  t + z.offsetAt t

def readingsFrom (since : Option Int) (offset : Int) : List (Int × Int) → WallTime → List Int
  | [], w => if since.all (· ≤ w - offset) then [w - offset] else []
  | (start, later) :: rest, w =>
    (if since.all (· ≤ w - offset) ∧ w - offset < start then [w - offset] else []) ++
      readingsFrom (some (since.elim start (max start))) later rest w

def readings (z : Zone) (w : WallTime) : List Int :=
  readingsFrom none z.initial z.changes w

theorem mem_readingsFrom {since : Option Int} {offset : Int} {changes : List (Int × Int)}
    {w : WallTime} {t : Int} :
    t ∈ readingsFrom since offset changes w ↔
      since.all (· ≤ t) ∧ t + offsetFrom offset changes t = w := by
  induction changes generalizing since offset with
  | nil => cases since <;> grind [readingsFrom, offsetFrom]
  | cons c rest ih =>
    obtain ⟨start, later⟩ := c
    cases since <;> simp only [readingsFrom, offsetFrom, List.mem_append, ih] <;> grind

theorem mem_readings {z : Zone} {w : WallTime} {t : Int} : t ∈ z.readings w ↔ z.wallTime t = w := by
  simp [readings, mem_readingsFrom, wallTime, offsetAt]

-- The instant that a wall-clock time stands for: the earliest that shows it. A time that the clocks skip is read
-- an hour later, and as a time in UTC if they skip that too.
def resolve (z : Zone) (w : WallTime) : Int :=
  match z.readings w with
  | t :: _ => t
  | [] =>
    match z.readings (w + 3600) with
    | t :: _ => t
    | [] => w

def dateAt (z : Zone) (t : Timestamp) : Date :=
  ⟨z.wallTime t.seconds / 86400⟩

def midnight (z : Zone) (d : Date) : Timestamp :=
  .ofSeconds (z.resolve (d.dayNumber * 86400))

end Zone

end EntryDoor
