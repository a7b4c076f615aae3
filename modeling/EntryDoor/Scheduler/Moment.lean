import EntryDoor.Calendar.Timestamp

namespace EntryDoor

-- A reading of the monotonic clock, in nanoseconds.
abbrev Instant := Nat

namespace Instant

-- Readings are below this.
def limit : Nat := 9223372036854775808 * 1000000000

def add? (t : Instant) (d : Duration) : Option Instant :=
  if t + d.nanos < limit then some (t + d.nanos) else none

-- A reading that stands for one that lies too far ahead: 30 years later.
def farAfter (t : Instant) : Instant :=
  t + (Duration.ofSeconds (30 * 365 * 86400)).nanos

def after (t : Instant) (d : Duration) : Instant :=
  (add? t d).getD (farAfter t)

end Instant

-- The wall clock tells what the door should be; deadlines are readings of the monotonic clock.
structure Moment where
  instant : Instant
  clock : Timestamp
deriving DecidableEq, Repr, Inhabited

end EntryDoor
