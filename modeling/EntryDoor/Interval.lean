import EntryDoor.Calendar.Written

namespace EntryDoor

-- Both ends belong to an interval, which is empty if its end lies before its start.
structure Interval where
  start : Timestamp
  stop : Timestamp
deriving DecidableEq, Repr, Inhabited

namespace Interval

def Covers (i : Interval) (t : Timestamp) : Prop :=
  i.start ≤ t ∧ t ≤ i.stop

instance (i : Interval) (t : Timestamp) : Decidable (i.Covers t) := by
  unfold Covers
  infer_instance

def shown (i : Interval) : String :=
  String.ofList ('<' :: i.start.shown ++ " - ".toList ++ i.stop.shown ++ ['>'])

end Interval

end EntryDoor
