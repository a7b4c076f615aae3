import EntryDoor.Hours.MonthDay

namespace EntryDoor

-- On each date exactly one of the layers governs.
inductive Layer
  | regular (day : Weekday)
  | dated (day : MonthDay)
  | holiday
deriving DecidableEq, Repr

namespace Layer

def shown : Layer → String
  | regular day => s!"regular layer ({day.shortName})"
  | dated day => s!"date-specific layer ({day})"
  | holiday => "holiday layer"

end Layer

end EntryDoor
