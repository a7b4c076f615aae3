import EntryDoor.Hours.Reading

namespace EntryDoor

-- A recurring day with no hours is closed, one that is absent is left to the other layers.
structure RuleSet where
  regular : Weekday → List OpeningHour
  dated : MonthDay → Option (List OpeningHour)
  holiday : List OpeningHour

namespace RuleSet

def empty : RuleSet := ⟨fun _ => [], fun _ => none, []⟩

instance : Inhabited RuleSet := ⟨empty⟩

def isEmpty (r : RuleSet) : Bool :=
  Weekday.all.all (fun w => (r.regular w).isEmpty) &&
    MonthDay.all.all (fun d => ((r.dated d).getD []).isEmpty) && r.holiday.isEmpty

def datedDays (r : RuleSet) : List MonthDay :=
  MonthDay.all.filter fun d => (r.dated d).isSome

end RuleSet

structure RuleSetBuilder where
  regular : Weekday → List OpeningHour := fun _ => []
  dated : MonthDay → Option (List OpeningHour) := fun _ => none
  holiday : List OpeningHour := []

namespace RuleSetBuilder

def empty : RuleSetBuilder := {}

def addRegular (b : RuleSetBuilder) (day : Weekday) (hour : OpeningHour) : RuleSetBuilder :=
  { b with regular := fun w => if w = day then b.regular w ++ [hour] else b.regular w }

def addDated (b : RuleSetBuilder) (day : MonthDay) (hour : OpeningHour) : RuleSetBuilder :=
  { b with dated := fun d => if d = day then some ((b.dated d).getD [] ++ [hour]) else b.dated d }

def closeOn (b : RuleSetBuilder) (day : MonthDay) : RuleSetBuilder :=
  { b with dated := fun d => if d = day then some ((b.dated d).getD []) else b.dated d }

def addHoliday (b : RuleSetBuilder) (hour : OpeningHour) : RuleSetBuilder :=
  { b with holiday := b.holiday ++ [hour] }

-- Equal starts keep their order.
def sorted (hours : List OpeningHour) : List OpeningHour :=
  hours.mergeSort fun a b => a.range.start ≤ b.range.start

-- The first two neighbours of which the first ends no earlier than the second opens.
def firstOverlap : List OpeningHour → Option (OpeningHour × OpeningHour)
  | a :: b :: rest => if b.opensAt ≤ a.closesAt then some (a, b) else firstOverlap (b :: rest)
  | _ => none

def checkLayer (layer : Layer) (hours : List OpeningHour) : Except ValidationError Unit :=
  match firstOverlap (sorted hours) with
  | some (first, second) => .error (.overlappingHours layer first second)
  | none => .ok ()

def check (b : RuleSetBuilder) : Except ValidationError Unit := do
  Weekday.all.forM fun w => checkLayer (.regular w) (b.regular w)
  MonthDay.all.forM fun d => checkLayer (.dated d) ((b.dated d).getD [])
  checkLayer .holiday b.holiday

def sortedRules (b : RuleSetBuilder) : RuleSet where
  regular w := sorted (b.regular w)
  dated d := (b.dated d).map sorted
  holiday := sorted b.holiday

def build (b : RuleSetBuilder) : Except ValidationError RuleSet := do
  b.check
  return b.sortedRules

end RuleSetBuilder

end EntryDoor
