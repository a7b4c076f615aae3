import EntryDoor.Scheduler.Step

namespace EntryDoor.Scheduler

-- What was seen, each with its moment, oldest first.
abbrev History := List (Moment × Occurrence)

inductive Run (p : Policy) (s : State) : History → State → Prop
  | refl : Run p s [] s
  | step {seen : History} {t u : State} {now : List Occurrence} {e : Event} :
      Run p s seen t → t.step p e = some (u, now) → Run p s (seen ++ now.map (t.moment, ·)) u

namespace Run

variable {p : Policy} {s t u : State} {seen later : History}

theorem single {now : List Occurrence} {e : Event} (h : s.step p e = some (t, now)) :
    Run p s (now.map (s.moment, ·)) t :=
  .step .refl h

theorem trans (r : Run p s seen t) (r' : Run p t later u) : Run p s (seen ++ later) u := by
  induction r' with
  | refl =>
    rw [List.append_nil]
    exact r
  | step _ h ih =>
    rw [← List.append_assoc]
    exact .step ih h

theorem preserves {I : State → Prop}
    (keeps : ∀ {s t : State} {e : Event} {now : List Occurrence},
      I s → s.step p e = some (t, now) → I t)
    (r : Run p s seen t) (h : I s) : I t := by
  induction r with
  | refl => exact h
  | step _ hs ih => exact keeps ih hs

end Run

end EntryDoor.Scheduler
