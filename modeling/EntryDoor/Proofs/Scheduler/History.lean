import EntryDoor.Scheduler.Run

namespace EntryDoor.Scheduler

namespace Occurrence

def acceptance? : Occurrence → Option (CallId × Request)
  | accepted caller r => some (caller, r)
  | _ => none

@[simp] theorem acceptance?_accepted {caller : CallId} {r : Request} :
    (accepted caller r).acceptance? = some (caller, r) :=
  rfl

-- The caller for whom a call to the door buzzes.
def buzz? : Occurrence → Option CallId
  | called (.buzz caller _) .buzz => some caller
  | _ => none

-- The desired state that an evaluation has found.
def finding? : Occurrence → Option DoorState
  | evaluated status => some status.state
  | _ => none

-- The command that an evaluation has sent.
def driven? : Occurrence → Option Command
  | called (.evaluation _) c => some c
  | _ => none

end Occurrence

namespace Registers

-- What an occurrence makes of the registers. An accepted hard reset leaves the budget alone until
-- its last command has ended.
def after (p : Policy) (r : Registers) (m : Moment) : Occurrence → Registers
  | .accepted _ .recompute => { r with target := none }
  | .accepted _ (.overwrite o) => { r with overwrite := some o, target := none }
  | .accepted _ (.replace s) => { r with schedule := s, target := none }
  | .accepted _ .reset => { r with overwrite := none, resetting := true }
  | .accepted _ .buzz => r
  | .evaluated _ =>
    let aimed := (r.clearExpired m.clock).aim p (r.statusAt m.clock).state
    aimed.spend?.getD aimed
  | .called .. => r
  | .answered (.reset [] _) .. => { r with target := none, resetting := false }
  | .answered .. => r

end Registers

namespace History

variable {seen later : History} {m : Moment} {now : List Occurrence}

-- The requests that the loop has accepted, in the order of their acceptance.
def accepted (seen : History) : List (CallId × Request) :=
  seen.filterMap (·.2.acceptance?)

-- The callers that were told so, in the same order.
def callers (seen : History) : List CallId :=
  seen.accepted.map (·.1)

-- The callers for whom the door was buzzed, in order.
def buzzed (seen : History) : List CallId :=
  seen.filterMap (·.2.buzz?)

def findings (seen : History) : List DoorState :=
  seen.filterMap (·.2.finding?)

def driven (seen : History) : List Command :=
  seen.filterMap (·.2.driven?)

-- The registers that a history leads to.
def replay (p : Policy) (r : Registers) (seen : History) : Registers :=
  seen.foldl (fun r x => r.after p x.1 x.2) r

@[simp] theorem accepted_append : accepted (seen ++ later) = accepted seen ++ accepted later :=
  List.filterMap_append

@[simp] theorem callers_append : callers (seen ++ later) = callers seen ++ callers later := by
  simp [callers]

theorem mem_callers {i : CallId} : i ∈ callers seen ↔ ∃ r, (i, r) ∈ accepted seen := by
  simp [callers]

@[simp] theorem buzzed_append : buzzed (seen ++ later) = buzzed seen ++ buzzed later :=
  List.filterMap_append

@[simp] theorem findings_append : findings (seen ++ later) = findings seen ++ findings later :=
  List.filterMap_append

@[simp] theorem driven_append : driven (seen ++ later) = driven seen ++ driven later :=
  List.filterMap_append

@[simp] theorem accepted_map : accepted (now.map (m, ·)) = now.filterMap (·.acceptance?) :=
  List.filterMap_map

@[simp] theorem buzzed_map : buzzed (now.map (m, ·)) = now.filterMap (·.buzz?) :=
  List.filterMap_map

-- `P` holds of everything that was seen, given what was seen before it.
def Always (P : History → Moment × Occurrence → Prop) (seen : History) : Prop :=
  ∀ before x after, seen = before ++ x :: after → P before x

theorem always_nil {P : History → Moment × Occurrence → Prop} : Always P [] :=
  fun _ _ _ h => by simp at h

theorem always_cons {P : History → Moment × Occurrence → Prop} {x : Moment × Occurrence}
    (hx : P [] x) (h : Always (fun before => P (x :: before)) later) : Always P (x :: later) := by
  intro before y after heq
  cases before with
  | nil => cases heq; exact hx
  | cons _ before => cases heq; exact h before y after rfl

theorem always_append {P : History → Moment × Occurrence → Prop} (h : Always P seen)
    (h' : Always (fun before => P (seen ++ before)) later) : Always P (seen ++ later) := by
  induction seen generalizing P with
  | nil => exact h'
  | cons x seen ih =>
    refine always_cons (h [] x seen rfl) (ih (fun before y after heq => ?_) h')
    exact h (x :: before) y after (by rw [heq]; rfl)

theorem replay_append {p : Policy} {r : Registers} :
    replay p r (seen ++ later) = replay p (replay p r seen) later :=
  List.foldl_append

end History

-- A run goes through the step that has shown `x`.
theorem Run.cut {p : Policy} {s u : State} {before after : History} {x : Moment × Occurrence}
    (run : Run p s (before ++ x :: after) u) : ∃ first t e v now skipped rest later,
    Run p s first t ∧ t.step p e = some (v, now) ∧ Run p v later u ∧
      now.map (t.moment, ·) = skipped ++ x :: rest ∧ before = first ++ skipped ∧
      after = rest ++ later := by
  generalize hs : before ++ x :: after = seen at run
  induction run generalizing after
  case refl => simp at hs
  case step seen t u now e run h ih =>
    rcases List.append_eq_append_iff.mp hs with ⟨between, hseen, hx⟩ | ⟨skipped, hb, hx⟩
    case inl =>
      cases between with
      -- It is the first thing that the last step shows.
      | nil =>
        refine ⟨seen, t, e, u, now, [], after, [], run, h, .refl, hx.symm, ?_, ?_⟩
        case refine_1 => rw [hseen, List.append_nil, List.append_nil]
        case refine_2 => rw [List.append_nil]
      | cons y between =>
        obtain ⟨rfl, rfl⟩ := List.cons.inj (hx.trans List.cons_append)
        have ⟨first, t, e, v, now, skipped, rest, later, run, hv, run', hn, hb, ha⟩ := ih hseen.symm
        refine ⟨first, t, e, v, now, skipped, rest, _, run, hv, run'.step h, hn, hb, ?_⟩
        rw [ha, List.append_assoc]
    case inr =>
      refine ⟨seen, t, e, u, now, skipped, after, [], run, h, .refl, hx, hb, ?_⟩
      rw [List.append_nil]

-- Runs in which each event is one of those allowed in the state where it happens.
inductive RunWhere (allowed : State → Event → Prop) (p : Policy) (s : State) :
    History → State → Prop
  | refl : RunWhere allowed p s [] s
  | step {seen : History} {t u : State} {now : List Occurrence} {e : Event} :
      RunWhere allowed p s seen t → allowed t e → t.step p e = some (u, now) →
      RunWhere allowed p s (seen ++ now.map (t.moment, ·)) u

namespace RunWhere

variable {allowed : State → Event → Prop} {p : Policy} {s t u : State} {seen later : History}

theorem single {now : List Occurrence} {e : Event} (ha : allowed s e)
    (h : s.step p e = some (t, now)) : RunWhere allowed p s (now.map (s.moment, ·)) t :=
  .step .refl ha h

theorem trans (r : RunWhere allowed p s seen t) (r' : RunWhere allowed p t later u) :
    RunWhere allowed p s (seen ++ later) u := by
  induction r'
  case refl => rwa [List.append_nil]
  case step _ ha h ih =>
    rw [← List.append_assoc]
    exact .step ih ha h

theorem run (r : RunWhere allowed p s seen t) : Run p s seen t := by
  induction r
  case refl => exact .refl
  case step _ _ h hr => exact .step hr h

-- A step that shows nothing adds nothing to the history.
theorem silent {e : Event} (r : RunWhere allowed p s seen t) (ha : allowed t e)
    (h : t.step p e = some (u, [])) : RunWhere allowed p s seen u := by
  have := r.step ha h
  rwa [List.map_nil, List.append_nil] at this

end RunWhere

-- A schedule that has no hours.
def closed : Schedule where
  rules := .empty
  zone := ⟨"UTC", 0, []⟩
  country := ""
  holidays := .none

-- What comes of the given events, if each of them is allowed and can happen.
def State.follow (p : Policy) (allowed : State → Event → Prop) [∀ s e, Decidable (allowed s e)] :
    State → List Event → Option (History × State)
  | s, [] => some ([], s)
  | s, e :: rest =>
    if allowed s e then
      match s.step p e with
      | some (t, now) =>
        (follow p allowed t rest).map fun x => (now.map (s.moment, ·) ++ x.1, x.2)
      | none => none
    else none

theorem RunWhere.of_follow {p : Policy} {allowed : State → Event → Prop}
    [∀ s e, Decidable (allowed s e)] {s : State} {events : List Event} {x : History × State}
    (h : s.follow p allowed events = some x) : RunWhere allowed p s x.1 x.2 := by
  induction events generalizing s x with
  | nil => cases h; exact .refl
  | cons e rest ih =>
    simp only [State.follow, Option.ite_none_right_eq_some] at h
    have ⟨ha, h⟩ := h
    split at h
    case h_1 hs =>
      obtain ⟨x, hx, rfl⟩ := Option.map_eq_some_iff.mp h
      exact (single ha hs).trans (ih hx)
    case h_2 => cases h

end EntryDoor.Scheduler
