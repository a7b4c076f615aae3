import EntryDoor.Proofs.Scheduler.Invariants

namespace EntryDoor.Scheduler

open State

-- The clock never goes back.
def Event.Steady (s : State) : Event → Prop
  | .pass _ clock => s.moment.clock ≤ clock
  | _ => True

instance (s : State) (e : Event) : Decidable (e.Steady s) := by
  unfold Event.Steady
  split <;> infer_instance

-- Whether a call to the door is one of the steps of a hard reset.
def Purpose.IsReset : Purpose → Prop
  | reset .. => True
  | _ => False

namespace History

variable {seen later : History} {t : Timestamp}

-- The schedule of the last request for one that was accepted.
def scheduleInForce (schedule : Schedule) (seen : History) : Schedule :=
  seen.accepted.foldl (fun current x => match x.2 with | .replace s => s | _ => current) schedule

-- The overwrite of the last request for one that was accepted, unless a hard reset was accepted since.
def lastOverwrite (seen : History) : Option Overwrite :=
  seen.accepted.foldl (fun current x =>
    match x.2 with | .overwrite o => some o | .reset => none | _ => current) none

-- What the door should be at `t`, by the requests accepted.
def desiredAt (schedule : Schedule) (resetting : Bool) (seen : History) (t : Timestamp) : Status :=
  match seen.lastOverwrite.filter (fun o => t < o.expiry) with
  | some o => ⟨o.state, some o.expiry, resetting, some o⟩
  | none =>
    let resolved := (seen.scheduleInForce schedule).stateAt t
    ⟨resolved.state, resolved.validUntil, resetting, none⟩

end History

-- The registers hold what the accepted requests asked for, but for an overwrite that has expired.
structure InForce (schedule : Schedule) (seen : History) (clock : Timestamp) (r : Registers) :
    Prop where
  schedule : r.schedule = seen.scheduleInForce schedule
  overwrite : ∀ t, clock ≤ t → r.overwriteAt t = seen.lastOverwrite.filter (fun o => t < o.expiry)

namespace Registers

variable {p : Policy} {r r' : Registers} {state : DoorState}

-- An evaluation changes the budget, and of the rest only that an expired overwrite is forgotten.
theorem after_evaluated {m : Moment} {status : Status} : ∃ target retries maxTries,
    r.after p m (.evaluated status) =
      { r.clearExpired m.clock with target, retries, maxTries } := by
  simp only [after]
  generalize ha : (r.clearExpired m.clock).aim p _ = aimed
  have haimed : ∃ target retries maxTries,
      aimed = { r.clearExpired m.clock with target, retries, maxTries } := by
    rw [← ha, aim]
    split
    · exact ⟨_, _, _, rfl⟩
    · exact ⟨_, _, _, rfl⟩
  obtain ⟨target, retries, maxTries, rfl⟩ := haimed
  cases h : Registers.spend? _
  case none => exact ⟨_, _, _, rfl⟩
  case some =>
    have hs := spend?_eq h
    exact ⟨_, _, _, hs⟩

end Registers

namespace InForce

variable {p : Policy} {schedule : Schedule} {seen : History} {clock clock' : Timestamp}
  {r : Registers} {m : Moment} {x : Occurrence} {now : List Occurrence}

theorem initial : InForce schedule [] clock { schedule } where
  schedule := rfl
  overwrite _ _ := rfl

-- The later it is, the fewer instants there are left to say anything about.
theorem mono (h : InForce schedule seen clock r) (hc : clock ≤ clock') :
    InForce schedule seen clock' r where
  schedule := h.schedule
  overwrite t ht := h.overwrite t (Timestamp.le_trans hc ht)

theorem statusAt {t : Timestamp} (h : InForce schedule seen clock r) (ht : clock ≤ t) :
    r.statusAt t = seen.desiredAt schedule r.resetting t := by
  rw [Registers.statusAt, h.overwrite t ht, h.schedule]
  rfl

-- An occurrence that is no acceptance may have an expired overwrite forgotten, at most.
theorem of_not_accepted {r' : Registers} (h : InForce schedule seen m.clock r)
    (hx : x.acceptance? = none) (hs : r'.schedule = r.schedule)
    (ho : ∀ t, m.clock ≤ t → r'.overwriteAt t = r.overwriteAt t) :
    InForce schedule (seen ++ [(m, x)]) m.clock r' := by
  have ha : History.accepted (seen ++ [(m, x)]) = seen.accepted := by
    simp [History.accepted, hx]
  exact {
    schedule := by rw [hs, h.schedule, History.scheduleInForce, History.scheduleInForce, ha]
    overwrite := fun t ht => by
      rw [ho t ht, h.overwrite t ht, History.lastOverwrite, History.lastOverwrite, ha] }

theorem of_accepted {i : CallId} {q : Request} (h : InForce schedule seen m.clock r) :
    InForce schedule (seen ++ [(m, .accepted i q)]) m.clock (r.after p m (.accepted i q)) := by
  have ha : History.accepted (seen ++ [(m, .accepted i q)]) = seen.accepted ++ [(i, q)] := by
    simp [History.accepted]
  have hs := h.schedule
  have ho := h.overwrite
  refine ⟨?_, fun t ht => ?_⟩
  case refine_1 =>
    rw [History.scheduleInForce, ha, List.foldl_append]
    cases q <;> first | rfl | exact hs
  case refine_2 =>
    rw [History.lastOverwrite, ha, List.foldl_append]
    cases q <;> first | rfl | exact ho t ht

theorem after (h : InForce schedule seen m.clock r) :
    InForce schedule (seen ++ [(m, x)]) m.clock (r.after p m x) := by
  cases x
  case accepted => exact h.of_accepted
  case evaluated status =>
    have ⟨_, _, _, ha⟩ := @Registers.after_evaluated p r m status
    rw [ha]
    exact h.of_not_accepted rfl rfl fun t ht => r.overwriteAt_clearExpired ht
  case called => exact h.of_not_accepted rfl rfl fun _ _ => rfl
  case answered purpose _ _ =>
    cases purpose
    case reset rest _ => cases rest <;> exact h.of_not_accepted rfl rfl fun _ _ => rfl
    all_goals exact h.of_not_accepted rfl rfl fun _ _ => rfl

theorem replay (h : InForce schedule seen m.clock r) : InForce schedule
    (seen ++ now.map (m, ·)) m.clock (History.replay p r (now.map (m, ·))) := by
  induction now generalizing seen r with
  | nil =>
    rw [List.map_nil, List.append_nil]
    exact h
  | cons x now ih =>
    have := ih (h.after (p := p) (x := x))
    rwa [List.append_assoc] at this

end InForce

variable {p : Policy} {schedule : Schedule} {m : Moment} {s t : State} {o : Outcome}
  {e : Event} {seen : History}

theorem clock_le (ha : e.Steady s) (h : s.step p e = some o) :
    s.moment.clock ≤ o.1.moment.clock := by
  cases moment_of_step h with
  | inl hm =>
    rw [hm]
    exact Int.le_refl _
  | inr hm =>
    obtain ⟨_, _, rfl, hm⟩ := hm
    rw [hm]
    exact ha

-- The clock at the end of a step is no earlier than the one that the step has used.
theorem RunWhere.inForce (run : RunWhere Event.Steady p (.initial schedule m) seen s) :
    InForce schedule seen s.moment.clock s.settled := by
  induction run
  case refl => exact .initial
  case step run ha h ih =>
    rw [run.run.sound.settled_step (Step.of_step h)]
    exact (ih.replay).mono (clock_le ha h)

-- What an occurrence says of the desired state is what the accepted requests say, and what it has
-- the door do outside of a hard reset is to buzz or to get there.
def Desired (schedule : Schedule) (before : History) : Moment × Occurrence → Prop
  | (m, .evaluated status) => status = before.desiredAt schedule false m.clock
  | (_, .called (.buzz ..) c) => c = .buzz
  | (m, .called (.evaluation _) c) =>
    (∃ status, before.getLast? = some (m, .evaluated status)) ∧
      c = (before.desiredAt schedule false m.clock).state.command
  | _ => True

theorem desiredAt_evaluated {m : Moment} {status : Status} {resetting : Bool} {t : Timestamp} :
    History.desiredAt schedule resetting (seen ++ [(m, .evaluated status)]) t =
      seen.desiredAt schedule resetting t := by
  have ha : History.accepted (seen ++ [(m, .evaluated status)]) = seen.accepted := by
    simp [History.accepted, Occurrence.acceptance?]
  simp only [History.desiredAt, History.lastOverwrite, History.scheduleInForce, ha]

theorem evaluate_desired (hs : Sound s) (hp : s.phase = .evaluating)
    (hf : InForce schedule seen s.moment.clock s.settled) :
    History.Always (fun before => Desired schedule (seen ++ before))
      ((s.evaluate p).2.map (s.moment, ·)) := by
  have hst : s.status = seen.desiredAt schedule false s.moment.clock := by
    rw [settled_of_not_accepting (by simp [hp])] at hf
    rw [← hs.registers_calm (by simp [hp]) (by simp [hp])]
    exact hf.statusAt (Int.le_refl _)
  have he : Desired schedule (seen ++ []) (s.moment, .evaluated s.status) := by
    rw [List.append_nil]
    exact hst
  rw [evaluate_eq]
  split
  -- The command comes right after the evaluation, which accepts nothing.
  case h_1 =>
    refine History.always_cons he (History.always_cons ?_ History.always_nil)
    refine ⟨⟨s.status, by simp⟩, ?_⟩
    rw [desiredAt_evaluated, ← hst]
  case h_2 => exact History.always_cons he History.always_nil

theorem LoopStep.desired (hs : Sound s) (hf : InForce schedule seen s.moment.clock s.settled)
    (h : LoopStep p s o) : History.Always (fun before => Desired schedule (seen ++ before))
      (o.2.map (s.moment, ·)) := by
  cases h
  case accept r _ _ _ =>
    refine History.always_cons trivial ?_
    cases r
    case buzz => exact History.always_cons rfl History.always_nil
    case reset => exact History.always_cons trivial History.always_nil
    all_goals exact History.always_nil
  case evaluate hp => exact evaluate_desired hs hp hf
  case settle => exact History.always_cons trivial History.always_nil
  case answer => exact History.always_cons trivial History.always_nil
  case timeOut => exact History.always_cons trivial History.always_nil
  all_goals exact History.always_nil

theorem Step.desired (hs : Sound s) (hf : InForce schedule seen s.moment.clock s.settled)
    (h : Step p s o) : History.Always (fun before => Desired schedule (seen ++ before))
      (o.2.map (s.moment, ·)) := by
  cases h
  case loop h => exact h.desired hs hf
  all_goals exact History.always_nil

theorem RunWhere.desired (run : RunWhere Event.Steady p (.initial schedule m) seen s) :
    seen.Always (Desired schedule) := by
  induction run
  case refl => exact History.always_nil
  case step run _ h ih =>
    exact History.always_append ih ((Step.of_step h).desired run.run.sound run.inForce)

-- What the door should be is told by the requests accepted so far.
structure FollowsHistory (schedule : Schedule) (seen : History) (s : State) : Prop where
  status : ¬s.phase.IsAccepting → ∀ t, s.moment.clock ≤ t →
    s.registers.statusAt t = seen.desiredAt schedule s.registers.resetting t
  commanded : ∀ (before : History) m purpose c after,
    seen = before ++ (m, .called purpose c) :: after → ¬purpose.IsReset → c ≠ .buzz →
      (∃ status, before.getLast? = some (m, .evaluated status)) ∧
        c = (before.desiredAt schedule false m.clock).state.command
  -- Outside of a hard reset an unlock is asked for by an overwrite or by the schedule.
  unlocked : ∀ (before : History) m purpose after,
    seen = before ++ (m, .called purpose .unlock) :: after → ¬purpose.IsReset →
      (∃ o, before.lastOverwrite = some o ∧ m.clock < o.expiry ∧ o.state = .unlocked) ∨
      (∀ o, before.lastOverwrite = some o → o.expiry ≤ m.clock) ∧
        ((before.scheduleInForce schedule).stateAt m.clock).state = .unlocked

theorem History.unlocked_of_desired {resetting : Bool} {t : Timestamp}
    (h : (seen.desiredAt schedule resetting t).state = .unlocked) :
    (∃ o, seen.lastOverwrite = some o ∧ t < o.expiry ∧ o.state = .unlocked) ∨
      (∀ o, seen.lastOverwrite = some o → o.expiry ≤ t) ∧
        ((seen.scheduleInForce schedule).stateAt t).state = .unlocked := by
  unfold desiredAt at h
  split at h
  case h_1 o ho =>
    rw [Option.filter_eq_some_iff] at ho
    exact .inl ⟨o, ho.1, by simpa using ho.2, h⟩
  case h_2 ho =>
    rw [Option.filter_eq_none_iff] at ho
    exact .inr ⟨fun o hs => by simpa using ho o hs, h⟩

theorem RunWhere.followsHistory (run : RunWhere Event.Steady p (.initial schedule m) seen s) :
    FollowsHistory schedule seen s := by
  have commanded : ∀ (before : History) m purpose c after,
      seen = before ++ (m, .called purpose c) :: after → ¬purpose.IsReset → c ≠ .buzz →
        (∃ status, before.getLast? = some (m, .evaluated status)) ∧
          c = (before.desiredAt schedule false m.clock).state.command := by
    intro before m purpose c after heq hn hc
    have h := run.desired before _ after heq
    cases purpose
    case evaluation => exact h
    case buzz => exact absurd h hc
    case reset => exact absurd trivial hn
  refine ⟨fun ha t ht => ?_, commanded, fun before m purpose after heq hn => ?_⟩
  case refine_1 =>
    have hf := run.inForce
    rw [settled_of_not_accepting ha] at hf
    exact hf.statusAt ht
  case refine_2 =>
    obtain ⟨-, h⟩ := commanded before m purpose .unlock after heq hn nofun
    have hd : (before.desiredAt schedule false m.clock).state = .unlocked := by
      cases hd : (before.desiredAt schedule false m.clock).state
      case unlocked => rfl
      case locked => rw [hd] at h; cases h
    exact History.unlocked_of_desired hd

-- A closed door is to be unlocked for ten seconds, and the loop looks again after twenty.
def briefOverwrite : List Event :=
  [.invoke .start, .call 0 .advance, .call 0 .advance, .call 0 .advance, .loop .advance,
    .loop .advance, .invoke (.request (.overwrite ⟨.unlocked, .ofSeconds 10, "keypad"⟩)),
    .call 1 .advance, .call 1 .advance, .loop (.wake .request), .loop .advance, .loop .advance,
    .loop .advance, .loop (.answer (.ok ())), .loop .advance, .loop .advance,
    .pass (.ofSeconds 20) (.ofSeconds 20), .loop (.wake .timer), .loop .advance]

theorem followsHistory_briefOverwrite : ∃ seen s,
    FollowsHistory closed seen s ∧ seen.driven = [.unlock, .lock] := by
  have h : ∃ x ∈ (State.initial closed ⟨0, .ofSeconds 0⟩).follow {} Event.Steady briefOverwrite,
      x.1.driven = [.unlock, .lock] := by
    decide +kernel
  have ⟨x, hx, h⟩ := h
  exact ⟨x.1, x.2, (RunWhere.of_follow hx).followsHistory, h⟩

end EntryDoor.Scheduler
