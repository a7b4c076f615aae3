import EntryDoor.Daemon.Basic
import EntryDoor.Proofs.Scheduler.HandOff

namespace EntryDoor

open Scheduler

theorem ConfiguredDoor.backend_of_send {d d' : ConfiguredDoor} {c : Command} {t : Timestamp}
    {message : Option Message} (h : d.send c t = .ok (d', message)) : d'.backend = d.backend := by
  cases d with
  | virtual door =>
    cases hs : door.send c <;> simp only [send, hs] at h <;> cases h
    rfl
  | mqtt door =>
    cases hs : door.send c t <;> simp only [send, hs] at h <;> cases h
    rfl

namespace LiveDoor

variable {d d' : LiveDoor} {c : Command} {m : Moment}

-- What the door of a daemon does by itself.
inductive Turns (d : LiveDoor) : LiveDoor → Prop
  | answer : Turns d { d with answer := none }
  | acknowledged {door : MqttDoor} (h : d.door = .mqtt door) :
      Turns d { d with door := .mqtt door.acknowledged }
  | lost {door : MqttDoor} (h : d.door = .mqtt door) : Turns d { d with door := .mqtt door.lost }

theorem Turns.backend (h : d.Turns d') : d'.door.backend = d.door.backend := by
  cases h
  case answer => rfl
  case acknowledged h | lost h => rw [h]; rfl

theorem backend_call : (d.call c m).door.backend = d.door.backend := by
  unfold LiveDoor.call
  split
  case h_1 h => exact ConfiguredDoor.backend_of_send h
  case h_2 => rfl

end LiveDoor

namespace Scheduler

-- Schedules are replaced by reloads only, and the owner keeps the scheduler.
def Event.ReplacesNothing : Event → Prop
  | .invoke (.request (.replace _)) => False
  | .release => False
  | _ => True

namespace Engine

variable {e e' e'' : Engine LiveDoor} {seen later : History} {event : Event} {t : State}
  {now : List Occurrence} {task : Task} {foreground : Option CallId}

inductive Works (e : Engine LiveDoor) : History → Engine LiveDoor → Prop
  | refl : Works e [] e
  | step {seen : History} {e' : Engine LiveDoor} {event : Event} {t : State}
      {now : List Occurrence} : Works e seen e' → event.ReplacesNothing →
      e'.state.step e'.policy event = some (t, now) →
      Works e (seen ++ now.map (e'.state.moment, ·)) (e'.apply event)
  | door {seen : History} {e' : Engine LiveDoor} {door : LiveDoor} : Works e seen e' →
      e'.door.Turns door → Works e seen { e' with door }
  | order {seen : History} {e' : Engine LiveDoor} (ready timers : List Task) : Works e seen e' →
      Works e seen { e' with ready, timers }

theorem state_apply (h : e.state.step e.policy event = some (t, now)) :
    (e.apply event).state = t := by
  simp [apply, h]

theorem policy_apply : (e.apply event).policy = e.policy :=
  (e.reaches_apply event).1

theorem backend_apply : (e.apply event).door.door.backend = e.door.door.backend := by
  unfold apply
  split
  case h_1 => rfl
  case h_2 state seen h =>
    clear h
    generalize e.door = door
    induction seen generalizing door with
    | nil => rfl
    | cons x seen ih =>
      rw [List.foldl_cons, ih]
      split
      case h_1 => exact LiveDoor.backend_call
      case h_2 => rfl

namespace Works

theorem run (h : Works e seen e') : e'.policy = e.policy ∧ Run e.policy e.state seen e'.state := by
  induction h
  case refl => exact ⟨rfl, .refl⟩
  case step hs ih =>
    have ⟨hp, hr⟩ := ih
    rw [policy_apply, state_apply hs]
    exact ⟨hp, hr.step (hp ▸ hs)⟩
  case door ih => exact ih
  case order ih => exact ih

theorem backend (h : Works e seen e') : e'.door.door.backend = e.door.door.backend := by
  induction h
  case refl => rfl
  case step ih => exact backend_apply.trans ih
  case door ht ih => exact ht.backend.trans ih
  case order ih => exact ih

theorem trans (h : Works e seen e') (h' : Works e' later e'') : Works e (seen ++ later) e'' := by
  induction h'
  case refl => rwa [List.append_nil]
  case step ho hs ih =>
    rw [← List.append_assoc]
    exact ih.step ho hs
  case door ht ih => exact ih.door ht
  case order ready timers _ ih => exact ih.order ready timers

end Works

def LeadsTo (e e' : Engine LiveDoor) : Prop :=
  ∃ seen, Works e seen e'

namespace LeadsTo

theorem refl (e : Engine LiveDoor) : LeadsTo e e :=
  ⟨[], .refl⟩

theorem trans : LeadsTo e e' → LeadsTo e' e'' → LeadsTo e e''
  | ⟨_, h⟩, ⟨_, h'⟩ => ⟨_, h.trans h'⟩

theorem order (h : LeadsTo e e') (ready timers : List Task) :
    LeadsTo e { e' with ready, timers } :=
  have ⟨_, h⟩ := h
  ⟨_, h.order ready timers⟩

theorem door {door : LiveDoor} (h : LeadsTo e e') (ht : e'.door.Turns door) : LeadsTo e { e' with door } :=
  have ⟨_, h⟩ := h
  ⟨_, h.door ht⟩

end LeadsTo

theorem leadsTo_apply (ho : event.ReplacesNothing) : LeadsTo e (e.apply event) := by
  cases h : e.state.step e.policy event with
  | none =>
    have ha : e.apply event = e := by simp [apply, h]
    rw [ha]
    exact .refl e
  | some o => exact ⟨_, Works.refl.step ho h⟩

-- The loop goes on by itself, with an answer of the door, or after it has given the door up.
theorem turns_of_loopEvent? {event : LoopEvent} {door : LiveDoor}
    (h : e.loopEvent? = some (event, door)) : door = e.door ∨ e.door.Turns door := by
  unfold loopEvent? at h
  dsimp only at h
  split at h
  case h_4 =>
    split at h
    case h_1 ha =>
      obtain ⟨_, -, ha⟩ := Option.map_eq_some_iff.mp ha
      cases ha
      cases h
      exact .inr .answer
    case h_2 =>
      split at h <;> cases h
      exact .inr .answer
  all_goals
    repeat' split at h
    all_goals cases h
    all_goals exact .inl rfl

theorem leadsTo_event? (h : e.event? task = some e') : LeadsTo e e' := by
  cases task with
  | loop =>
    obtain ⟨⟨event, door⟩, hx, rfl⟩ := Option.map_eq_some_iff.mp h
    rcases turns_of_loopEvent? hx with rfl | hd
    case inl => exact leadsTo_apply trivial
    case inr => exact ((LeadsTo.refl e).door hd).trans (leadsTo_apply trivial)
  | call i =>
    obtain ⟨_, -, rfl⟩ := Option.map_eq_some_iff.mp h
    exact leadsTo_apply trivial

theorem leadsTo_events (n : Nat) : LeadsTo e (events task n e) := by
  induction n generalizing e with
  | zero => exact .refl e
  | succ n ih =>
    unfold events
    split
    case h_1 h => exact (leadsTo_event? h).trans ih
    case h_2 => exact .refl e

theorem leadsTo_goOn : LeadsTo e (e.goOn task) :=
  (leadsTo_events turnLength).order _ _

theorem leadsTo_turn : LeadsTo e (e.turn task) := by
  unfold turn
  split
  case isTrue => exact leadsTo_goOn.order _ _
  case isFalse => exact .refl e

theorem leadsTo_turns (n : Nat) : LeadsTo e (turns foreground n e) := by
  induction n generalizing e with
  | zero => exact .refl e
  | succ n ih =>
    unfold turns
    split
    case isTrue => exact .refl e
    case isFalse =>
      split
      case h_1 rest _ _ => exact (((LeadsTo.refl e).order rest e.timers).trans leadsTo_turn).trans ih
      case h_2 =>
        split
        case isTrue => exact leadsTo_goOn.trans ih
        case isFalse => exact .refl e
      case h_3 => exact .refl e

theorem leadsTo_settle (foreground : Option CallId) : LeadsTo e (e.settle foreground) :=
  leadsTo_turns _

theorem leadsTo_pass (elapsed : Duration) (clock : Timestamp) :
    LeadsTo e (e.apply (.pass elapsed clock)) :=
  leadsTo_apply trivial

theorem leadsTo_passTo (t : Instant) : LeadsTo e (e.passTo t) :=
  (leadsTo_pass _ _).order _ _

theorem leadsTo_runTo (t : Instant) (n : Nat) : LeadsTo e (runTo t n e) := by
  induction n generalizing e with
  | zero => exact leadsTo_passTo t
  | succ n ih =>
    refine (leadsTo_settle none).trans ?_
    unfold runTo
    dsimp only
    split
    case h_1 =>
      split
      case isTrue => exact (leadsTo_passTo _).trans ih
      case isFalse => exact leadsTo_passTo _
    case h_2 => exact leadsTo_passTo _

theorem leadsTo_run (d : Duration) : LeadsTo e (e.run d) := by
  unfold run
  split
  case isTrue => exact .refl e
  case isFalse => exact leadsTo_runTo _ _

theorem leadsTo_runUntil (i : CallId) (n : Nat) : LeadsTo e (runUntil i foreground n e) := by
  induction n generalizing e with
  | zero => exact .refl e
  | succ n ih =>
    refine (leadsTo_settle foreground).trans ?_
    unfold runUntil
    dsimp only
    split
    case isTrue => exact .refl _
    case isFalse =>
      split
      case h_1 => exact (leadsTo_passTo _).trans ih
      case h_2 => exact ((leadsTo_passTo _).trans leadsTo_goOn).trans ih
      case h_3 => exact .refl _

-- Once a call is made, the rest is up to the engine.
theorem leadsTo_call (what : Invocation) : LeadsTo (e.invoke what).2 (e.call what).2 :=
  leadsTo_goOn.trans (leadsTo_runUntil _ _)

end Engine

end Scheduler

end EntryDoor
