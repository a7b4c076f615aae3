import EntryDoor.Door.Virtual
import EntryDoor.Proofs.Scheduler.Invariants

namespace EntryDoor

-- The door after what was seen, unless that is the end of a call that has failed.
def VirtualDoor.take? (door : VirtualDoor) : Scheduler.Occurrence → Option VirtualDoor
  | .answered _ c (.ok ()) => (door.send c).toOption
  | .answered _ _ (.error _) => none
  | _ => some door

namespace Scheduler

open State

-- The door after all calls that have ended, if none of them has failed.
def History.serve? (seen : History) (door : VirtualDoor) : Option VirtualDoor :=
  seen.foldlM (fun door x => door.take? x.2) door

-- Whether an occurrence puts an end to what the last evaluation has found.
def Supersedes : Occurrence → Prop
  | .evaluated _ => True
  | .accepted _ .reset => True
  | _ => False

-- What stands of the findings of evaluations: the last one, unless a hard reset was accepted since.
def stands (standing : Option DoorState) : Occurrence → Option DoorState
  | .evaluated status => some status.state
  | .accepted _ .reset => none
  | _ => standing

def History.standing (seen : History) : Option DoorState :=
  seen.foldl (fun standing x => stands standing x.2) none

namespace Phase

-- The call of an evaluation is in progress.
@[simp] def IsDriving : Phase → Prop
  | commanding (.evaluation _) .. => True
  | _ => False

-- No call in progress moves the lock, and none is to come but for a request or an evaluation.
@[simp] def SparesLock : Phase → Prop
  | commanding (.buzz ..) c _ => c.position = none
  | commanding .. => False
  | settling .. => False
  | _ => True

theorem not_isDriving {phase : Phase} (h : phase.isCommanding = false) : ¬phase.IsDriving := by
  cases phase
  case commanding => cases h
  all_goals exact id

theorem SparesLock.not_isResetting {phase : Phase} (h : phase.SparesLock) : ¬phase.IsResetting := by
  cases phase
  case commanding purpose _ _ => cases purpose <;> simp_all
  all_goals simp_all

end Phase

-- The lock is in the state on which the budget is spent, or on its way there. During a hard reset it may
-- be anywhere.
inductive Positioned (s : State) : Option DoorState → Option DoorState → Prop
  | driving {lock : Option DoorState} {validUntil d deadline}
      (hp : s.phase = .commanding (.evaluation validUntil) d.command deadline)
      (ht : s.settled.target = some d) : Positioned s (some d) lock
  | resetting {lock : Option DoorState} (hp : s.phase.IsResetting) : Positioned s none lock
  | resting {standing lock : Option DoorState} (hp : s.phase.SparesLock)
      (hl : ∀ d, standing = some d → lock = some d)
      (ht : ∀ d, s.settled.target = some d → lock = some d) : Positioned s standing lock

variable {p : Policy} {s t : State} {o : Outcome} {d : DoorState} {door door' : VirtualDoor}
  {standing lock : Option DoorState}

theorem State.evaluate_target : (s.evaluate p).1.settled.target = some s.status.state := by
  rw [evaluate_settled, driven]
  generalize ha : (s.registers.clearExpired s.moment.clock).aim p s.status.state = aimed
  have ht : aimed.target = some s.status.state := ha ▸ Registers.aim_target
  cases hs : aimed.spend?
  case none => exact ht
  case some => rw [Option.getD_some, Registers.spend?_eq hs, ht]

-- Without a command left, the budget was not begun by this evaluation.
theorem target_of_spend?_eq_none {r : Registers} (hb : 1 ≤ p.maxTries d)
    (h : (r.aim p d).spend? = none) : r.target = some d := by
  by_cases ht : r.target = some d
  case pos => exact ht
  case neg =>
    rw [Registers.aim, if_neg ht, Registers.spend?] at h
    split at h
    case isTrue => cases h
    case isFalse hn => exact absurd hb hn

namespace Positioned

-- The door has taken everything seen in the evaluation.
theorem evaluate (hb : ∀ d, 1 ≤ p.maxTries d) (h : Positioned s standing door.lockState)
    (hp : s.phase = .evaluating)
    (hd : (s.evaluate p).2.foldlM VirtualDoor.take? door = some door') :
    Positioned (s.evaluate p).1 ((s.evaluate p).2.foldl stands standing) door'.lockState := by
  have ht := s.evaluate_target (p := p)
  rw [evaluate_eq] at hd ht ⊢
  cases hn : ((s.registers.clearExpired s.moment.clock).aim p s.status.state).spend? with
  | some spent =>
    rw [hn] at hd ht
    cases hd
    exact .driving rfl ht
  | none =>
    rw [hn] at hd ht
    cases hd
    cases h with
    | driving hd => simp [hp] at hd
    | resetting hr => simp [hp] at hr
    | resting _ _ hold =>
      -- The budget is an old one, so the lock is in this state already.
      have hr : s.settled = s.registers := settled_of_not_accepting (by simp [hp])
      have hlock := hold _ (hr ▸ target_of_spend?_eq_none (hb _) hn)
      exact .resting trivial (fun d h => hlock.trans h) fun d h => hlock.trans (ht.symm.trans h)

theorem congr (h : Positioned s standing lock) (hs : t.settled = s.settled)
    (hp : t.phase = s.phase) : Positioned t standing lock := by
  cases h with
  | driving hd ht => exact .driving (hp.trans hd) (hs ▸ ht)
  | resetting hr => exact .resetting (hp ▸ hr)
  | resting hn hl ht => exact .resting (hp ▸ hn) hl (hs ▸ ht)

theorem rest (h : Positioned s standing lock) (hs : t.settled = s.settled)
    (hp : s.phase.SparesLock) (hp' : t.phase.SparesLock) : Positioned t standing lock := by
  cases h with
  | driving hd => simp [hd] at hp
  | resetting hr => exact absurd hr hp.not_isResetting
  | resting _ hl ht => exact .resting hp' hl (hs ▸ ht)

theorem accept {i : CallId} {wake : Instant} {before : Registers} {r : Request}
    (h : Positioned s standing door.lockState) (hp : s.phase = .accepting i wake before)
    (hr : s.registers = before.install r)
    (hd : (.accepted i r :: ((s.setStage i r .accepted).carryOut p i wake r).2).foldlM
      VirtualDoor.take? door = some door') :
    Positioned ((s.setStage i r .accepted).carryOut p i wake r).1
      ((.accepted i r :: ((s.setStage i r .accepted).carryOut p i wake r).2).foldl stands standing)
      door'.lockState := by
  have hb := settled_of_accepting hp
  cases r
  case buzz =>
    cases hd
    exact h.rest (hr.trans hb.symm) (by simp [hp]) rfl
  case reset =>
    cases hd
    exact .resetting trivial
  all_goals
    cases hd
    refine .resting trivial ?_ nofun
    cases h with
    | driving hd => simp [hp] at hd
    | resetting hr => simp [hp] at hr
    | resting _ hl _ => exact hl

theorem answered {purpose : Purpose} {c : Command} {deadline : Instant}
    {result : Except Failure Unit} (h : Positioned s standing door.lockState)
    (hp : s.phase = .commanding purpose c deadline)
    (hd : door.take? (.answered purpose c result) = some door') :
    Positioned (s.afterCommand p result purpose) standing door'.lockState := by
  have hr : s.settled = s.registers := settled_of_not_accepting (by simp [hp])
  have hlock : door'.lockState = c.position.or door.lockState := by
    cases result with
    | ok =>
      simp only [VirtualDoor.take?] at hd
      cases hs : door.send c with
      | ok => rw [hs] at hd; cases hd; exact VirtualDoor.lockState_of_send hs
      | error => rw [hs] at hd; cases hd
    | error => cases hd
  cases h with
  | driving hd ht =>
    cases hp.symm.trans hd
    rw [Command.position_command, Option.some_or] at hlock
    refine .resting trivial (fun _ h => hlock.trans h) fun _ h => ?_
    exact hlock.trans ((hr ▸ ht).symm.trans h)
  | resetting hs =>
    cases purpose
    case reset rest _ =>
      cases rest with
      | nil => exact .resting trivial nofun nofun
      | cons => exact .resetting trivial
    all_goals simp [hp] at hs
  | resting hs hl ht =>
    cases purpose
    case buzz =>
      -- A buzz does not move the lock.
      have hc : c.position = none := by simpa [hp] using hs
      rw [hc, Option.none_or] at hlock
      rw [hlock]
      exact .resting trivial hl fun d h => ht d (hr ▸ reply_registers ▸ h)
    all_goals simp [hp] at hs

end Positioned

theorem LoopStep.positioned (hb : ∀ d, 1 ≤ p.maxTries d) (hs : Sound s)
    (hpos : Positioned s standing door.lockState) (h : LoopStep p s o)
    (hd : o.2.foldlM VirtualDoor.take? door = some door') :
    Positioned o.1 (o.2.foldl stands standing) door'.lockState := by
  have hq := hs.settled_loop h
  cases h
  case accept hp hc => exact hpos.accept hp (hs.eq_install hp hc) hd
  case evaluate hp => exact hpos.evaluate hb hp hd
  case settle hp _ =>
    cases hpos with
    | resetting => cases hd; exact .resetting trivial
    | driving hd => simp [hp] at hd
    | resting hn => simp [hp] at hn
  case answer hp =>
    obtain ⟨_, hd, hnil⟩ := Option.bind_eq_some_iff.mp hd
    cases hnil
    exact hpos.answered hp hd
  case timeOut hp _ => cases hd
  all_goals
    cases hd
    exact hpos.rest hq (by simp [*]) (by simp)

theorem Step.positioned (hb : ∀ d, 1 ≤ p.maxTries d) (hs : Sound s)
    (hpos : Positioned s standing door.lockState) (h : Step p s o)
    (hd : o.2.foldlM VirtualDoor.take? door = some door') :
    Positioned o.1 (o.2.foldl stands standing) door'.lockState := by
  have hq := hs.settled_step h
  cases h
  case request h => cases hd; exact hpos.congr hq (sparesLoop_of_requestStep h).phase
  case stop h => cases hd; exact hpos.congr hq (sparesLoop_of_stopStep h).phase
  case spawn hc => cases hd; exact hpos.rest hq (by simp [hs.claimed _ hc]) trivial
  case loop h => exact h.positioned hb hs hpos hd
  all_goals
    cases hd
    exact hpos.congr hq rfl

theorem Run.positioned {schedule : Schedule} {m : Moment} {seen : History}
    (hb : ∀ d, 1 ≤ p.maxTries d) (run : Run p (.initial schedule m) seen s)
    (hd : seen.serve? door = some door') : Positioned s seen.standing door'.lockState := by
  induction run generalizing door'
  case refl => exact .resting trivial nofun nofun
  case step run h ih =>
    rw [History.serve?, List.foldlM_append] at hd
    obtain ⟨between, hseen, hnow⟩ := Option.bind_eq_some_iff.mp hd
    rw [List.foldlM_map] at hnow
    have := (Step.of_step h).positioned hb run.sound (ih hseen) hnow
    simpa [History.standing, List.foldl_map] using this

theorem stands_of_not_supersedes {x : Occurrence} (h : ¬Supersedes x) :
    stands standing x = standing := by
  cases x
  case evaluated => exact absurd trivial h
  case accepted r =>
    cases r
    case reset => exact absurd trivial h
    all_goals rfl
  all_goals rfl

theorem History.standing_append {before after : History} (hn : ∀ x ∈ after, ¬Supersedes x.2) :
    (before ++ after).standing = before.standing := by
  rw [History.standing, List.foldl_append, ← History.standing]
  generalize before.standing = last
  induction after with
  | nil => rfl
  | cons x after ih =>
    have ⟨hx, hn⟩ := List.forall_mem_cons.mp hn
    rw [List.foldl_cons, stands_of_not_supersedes hx, ih hn]

-- Once the call of an evaluation has ended, if it has made one, the lock is in the state that was found. There
-- it stays until a hard reset or another evaluation.
theorem Run.lockFollows {schedule : Schedule} {m m' : Moment} {seen before after : History}
    {status : Status} (hl : 1 ≤ p.maxTriesLocked) (hu : 1 ≤ p.maxTriesUnlocked)
    (run : Run p (.initial schedule m) seen s) (hd : seen.serve? door = some door')
    (hs : seen = before ++ (m', .evaluated status) :: after) (hn : ∀ x ∈ after, ¬Supersedes x.2)
    (hp : ¬s.phase.IsDriving) : door'.lockState = some status.state := by
  have hb : ∀ d, 1 ≤ p.maxTries d := fun d => by cases d <;> assumption
  have hstanding : seen.standing = some status.state := by
    rw [hs, List.append_cons, History.standing_append hn]
    simp [History.standing, stands]
  have hpos := run.positioned hb hd
  rw [hstanding] at hpos
  cases hpos with
  | driving h => simp [h] at hp
  | resting _ hl _ => exact hl _ rfl

-- A single try to lock the door, a buzz, a hard reset and the try after it. Another look then finds the
-- budget spent.
def buzzAndReset : List Event :=
  [.invoke .start, .call 0 .advance, .call 0 .advance, .call 0 .advance, .loop .advance,
    .loop .advance, .loop (.wake .timer), .loop .advance, .loop (.answer (.ok ())),
    .loop .advance, .loop .advance, .invoke (.request .buzz), .call 1 .advance, .call 1 .advance,
    .loop (.wake .request), .loop .advance, .loop (.answer (.ok ())), .loop .advance,
    .invoke (.request .reset), .call 2 .advance, .call 2 .advance, .loop (.wake .request),
    .loop .advance, .loop (.answer (.ok ())), .pass (.ofSeconds 2) (.ofSeconds 2),
    .loop .advance, .loop (.answer (.ok ())), .pass (.ofSeconds 2) (.ofSeconds 4),
    .loop .advance, .loop (.answer (.ok ())), .loop .advance, .loop .advance,
    .loop (.answer (.ok ())), .loop .advance, .loop .advance,
    .pass (.ofSeconds 60) (.ofSeconds 64), .loop (.wake .timer), .loop .advance]

theorem lockFollows_buzzAndReset : ∃ seen s door,
    Run { maxTriesLocked := 1 } (.initial closed ⟨0, .ofSeconds 0⟩) seen s ∧
      seen.findings = [.locked, .locked, .locked] ∧ seen.driven = [.lock, .lock] ∧
      seen.serve? {} = some door ∧ door.journal = [.lock, .buzz, .unlock, .lock, .unlock, .lock] ∧
      door.lockState = some .locked := by
  have h : ∃ x ∈ (State.initial closed ⟨0, .ofSeconds 0⟩).follow { maxTriesLocked := 1 }
      (fun _ _ => True) buzzAndReset,
      x.1.findings = [.locked, .locked, .locked] ∧ x.1.driven = [.lock, .lock] ∧
        (∃ door ∈ x.1.serve? {}, door.journal = [.lock, .buzz, .unlock, .lock, .unlock, .lock]) ∧
        (∃ y ∈ x.1.getLast?, y.2.finding? = some .locked) ∧ x.2.phase.isCommanding = false := by
    decide +kernel
  obtain ⟨⟨seen, s⟩, hx, hf, hdriven, ⟨door, hd, hj⟩, ⟨⟨m, y⟩, hlast, hy⟩, hp⟩ := h
  have run := (RunWhere.of_follow hx).run
  -- The last thing seen is an evaluation, which has sent nothing.
  obtain ⟨before, hs⟩ := List.getLast?_eq_some_iff.mp hlast
  cases y
  case evaluated status =>
    have hlock := run.lockFollows (by decide) (by decide) hd hs
      (fun _ h => absurd h List.not_mem_nil) (Phase.not_isDriving hp)
    exact ⟨seen, s, door, run, hf, hdriven, hd, hj, hlock.trans hy⟩
  all_goals cases hy

end Scheduler

end EntryDoor
