import EntryDoor.Proofs.Config.Entries
import EntryDoor.Proofs.Daemon.Work
import EntryDoor.Proofs.Scheduler.Buzz
import EntryDoor.Proofs.Scheduler.Desired

namespace EntryDoor

open Scheduler State

-- What the configuration that is there yields: it is loaded and makes sense, and its rules can be
-- built.
def ConfigSource.Yields (source : ConfigSource) (schedule : Schedule) : Prop :=
  ∃ config rules, source.load = .ok config ∧ config.ruleSet = .ok rules ∧
    schedule = config.scheduleOf rules

theorem ConfigSource.schedule_eq_ok_iff {source : ConfigSource} {schedule : Schedule} :
    source.schedule = .ok schedule ↔ source.Yields schedule := by
  simp only [ConfigSource.schedule, Config.schedule, Except.bind_eq_ok]
  constructor
  case mp =>
    rintro ⟨config, hl, rules, hr, h⟩
    cases h
    exact ⟨config, rules, hl, hr, rfl⟩
  case mpr =>
    rintro ⟨config, rules, hl, hr, rfl⟩
    exact ⟨config, hl, rules, hr, rfl⟩

namespace Scheduler

variable {p : Policy} {s t : State} {o : Outcome} {e : Event} {i : CallId} {r : Request}
  {stage : RequestStage} {seen : History} {accepted : List (CallId × Request)}

-- Of what is seen, only an accepted request changes the schedule.
theorem Registers.after_schedule {registers : Registers} {m : Moment} {x : Occurrence} :
    (registers.after p m x).schedule =
      History.scheduleInForce registers.schedule [(m, x)] := by
  cases x
  case accepted i q => cases q <;> rfl
  case evaluated status =>
    obtain ⟨_, _, _, h⟩ := @Registers.after_evaluated p registers m status
    rw [h]
    rfl
  case called => rfl
  case answered purpose _ _ =>
    cases purpose
    case reset rest _ => cases rest <;> rfl
    all_goals rfl

theorem History.replay_schedule {registers : Registers} :
    (History.replay p registers seen).schedule =
      seen.scheduleInForce registers.schedule := by
  induction seen generalizing registers with
  | nil => rfl
  | cons x seen ih =>
    have h : scheduleInForce registers.schedule (x :: seen) =
        scheduleInForce (scheduleInForce registers.schedule [x]) seen := by
      rw [← List.singleton_append, scheduleInForce, accepted_append, List.foldl_append]
      rfl
    rw [h, ← Registers.after_schedule (p := p)]
    exact ih

-- A step accepts one request at most, and one that is in the queue.
theorem CallsStep.accepted_eq (h : CallsStep s t accepted) : accepted = [] ∨
    ∃ i r d, accepted = [(i, r)] ∧ s.calls[i]? = some (.request r (.queued d)) := by
  cases h
  case loop h =>
    cases h
    case accept hc _ => exact .inr ⟨_, _, _, rfl, hc⟩
    all_goals exact .inl rfl
  all_goals exact .inl rfl

-- What asks for a new schedule has done so before.
theorem replace_of_step {schedule : Schedule} (he : e.ReplacesNothing) (h : s.step p e = some o)
    (hi : o.1.calls[i]? = some (.request (.replace schedule) stage)) :
    ∃ stage', s.calls[i]? = some (.request (.replace schedule) stage') := by
  have hset {j : CallId} {r : Request} {before after : RequestStage}
      (hj : s.calls[j]? = some (.request r before))
      (ht : o.1.calls = s.calls.set j (.request r after)) :
      ∃ stage', s.calls[i]? = some (.request (.replace schedule) stage') := by
    rcases eq_or_calls_of_set ht hi with ⟨rfl, hc⟩ | hi
    case inl => cases hc; exact ⟨_, hj⟩
    case inr => exact ⟨_, hi⟩
  cases e
  case pass | release => cases h; exact ⟨_, hi⟩
  case invoke what =>
    simp only [State.step] at h
    split at h <;> cases h
    rw [List.getElem?_append] at hi
    split at hi
    case isTrue => exact ⟨_, hi⟩
    case isFalse =>
      have hw := List.mem_singleton.mp (List.mem_of_getElem? hi)
      cases what <;> cases hw
      exact absurd he id
  case call j ce =>
    obtain ⟨t, hm, rfl⟩ := Option.map_eq_some_iff.mp h
    obtain ⟨c, hc, hu⟩ := Option.bind_eq_some_iff.mp hm
    split at hu
    case h_1 =>
      obtain ⟨_, _, ht⟩ := calls_of_requestStep hu
      exact hset hc ht
    case h_2 stage =>
      cases stage <;> cases hu
      all_goals exact ⟨_, calls_of_set (d := .start _) rfl (by simp) hi⟩
    case h_3 =>
      obtain ⟨_, ht⟩ := calls_of_stopStep hu
      exact ⟨_, calls_of_set ht (by simp) hi⟩
    case h_4 =>
      split at hu <;> cases hu
      exact ⟨_, calls_of_set (d := .stop _) rfl (by simp) hi⟩
    case h_5 => cases hu
  case loop =>
    have hc := (LoopStep.of_loopStep h).calls
    generalize o.2.filterMap (·.acceptance?) = accepted at hc
    cases hc
    case same ht => exact ⟨_, ht ▸ hi⟩
    case reply hj ht => exact hset hj ht
    case accept hj ht => exact hset hj ht

theorem released_of_requestStep {ce : CallEvent} (h : s.requestStep p i r stage ce = some t) :
    t.released = s.released := by
  cases ce
  case drop =>
    simp only [requestStep] at h
    split at h <;> cases h
    rfl
  all_goals cases stage <;> simp only [requestStep, reduceCtorEq] at h
  case advance.created => split at h <;> cases h <;> rfl
  case advance.sending => split at h <;> cases h; rfl
  case advance.accepted => cases r <;> cases h <;> rfl
  case advance.replied => cases h; rfl
  case giveUp.sending => obtain ⟨_, -, rfl⟩ := Option.map_eq_some_iff.mp h; rfl
  case giveUp.queued => obtain ⟨_, -, rfl⟩ := Option.map_eq_some_iff.mp h; rfl

theorem released_of_stopStep {stage : StopStage} (h : s.stopStep i stage = some t) :
    t.released = s.released := by
  cases stage <;> simp only [stopStep, Option.ite_none_right_eq_some, reduceCtorEq] at h
  case joining | awaitingExit => obtain ⟨-, h⟩ := h; cases h; rfl
  all_goals cases h; rfl

theorem LoopStep.released (h : LoopStep p s o) : o.1.released = s.released := by
  cases h
  case accept r _ _ _ => cases r <;> rfl
  case evaluate =>
    rw [evaluate_eq]
    split <;> rfl
  case answer | timeOut =>
    simp only [State.answered, afterCommand]
    split <;> try rfl
    simp only [reply]
    split <;> rfl
  all_goals rfl

theorem released_of_step (he : e.ReplacesNothing) (h : s.step p e = some o) :
    o.1.released = s.released := by
  cases e
  case release => exact absurd he id
  case pass => cases h; rfl
  case invoke =>
    simp only [State.step] at h
    split at h <;> cases h
    rfl
  case loop => exact (LoopStep.of_loopStep h).released
  case call j ce =>
    obtain ⟨t, hm, rfl⟩ := Option.map_eq_some_iff.mp h
    obtain ⟨c, hc, hu⟩ := Option.bind_eq_some_iff.mp hm
    split at hu
    case h_1 => exact released_of_requestStep hu
    case h_2 stage => cases stage <;> cases hu <;> rfl
    case h_3 => exact released_of_stopStep hu
    case h_4 => split at hu <;> cases hu; rfl
    case h_5 => cases hu

-- The wake-up that the loop has set, where there is one and the loop is not about to set a new one.
def Phase.nextWake? : Phase → Option Instant
  | polling wake => some wake
  | waiting wake => some wake
  | accepting _ wake _ => some wake
  | carriedOut wake => some wake
  | commanding (.buzz _ wake) _ _ => some wake
  | commanding (.reset _ wake) _ _ => some wake
  | settling _ _ wake => some wake
  | _ => none

theorem Elsewhere.nextWake? {kept : CallId → Bool} {registers : Registers} {phase : Phase}
    (h : Elsewhere kept s registers phase) : phase.nextWake? = s.phase.nextWake? := by
  cases h
  case same => rfl
  case holding h | round h => rw [h]; rfl

end Scheduler

namespace Daemon

-- A reload, and the call that it has made if its configuration yields a schedule.
structure Reload where
  source : ConfigSource
  call : Option CallId

namespace Reload

-- Whether the scheduler has accepted the new schedule.
def AcceptedIn (seen : History) (r : Reload) : Prop :=
  ∃ i, r.call = some i ∧ i ∈ seen.callers

def IsOver (s : State) (r : Reload) : Prop :=
  ∀ i c, r.call = some i → s.calls[i]? = some c → c.isOver

end Reload

variable {d d₀ : Daemon} {reloads : List Reload} {seen later : History} {source : ConfigSource}
  {initial schedule : Schedule} {p : Policy} {s t : State} {e : Event} {now : List Occurrence}
  {i : CallId} {m : Moment}

-- The daemon works, and reads its configuration again. It does so once the reload before is over, and hands
-- the new schedule over if there is one.
inductive Runs (d₀ : Daemon) : List Reload → History → Daemon → Prop
  | start : Runs d₀ [] [] d₀
  | work {reloads : List Reload} {seen later : History} {d : Daemon} {engine : Engine LiveDoor} :
      Runs d₀ reloads seen d → d.engine.Works later engine →
      Runs d₀ reloads (seen ++ later) ⟨engine⟩
  | broken {reloads : List Reload} {seen : History} {d : Daemon} {source : ConfigSource}
      {cause : ConfigError} : Runs d₀ reloads seen d →
      (∀ r ∈ reloads, r.IsOver d.engine.state) → source.schedule = .error cause →
      Runs d₀ (reloads ++ [⟨source, none⟩]) seen d
  | replace {reloads : List Reload} {seen : History} {d : Daemon} {source : ConfigSource}
      {schedule : Schedule} : Runs d₀ reloads seen d →
      (∀ r ∈ reloads, r.IsOver d.engine.state) → source.schedule = .ok schedule →
      Runs d₀ (reloads ++ [⟨source, some (d.engine.invoke (.request (.replace schedule))).1⟩]) seen
        ⟨(d.engine.invoke (.request (.replace schedule))).2⟩

-- The schedule of the last reload that was accepted, or the initial one if none was.
inductive Latest (initial : Schedule) (seen : History) : List Reload → Schedule → Prop
  | initial {reloads : List Reload} (h : ∀ r ∈ reloads, ¬r.AcceptedIn seen) :
      Latest initial seen reloads initial
  | reload {before after : List Reload} {r : Reload} {schedule : Schedule}
      (hr : r.AcceptedIn seen) (hs : r.source.Yields schedule)
      (ha : ∀ r' ∈ after, ¬r'.AcceptedIn seen) :
      Latest initial seen (before ++ r :: after) schedule

namespace Latest

theorem concat {r : Reload} (h : Latest initial seen reloads schedule) (hr : ¬r.AcceptedIn seen) :
    Latest initial seen (reloads ++ [r]) schedule := by
  cases h
  case initial h => exact .initial (List.forall_mem_append.mpr ⟨h, List.forall_mem_singleton.mpr hr⟩)
  case reload hr' ha hs =>
    rw [List.append_assoc, List.cons_append]
    exact .reload hr' hs (List.forall_mem_append.mpr ⟨ha, List.forall_mem_singleton.mpr hr⟩)

-- What others ask for makes no reload accepted.
theorem congr (h : Latest initial seen reloads schedule)
    (ha : ∀ r ∈ reloads, r.AcceptedIn later ↔ r.AcceptedIn seen) :
    Latest initial later reloads schedule := by
  cases h
  case initial h => exact .initial fun r hr hl => h r hr ((ha r hr).mp hl)
  case reload hr hn hs =>
    refine .reload ((ha _ (by simp)).mpr hr) hs fun r' hr' hl => ?_
    exact hn r' hr' ((ha r' (by simp [hr'])).mp hl)

end Latest

-- What the reloads have made of the scheduler so far.
structure Reloading (initial : Schedule) (reloads : List Reload) (seen : History) (s : State) :
    Prop where
  known : ∀ (i : CallId) schedule stage, s.calls[i]? = some (.request (.replace schedule) stage) →
    ∃ r ∈ reloads, r.call = some i ∧ r.source.Yields schedule
  made : ∀ r ∈ reloads, ∀ i, r.call = some i →
    ∃ schedule stage, s.calls[i]? = some (.request (.replace schedule) stage)
  -- Only the last one may be under way.
  finished : ∀ r ∈ reloads.dropLast, r.IsOver s
  latest : Latest initial seen reloads s.settled.schedule

namespace Reloading

variable (h : Reloading initial reloads seen s)

include h

-- The schedule that the loop accepts is that of the last reload.
theorem accept {d : Instant} (hc : s.calls[i]? = some (.request (.replace schedule) (.queued d)))
    (hi : i ∈ later.callers) : Latest initial later reloads schedule := by
  obtain ⟨r, hr, hi', hs⟩ := h.known i schedule _ hc
  obtain ⟨before, after, rfl⟩ := List.append_of_mem hr
  cases after with
  | nil => exact .reload ⟨i, hi', hi⟩ hs nofun
  | cons => cases h.finished r (by simp) i _ hi' hc

theorem step (hs : Sound s) (he : e.ReplacesNothing) (ht : s.step p e = some (t, now)) :
    Reloading initial reloads (seen ++ now.map (s.moment, ·)) t := by
  have hst := Step.of_step ht
  have hcalls := hst.calls
  refine ⟨fun i schedule stage hi => ?_, fun r hr i hi => ?_, fun r hr i c hi hc => ?_, ?_⟩
  case refine_1 =>
    obtain ⟨_, hi⟩ := replace_of_step he ht hi
    exact h.known i schedule _ hi
  case refine_2 =>
    obtain ⟨schedule, _, hc⟩ := h.made r hr i hi
    obtain ⟨_, hc⟩ := hcalls.request_persists hc
    exact ⟨schedule, _, hc⟩
  case refine_3 =>
    obtain ⟨schedule, stage, hs⟩ := h.made r (List.dropLast_subset _ hr) i hi
    have ho : stage.isOver := h.finished r hr i _ hi hs
    cases Option.some.inj (hc.symm.trans (hcalls.stays ho hs).1)
    exact ho
  case refine_4 =>
    have hcallers : (seen ++ now.map (s.moment, ·)).callers =
        seen.callers ++ (now.filterMap (·.acceptance?)).map (·.1) := by
      rw [History.callers_append, History.callers, History.callers, History.accepted_map]
    rw [hs.settled_step hst, History.replay_schedule, History.scheduleInForce, History.accepted_map]
    rcases hcalls.accepted_eq with hn | ⟨i, q, d, hn, hc⟩
    case inl =>
      rw [hn]
      exact h.latest.congr fun r _ => by simp [Reload.AcceptedIn, hcallers, hn]
    case inr =>
      rw [hn]
      cases q
      case replace => exact h.accept hc (by simp [hcallers, hn])
      -- Any other request is no reload.
      all_goals
        refine h.latest.congr fun r hr => ?_
        have hne : r.call ≠ some i := fun hi => by
          obtain ⟨_, _, hc'⟩ := h.made r hr i hi
          cases Option.some.inj (hc.symm.trans hc')
        simp only [Reload.AcceptedIn, hcallers, hn, List.map_singleton, List.mem_append,
          List.mem_singleton, and_or_left, exists_or]
        simp [hne]

variable (ho : ∀ r ∈ reloads, r.IsOver s)

include ho

theorem broken : Reloading initial (reloads ++ [⟨source, none⟩]) seen s where
  known i schedule stage hi :=
    have ⟨r, hr, h⟩ := h.known i schedule stage hi
    ⟨r, List.mem_append_left _ hr, h⟩
  made r hr i hi := by
    rcases List.mem_append.mp hr with hr | hr
    case inl => exact h.made r hr i hi
    case inr => cases List.mem_singleton.mp hr; cases hi
  finished := by rwa [List.dropLast_concat]
  latest := h.latest.concat nofun

theorem replace (ha : Agreed seen.accepted s) (hs : source.Yields schedule)
    (ht : t = s.calling (.request (.replace schedule) .created)) :
    Reloading initial (reloads ++ [⟨source, some s.calls.length⟩]) seen t := by
  subst ht
  have hlt {i : CallId} {c : Call} (hi : s.calls[i]? = some c) :
      (s.calling (.request (.replace schedule) .created)).calls[i]? = some c := by
    rw [calling, List.getElem?_append_left (List.getElem?_eq_some_iff.mp hi).1, hi]
  refine ⟨fun i schedule' stage hi => ?_, fun r hr i hi => ?_, ?_, h.latest.concat ?_⟩
  case refine_1 =>
    rw [calling, List.getElem?_append] at hi
    split at hi
    case isTrue =>
      obtain ⟨r, hr, h⟩ := h.known i schedule' stage hi
      exact ⟨r, List.mem_append_left _ hr, h⟩
    case isFalse hn =>
      cases List.mem_singleton.mp (List.mem_of_getElem? hi)
      have hlt := (List.getElem?_eq_some_iff.mp hi).1
      have hi : i = s.calls.length :=
        Nat.le_antisymm (Nat.sub_eq_zero_iff_le.mp (Nat.lt_one_iff.mp hlt)) (Nat.le_of_not_lt hn)
      exact ⟨_, List.mem_concat_self, hi ▸ rfl, hs⟩
  case refine_2 =>
    rcases List.mem_append.mp hr with hr | hr
    case inl =>
      obtain ⟨_, _, hc⟩ := h.made r hr i hi
      exact ⟨_, _, hlt hc⟩
    case inr =>
      cases List.mem_singleton.mp hr
      cases hi
      exact ⟨schedule, .created, List.getElem?_concat_length⟩
  case refine_3 =>
    rw [List.dropLast_concat]
    intro r hr i c hi hc
    obtain ⟨_, _, hc'⟩ := h.made r hr i hi
    cases Option.some.inj (hc.symm.trans (hlt hc'))
    exact ho r hr i _ hi hc'
  case refine_4 =>
    rintro ⟨i, hi, hm⟩
    cases hi
    obtain ⟨q, hm⟩ := History.mem_callers.mp hm
    exact absurd (ha.known _ hm) (Nat.lt_irrefl _)

end Reloading

-- A daemon that was not started yet, of the configuration that is there.
structure Created (source : ConfigSource) (m : Moment) (initial : Schedule) (d : Daemon) : Prop where
  yields : source.Yields initial
  policy : ∀ config, source.load = .ok config → d.engine.policy = config.policy
  door : ∀ config, source.load = .ok config →
    ∃ door, ConfiguredDoor.connect config = .ok door ∧ d.engine.door = { door }
  state : d.engine.state = .initial initial m

theorem Reloading.works {engine engine' : Engine LiveDoor} (hc : engine.Works later engine')
    (run : Run p (.initial initial m) seen engine.state) (hp : engine.policy = p)
    (h : Reloading initial reloads seen engine.state) :
    Reloading initial reloads (seen ++ later) engine'.state ∧
      engine'.state.released = engine.state.released := by
  induction hc
  case refl => rw [List.append_nil]; exact ⟨h, rfl⟩
  case step hw he hs ih =>
    have ⟨hr, hl⟩ := ih
    have hrun := run.trans (hp ▸ hw.run.2)
    rw [Engine.state_apply hs, ← List.append_assoc]
    exact ⟨hr.step hrun.sound he hs, (released_of_step he hs).trans hl⟩
  case door ih => exact ih
  case order ih => exact ih

theorem invoke_replace (hr : d.engine.state.released = false) (schedule : Schedule) :
    d.engine.state.step d.engine.policy (.invoke (.request (.replace schedule))) =
      some (d.engine.state.calling (.request (.replace schedule) .created), []) := by
  simp [State.step, hr, calling, Invocation.call]

-- What holds of a daemon in the course of its reloads.
structure Running (d₀ : Daemon) (initial : Schedule) (reloads : List Reload) (seen : History)
    (d : Daemon) : Prop where
  run : Run d₀.engine.policy d₀.engine.state seen d.engine.state
  policy : d.engine.policy = d₀.engine.policy
  backend : d.engine.door.door.backend = d₀.engine.door.door.backend
  released : d.engine.state.released = false
  reloading : Reloading initial reloads seen d.engine.state

theorem Runs.running (hc : d₀.Created source m initial) (run : Runs d₀ reloads seen d) :
    Running d₀ initial reloads seen d := by
  induction run
  case start =>
    refine ⟨.refl, rfl, rfl, ?_, ?_⟩
    case refine_1 => rw [hc.state]; rfl
    case refine_2 =>
      rw [hc.state]
      refine ⟨fun i schedule stage h => ?_, by simp, by simp, .initial (by simp)⟩
      simp [State.initial] at h
  case work hw h =>
    have hrun := hc.state ▸ h.run
    obtain ⟨hr, hl⟩ := h.reloading.works hw hrun h.policy
    obtain ⟨hp, hrun'⟩ := hw.run
    exact ⟨h.run.trans (h.policy ▸ hrun'), hp.trans h.policy, hw.backend.trans h.backend,
      hl.trans h.released, hr⟩
  case broken ho _ h => exact { h with reloading := h.reloading.broken ho }
  case replace d _ schedule _ ho hs h =>
    have hi := invoke_replace h.released schedule
    have ht : (d.engine.invoke (.request (.replace schedule))).2.state =
        d.engine.state.calling (.request (.replace schedule) .created) := Engine.state_apply hi
    refine ⟨?_, Engine.policy_apply.trans h.policy, Engine.backend_apply.trans h.backend, ?_, ?_⟩
    case refine_1 =>
      have := h.run.step (h.policy ▸ hi)
      rwa [List.map_nil, List.append_nil, ← ht] at this
    case refine_2 => rw [ht]; exact h.released
    case refine_3 =>
      have ha := (hc.state ▸ h.run).agreed
      exact h.reloading.replace ho ha (ConfigSource.schedule_eq_ok_iff.mp hs) ht

-- Whether call `i` is anything but a reload that was not accepted.
def Counts (reloads : List Reload) (seen : History) (i : CallId) : Bool :=
  seen.callers.contains i || !reloads.any fun r => r.call = some i

-- What reloads have come to.
structure AllOrNothing (d₀ : Daemon) (initial : Schedule) (reloads : List Reload) (seen : History)
    (d : Daemon) : Prop where
  inForce : Latest initial seen reloads d.engine.state.settled.schedule
  effective : ¬d.engine.state.phase.IsAccepting →
    d.engine.state.registers = d.engine.state.settled
  -- Whoever waited for a reload knows whether it was accepted.
  told : ∀ r ∈ reloads, ∀ i result, r.call = some i → d.engine.result? i = some result →
    (result = .ok () ↔ r.AcceptedIn seen)
  broken : ∀ source cause, source.schedule = .error cause → (d.reload source).1 = d
  -- All that is seen, what is remembered and when the loop wakes up next is as if the reloads that were not
  -- accepted had been given up at once.
  unaccepted : ∃ t, RunWhere (Event.Keeps (Counts reloads seen)) d₀.engine.policy
    d₀.engine.state seen t ∧ t.moment = d.engine.state.moment ∧
      t.settled = d.engine.state.settled ∧ t.phase.nextWake? = d.engine.state.phase.nextWake?
  policy : d.engine.policy = d₀.engine.policy
  backend : d.engine.door.door.backend = d₀.engine.door.door.backend
  -- What the daemon does goes on like that.
  reload : (∀ r ∈ reloads, r.IsOver d.engine.state) → ∀ source, ∃ call later,
    Runs d₀ (reloads ++ [⟨source, call⟩]) (seen ++ later) (d.reload source).1
  catchUp : ∀ m, ∃ later, Runs d₀ reloads (seen ++ later) (d.catchUp m)

-- What the engine does is the work of the daemon.
theorem Runs.leadsTo {engine : Engine LiveDoor} (run : Runs d₀ reloads seen d)
    (h : d.engine.LeadsTo engine) : ∃ later, Runs d₀ reloads (seen ++ later) ⟨engine⟩ :=
  have ⟨later, hw⟩ := h
  ⟨later, run.work hw⟩

-- A daemon that has started is one that runs.
theorem exists_runs_of_start {lines : List LogLine} (h : Daemon.start source m = .ok (d, lines)) :
    ∃ d₀ initial seen, Created source m initial d₀ ∧ Runs d₀ [] seen d := by
  obtain ⟨config, hl, h⟩ := Except.bind_eq_ok.mp h
  obtain ⟨schedule, hs, h⟩ := Except.bind_eq_ok.mp h
  obtain ⟨door, hd, h⟩ := Except.bind_eq_ok.mp h
  rw [Except.mapError_eq_ok] at hl hs hd
  obtain ⟨rfl, -⟩ := Prod.mk.inj (Except.ok.inj h)
  let engine : Engine LiveDoor :=
    { policy := config.policy, state := .initial schedule m, door := { door } }
  have hy : source.Yields schedule := by
    rw [← ConfigSource.schedule_eq_ok_iff]
    exact Except.bind_eq_ok.mpr ⟨config, hl, hs⟩
  have hcall : engine.LeadsTo (engine.call .start).2 :=
    (Engine.leadsTo_apply (by trivial)).trans (Engine.leadsTo_call .start)
  obtain ⟨seen, hr⟩ := Runs.start.leadsTo (hcall.trans (Engine.leadsTo_settle none))
  refine ⟨⟨engine⟩, schedule, seen, ⟨hy, fun _ hc => ?_, fun _ hc => ?_, rfl⟩, hr⟩
  case refine_1 => cases hl.symm.trans hc; rfl
  case refine_2 => cases hl.symm.trans hc; exact ⟨door, hd, rfl⟩

theorem Reload.isOver_of_all {r : Reload} (h : s.calls.all (·.isOver)) : r.IsOver s :=
  fun _ c _ hc => List.all_eq_true.mp h c (List.mem_of_getElem? hc)

-- A daemon without a file, that is told of another place, and told once more when its scheduler has
-- stopped.
def abroad (zone : String) : ConfigSource where
  file := .missing
  environment := [("PORTIER_TIMEZONE", zone)]

end Daemon

end EntryDoor
