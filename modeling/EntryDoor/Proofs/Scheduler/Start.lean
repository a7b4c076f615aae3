import EntryDoor.Proofs.Scheduler.Stop

namespace EntryDoor.Scheduler

open State

variable {p : Policy} {s t : State} {o : Outcome} {e : Event} {seen later : History} {i j : CallId}

namespace StartStage

-- This call has got the loop.
@[simp] def HasClaimed : StartStage → Prop
  | claimed => True
  | spawned => True
  | finished (.ok _) => True
  | _ => False

-- The steps that it has still to make, at most.
@[simp] def stepsLeft : StartStage → Nat
  | created => 4
  | checked => 3
  | claimed => 2
  | spawned => 1
  | finished _ => 0

end StartStage

-- Call `i` is the start that has got the loop.
def State.Starter (s : State) (i : CallId) : Prop :=
  ∃ stage, s.calls[i]? = some (.start stage) ∧ stage.HasClaimed

theorem starter_of_set {c : Call} (ht : t.calls = s.calls.set j c)
    (hc : ∀ stage, c = .start stage → stage.HasClaimed → s.Starter j) (h : t.Starter i) :
    s.Starter i := by
  have ⟨stage, hi, hs⟩ := h
  rcases eq_or_calls_of_set ht hi with ⟨rfl, rfl⟩ | hi
  case inl => exact hc stage rfl hs
  case inr => exact ⟨stage, hi, hs⟩

theorem LoopCalls.starter {accepted : List (CallId × Request)} (h : LoopCalls s t accepted)
    (hi : t.Starter i) : s.Starter i := by
  cases h
  case same ht => unfold Starter at *; rwa [ht] at hi
  case reply ht => exact starter_of_set ht nofun hi
  case accept ht => exact starter_of_set ht nofun hi

-- A step makes a start the one that gets the loop only while the loop is to be had.
theorem Step.starter (h : Step p s o) :
    (∀ i, o.1.Starter i → s.Starter i) ∧ (o.1.unclaimed = true → s.unclaimed = true) ∨
    ∃ i, s.unclaimed = true ∧ o.1.unclaimed = false ∧ ∀ j, o.1.Starter j → j = i ∨ s.Starter j := by
  cases h
  case pass | release => exact .inl ⟨fun _ h => h, id⟩
  case invoke what =>
    refine .inl ⟨fun i ⟨stage, hi, hs⟩ => ⟨stage, ?_, hs⟩, id⟩
    rw [List.getElem?_append] at hi
    split at hi
    case isTrue => exact hi
    case isFalse =>
      have hw := List.mem_singleton.mp (List.mem_of_getElem? hi)
      cases what <;> cases hw
      exact absurd hs id
  case request h =>
    have ⟨_, _, hc⟩ := calls_of_requestStep h
    have hu := (sparesLoop_of_requestStep h).unclaimed
    exact .inl ⟨fun _ => starter_of_set hc nofun, fun h => hu ▸ h⟩
  case stop h =>
    have ⟨_, hc⟩ := calls_of_stopStep h
    have hu := (sparesLoop_of_stopStep h).unclaimed
    exact .inl ⟨fun _ => starter_of_set hc nofun, fun h => hu ▸ h⟩
  case dropStop => exact .inl ⟨fun _ => starter_of_set rfl nofun, id⟩
  case turnAway => exact .inl ⟨fun _ => starter_of_set rfl (by rintro _ ⟨⟩ ⟨⟩), id⟩
  case check => exact .inl ⟨fun _ => starter_of_set rfl (by rintro _ ⟨⟩ ⟨⟩), id⟩
  case claimLate => exact .inl ⟨fun _ => starter_of_set rfl (by rintro _ ⟨⟩ ⟨⟩), nofun⟩
  case claim i hc hu =>
    refine .inr ⟨i, hu, rfl, fun j ⟨stage, hj, hs⟩ => ?_⟩
    rcases eq_or_calls_of_set (d := .start .claimed) rfl hj with ⟨hij, -⟩ | hj
    case inl => exact .inl hij.symm
    case inr => exact .inr ⟨stage, hj, hs⟩
  case spawn hc => exact .inl ⟨fun _ => starter_of_set rfl fun _ _ _ => ⟨_, hc, trivial⟩, id⟩
  case started hc => exact .inl ⟨fun _ => starter_of_set rfl fun _ _ _ => ⟨_, hc, trivial⟩, id⟩
  case loop h => exact .inl ⟨fun _ => h.calls.starter, fun hu => h.unclaimed ▸ hu⟩

-- The loop is spawned by a step of the start that has got it, and does not go back there.
theorem LoopStep.begun (h : LoopStep p s o) : o.1.phase ≠ .dormant ∧ o.1.phase ≠ .spawned := by
  cases h
  case accept r _ _ _ => cases r <;> simp [carryOut, command]
  case evaluate => rcases s.evaluate_phase (p := p) with h | ⟨_, h⟩ <;> simp [h]
  case answer | timeOut =>
    simp only [State.answered, afterCommand]
    split <;> simp
  all_goals simp [command]

theorem Step.phase (h : Step p s o) : o.1.phase = s.phase ∨
    (∃ i, s.Claims i ∧ o.1.phase = .spawned ∧ o.1.Starter i) ∨
    s.phase ≠ .dormant ∧ o.1.phase ≠ .dormant ∧ o.1.phase ≠ .spawned := by
  cases h
  case request h => exact .inl (sparesLoop_of_requestStep h).phase
  case stop h => exact .inl (sparesLoop_of_stopStep h).phase
  case spawn i hc =>
    have hlt := (List.getElem?_eq_some_iff.mp hc).1
    exact .inr (.inl ⟨i, hc, rfl, .spawned, List.getElem?_set_self hlt, trivial⟩)
  case loop h => exact .inr (.inr ⟨h.awake, h.begun⟩)
  all_goals exact .inl rfl

structure SoleStarter (s : State) : Prop where
  fresh : s.unclaimed = true → ∀ i, ¬s.Starter i
  sole : ∀ i j, s.Starter i → s.Starter j → i = j

theorem SoleStarter.step (hs : SoleStarter s) (h : Step p s o) : SoleStarter o.1 := by
  obtain ⟨hi, hu⟩ | ⟨i, hu, hn, hi⟩ := h.starter
  case inl =>
    exact ⟨fun ho j hj => hs.fresh (hu ho) j (hi j hj), fun j k hj hk =>
      hs.sole j k (hi j hj) (hi k hk)⟩
  case inr =>
    have hi j (hj : o.1.Starter j) : j = i := (hi j hj).resolve_right (hs.fresh hu j)
    exact ⟨fun ho => absurd (hn.symm.trans ho) nofun, fun j k hj hk =>
      (hi j hj).trans (hi k hk).symm⟩

theorem Run.soleStarter {schedule : Schedule} {m : Moment}
    (run : Run p (.initial schedule m) seen s) : SoleStarter s := by
  refine run.preserves (fun hs h => hs.step (Step.of_step h)) ⟨fun _ _ h => ?_, fun _ _ h => ?_⟩
  all_goals
    have ⟨_, h, _⟩ := h
    simp [State.initial] at h

theorem Run.begun (run : Run p s later t) (hs : Sound s) (hd : s.phase ≠ .dormant)
    (hn : s.phase ≠ .spawned) : t.phase ≠ .dormant ∧ t.phase ≠ .spawned := by
  have h : Sound t ∧ t.phase ≠ .dormant ∧ t.phase ≠ .spawned := by
    refine run.preserves (I := fun t => Sound t ∧ t.phase ≠ .dormant ∧ t.phase ≠ .spawned)
      (fun {t u e now} ⟨ht, hd, hn⟩ h => ?_) ⟨hs, hd, hn⟩
    have h := Step.of_step h
    refine ⟨ht.step h, ?_⟩
    rcases h.phase with hp | ⟨i, hi, -⟩ | ⟨-, hu⟩
    case inl => exact hp ▸ ⟨hd, hn⟩
    case inr.inl => exact absurd (ht.claimed i hi) hd
    case inr.inr => exact hu
  exact h.2

theorem exists_step_of_start {stage : StartStage} (hi : s.calls[i]? = some (.start stage))
    (ho : (Call.start stage).isOver = false) :
    ∃ t stage', s.callStep p i .advance = some t ∧ t.calls[i]? = some (.start stage') ∧
      stage'.stepsLeft < stage.stepsLeft := by
  have hlt := (List.getElem?_eq_some_iff.mp hi).1
  have hstep : s.callStep p i .advance = s.startStep i stage := by simp [callStep, hi]
  rw [hstep]
  cases stage
  case finished => cases ho
  case created =>
    refine ⟨_, _, rfl, List.getElem?_set_self hlt, ?_⟩
    split <;> simp
  case checked =>
    refine ⟨_, _, rfl, List.getElem?_set_self hlt, ?_⟩
    split <;> simp
  all_goals exact ⟨_, _, rfl, List.getElem?_set_self hlt, by simp⟩

-- What a call is made for, whatever is asked.
inductive Call.Kind
  | request
  | start
  | stop
deriving DecidableEq

open Call (Kind)

-- What a start comes to after the calls `before`.
def startResult (before : List Kind) : Except SchedulerError Unit :=
  if .stop ∈ before then .error .stopped
  else if .start ∈ before then .error .alreadyStarted
  else .ok ()

theorem startResult_eq_stopped_iff {before : List Kind} :
    startResult before = .error .stopped ↔ .stop ∈ before := by
  fun_cases startResult before <;> simp [*]

theorem startResult_eq_alreadyStarted_iff {before : List Kind} :
    startResult before = .error .alreadyStarted ↔ .stop ∉ before ∧ .start ∈ before := by
  fun_cases startResult before <;> simp [*]

theorem startResult_eq_ok_iff {before : List Kind} :
    startResult before = .ok () ↔ .stop ∉ before ∧ .start ∉ before := by
  fun_cases startResult before <;> simp [*]

-- What it is documented to come to: the first of them decides, a stop after a start does not.
def documentedResult (before : List Kind) : Except SchedulerError Unit :=
  match before.find? (· ≠ .request) with
  | some .start => .error .alreadyStarted
  | some .stop => .error .stopped
  | _ => .ok ()

-- The two differ if a stop comes after a start.
theorem startResult_eq_documented_iff {before : List Kind} :
    startResult before = documentedResult before ↔
      ¬(before.find? (· ≠ .request) = some .start ∧ .stop ∈ before) := by
  unfold startResult documentedResult
  cases h : before.find? (· ≠ .request) with
  | none =>
    have h := List.find?_eq_none.mp h
    have hn (k : Kind) (hk : k ≠ .request) : k ∉ before := fun hm => h k hm (by simpa using hk)
    simp [hn .stop nofun, hn .start nofun]
  | some k =>
    have hk := List.find?_some h
    have hm := List.mem_of_find?_eq_some h
    cases k
    case request => cases hk
    case start => by_cases hs : Kind.stop ∈ before <;> simp [hs, hm]
    case stop => simp [hm]

-- What a call is to those that start or stop the scheduler.
inductive Mark
  | request
  | stop (begun : Bool)
  | start (stage : StartStage)

namespace Mark

def kind : Mark → Kind
  | request => .request
  | stop _ => .stop
  | start _ => .start

-- Whether others may be made: a start does not wait for anything, and a stop may go on waiting.
@[simp] def Settled : Mark → Prop
  | stop begun => begun = true
  | start (.finished _) => True
  | start _ => False
  | request => True

@[simp] def HasStopped : Mark → Prop
  | stop begun => begun = true
  | _ => False

-- Whether it has looked if the loop is still to be had.
@[simp] def HasLooked : Mark → Prop
  | start stage => match stage with
    | .created => False
    | .checked => False
    | .finished result => result ≠ .error .stopped
    | _ => True
  | _ => False

end Mark

namespace Call

def mark : Call → Mark
  | request .. => .request
  | stop stage => .stop (stage ≠ .created)
  | start stage => .start stage

def kind (c : Call) : Kind :=
  c.mark.kind

end Call

instance : DecidablePred Mark.Settled
  | .stop _ => inferInstanceAs (Decidable (_ = _))
  | .start (.finished _) => .isTrue trivial
  | .start .created => .isFalse id
  | .start .checked => .isFalse id
  | .start .claimed => .isFalse id
  | .start .spawned => .isFalse id
  | .request => .isTrue trivial

-- Starts and stops are made one after another. A stop that is dropped before it has begun is none.
def Event.InTurn (s : State) : Event → Prop
  | .invoke (.request _) => True
  | .invoke _ => ∀ c ∈ s.calls, c.mark.Settled
  | .call i .drop => s.stopStage? i ≠ some .created
  | _ => True

instance (s : State) : DecidablePred (Event.InTurn s) := fun e => by
  unfold Event.InTurn
  split <;> infer_instance

-- What starts and stops know of each other.
structure Ledger where
  marks : List Mark
  stopping : Bool
  unclaimed : Bool

namespace Ledger

variable {l l' : Ledger} {m m' : Mark} {stage : StartStage}

-- The calls made before call `i`.
def before (l : Ledger) (i : CallId) : List Kind :=
  (l.marks.take i).map Mark.kind

inductive Step (l : Ledger) : Ledger → Prop
  | same : Step l l
  | invoke (what : Invocation)
      (h : what.call.kind = .request ∨ ∀ m ∈ l.marks, m.Settled) :
      Step l { l with marks := l.marks ++ [what.call.mark] }
  | stop (i : CallId) (h : l.marks[i]? = some (.stop false)) :
      Step l { l with marks := l.marks.set i (.stop true), stopping := true }
  | turnAway (i : CallId) (h : l.marks[i]? = some (.start .created)) (hs : l.stopping = true) :
      Step l { l with marks := l.marks.set i (.start (.finished (.error .stopped))) }
  | check (i : CallId) (h : l.marks[i]? = some (.start .created)) (hs : l.stopping = false) :
      Step l { l with marks := l.marks.set i (.start .checked) }
  | claim (i : CallId) (h : l.marks[i]? = some (.start .checked)) (hu : l.unclaimed = true) :
      Step l { l with marks := l.marks.set i (.start .claimed), unclaimed := false }
  | claimLate (i : CallId) (h : l.marks[i]? = some (.start .checked)) (hu : l.unclaimed = false) :
      Step l { l with
        marks := l.marks.set i (.start (.finished (.error .alreadyStarted)))
        unclaimed := false }
  | spawn (i : CallId) (h : l.marks[i]? = some (.start .claimed)) :
      Step l { l with marks := l.marks.set i (.start .spawned) }
  | started (i : CallId) (h : l.marks[i]? = some (.start .spawned)) :
      Step l { l with marks := l.marks.set i (.start (.finished (.ok ()))) }

theorem Step.of_eq (h : l' = l) : l.Step l' :=
  h ▸ .same

end Ledger

-- What a start knows of the calls before it.
@[simp] def StartStage.Fits (before : List Kind) : StartStage → Prop
  | created => True
  | checked => .stop ∉ before
  | claimed => startResult before = .ok ()
  | spawned => startResult before = .ok ()
  | finished result => result = startResult before

namespace Ledger

variable {l l' : Ledger} {m m' : Mark} {stage : StartStage} {stopping unclaimed : Bool}

structure Orderly (l : Ledger) : Prop where
  -- Only the last of the starts and stops is still to be settled.
  turn : ∀ (i j : CallId) (m m' : Mark), l.marks[i]? = some m → l.marks[j]? = some m' → i < j →
    m'.kind ≠ .request → m.Settled
  stopping : l.stopping = true ↔ ∃ m ∈ l.marks, m.HasStopped
  claimed : l.unclaimed = false ↔ ∃ m ∈ l.marks, m.HasLooked
  fits : ∀ (i : CallId) stage, l.marks[i]? = some (.start stage) → stage.Fits (l.before i)

theorem exists_mem_set {α : Type} {P : α → Prop} {l : List α} {i : Nat} {a b : α}
    (hi : l[i]? = some a) (h : P a → P b) : (∃ x ∈ l.set i b, P x) ↔ P b ∨ ∃ x ∈ l, P x := by
  have hlt := (List.getElem?_eq_some_iff.mp hi).1
  constructor
  case mp =>
    rintro ⟨x, hx, hp⟩
    rcases List.mem_or_eq_of_mem_set hx with hx | rfl
    case inl => exact .inr ⟨x, hx, hp⟩
    case inr => exact .inl hp
  case mpr =>
    rintro (hb | ⟨x, hx, hp⟩)
    case inl => exact ⟨b, List.mem_set hlt b, hb⟩
    case inr =>
      obtain ⟨j, hj⟩ := List.mem_iff_getElem?.mp hx
      by_cases hij : i = j
      case pos =>
        cases hij
        cases Option.some.inj (hi.symm.trans hj)
        exact ⟨b, List.mem_set hlt b, h hp⟩
      case neg =>
        have hj := (List.getElem?_set_ne (a := b) hij).trans hj
        exact ⟨x, List.mem_of_getElem? hj, hp⟩

theorem exists_mem_concat {α : Type} {P : α → Prop} {l : List α} {a : α} (h : ¬P a) :
    (∃ x ∈ l ++ [a], P x) ↔ ∃ x ∈ l, P x := by
  simp [or_and_right, exists_or, h]

theorem map_set_of_eq {α β : Type} {f : α → β} {l : List α} {i : Nat} {a b : α}
    (hi : l[i]? = some a) (h : f b = f a) : (l.set i b).map f = l.map f := by
  obtain ⟨hlt, rfl⟩ := List.getElem?_eq_some_iff.mp hi
  rw [List.map_set, h, ← List.getElem_map f (h := by simpa using hlt), List.set_getElem_self]

-- A mark that replaces one of its kind changes nothing for the calls after it.
theorem before_set (hi : l.marks[i]? = some m) (hk : m'.kind = m.kind) (j : CallId) :
    before ⟨l.marks.set i m', stopping, unclaimed⟩ j = l.before j := by
  simp only [before, List.map_take, map_set_of_eq hi hk]

namespace Orderly

variable (h : l.Orderly)

include h

-- A call goes on, and the two flags with it.
theorem set (hi : l.marks[i]? = some m) (hk : m'.kind = m.kind) (hm : m.Settled → m'.Settled)
    (hs : stopping = true ↔ m'.HasStopped ∨ l.stopping = true) (hs' : m.HasStopped → m'.HasStopped)
    (hu : unclaimed = false ↔ m'.HasLooked ∨ l.unclaimed = false)
    (hu' : m.HasLooked → m'.HasLooked)
    (hf : ∀ stage, m' = .start stage → stage.Fits (l.before i)) :
    Orderly ⟨l.marks.set i m', stopping, unclaimed⟩ where
  turn j k a b hj hk' hjk hb := by
    have hb' : ∃ b', l.marks[k]? = some b' ∧ b'.kind = b.kind := by
      dsimp only at hk'
      rw [List.getElem?_set] at hk'
      split at hk'
      case isTrue hik =>
        cases hik
        split at hk' <;> cases hk'
        exact ⟨m, hi, hk.symm⟩
      case isFalse => exact ⟨b, hk', rfl⟩
    obtain ⟨b', hb', hkb⟩ := hb'
    dsimp only at hj
    rw [List.getElem?_set] at hj
    split at hj
    case isTrue hij =>
      cases hij
      split at hj <;> cases hj
      exact hm (h.turn i k m b' hi hb' hjk (hkb ▸ hb))
    case isFalse => exact h.turn j k a b' hj hb' hjk (hkb ▸ hb)
  stopping := by rw [exists_mem_set hi hs', ← h.stopping, hs]
  claimed := by rw [exists_mem_set hi hu', ← h.claimed, hu]
  fits j stage hj := by
    rw [before_set hi hk]
    dsimp only at hj
    rw [List.getElem?_set] at hj
    split at hj
    case isTrue hij =>
      cases hij
      split at hj <;> cases hj
      exact hf stage rfl
    case isFalse => exact h.fits j stage hj

theorem invoke (what : Invocation) (hm : what.call.kind = .request ∨ ∀ m ∈ l.marks, m.Settled) :
    Orderly { l with marks := l.marks ++ [what.call.mark] } where
  turn i j a b hi hj hij hb := by
    dsimp only at hi hj
    have hlt := (List.getElem?_eq_some_iff.mp hj).1
    rw [List.length_append, List.length_singleton] at hlt
    rw [List.getElem?_append_left (Nat.lt_of_lt_of_le hij (Nat.le_of_lt_succ hlt))] at hi
    rw [List.getElem?_append] at hj
    split at hj
    case isTrue => exact h.turn i j a b hi hj hij hb
    case isFalse =>
      cases List.mem_singleton.mp (List.mem_of_getElem? hj)
      exact hm.resolve_left hb a (List.mem_of_getElem? hi)
  stopping := by rw [exists_mem_concat (by cases what <;> nofun), h.stopping]
  claimed := by rw [exists_mem_concat (by cases what <;> exact id), h.claimed]
  fits i stage hi := by
    dsimp only at hi
    rw [List.getElem?_append] at hi
    split at hi
    case isTrue hlt =>
      have := h.fits i stage hi
      rwa [before, List.take_append_of_le_length (Nat.le_of_lt hlt)]
    case isFalse =>
      have hw := List.mem_singleton.mp (List.mem_of_getElem? hi)
      cases what <;> cases hw
      trivial

section

variable (hi : l.marks[i]? = some m)

include hi

-- Nothing but requests is made after a call that is still to be settled.
theorem mem_take (hm : ¬m.Settled) (hm' : m' ∈ l.marks) (hk : m'.kind ≠ .request) (hne : m' ≠ m) :
    m' ∈ l.marks.take i := by
  obtain ⟨j, hj⟩ := List.mem_iff_getElem?.mp hm'
  rcases Nat.lt_trichotomy j i with hlt | rfl | hlt
  case inl => exact List.mem_of_getElem? ((List.getElem?_take_of_lt hlt).trans hj)
  case inr.inl => exact absurd (Option.some.inj (hj.symm.trans hi)) hne
  case inr.inr => exact absurd (h.turn i j m m' hi hj hlt hk) hm

-- All that was made before it is settled.
theorem settled_of_mem_take (hk : m.kind ≠ .request) (hm' : m' ∈ l.marks.take i) : m'.Settled := by
  obtain ⟨j, hj⟩ := List.mem_iff_getElem?.mp hm'
  rw [List.getElem?_take] at hj
  split at hj
  case isTrue hlt => exact h.turn j i m' m hj hi hlt hk
  case isFalse => cases hj

end

variable (hi : l.marks[i]? = some (.start stage))

include hi

theorem stop_mem_before_iff (hn : ¬(Mark.start stage).Settled) :
    .stop ∈ l.before i ↔ l.stopping = true := by
  rw [h.stopping]
  constructor
  case mp =>
    intro hb
    obtain ⟨m, hm, hk⟩ := List.mem_map.mp hb
    have hs := h.settled_of_mem_take hi nofun hm
    cases m <;> cases hk
    exact ⟨_, List.mem_of_mem_take hm, hs⟩
  case mpr =>
    rintro ⟨m, hm, hs⟩
    cases m
    case stop => exact List.mem_map.mpr ⟨_, h.mem_take hi hn hm nofun nofun, rfl⟩
    all_goals exact absurd hs id

omit hi in
-- Before a start that was not turned away none was, so each one there was has looked.
theorem start_mem_before_iff (hi : l.marks[i]? = some (.start .checked)) :
    .start ∈ l.before i ↔ l.unclaimed = false := by
  have hn : ¬(Mark.start .checked).Settled := id
  rw [h.claimed]
  constructor
  case mp =>
    intro hb
    obtain ⟨m, hm, hk⟩ := List.mem_map.mp hb
    have hs := h.settled_of_mem_take hi nofun hm
    cases m <;> cases hk
    case start stage =>
      refine ⟨_, List.mem_of_mem_take hm, ?_⟩
      cases stage
      case finished result =>
        rintro rfl
        obtain ⟨j, hj⟩ := List.mem_iff_getElem?.mp hm
        rw [List.getElem?_take] at hj
        split at hj
        case isFalse => cases hj
        case isTrue hlt =>
          have hf : Except.error .stopped = startResult (l.before j) := h.fits j _ hj
          have hb : l.before j ⊆ l.before i :=
            List.map_subset _ (List.take_subset_take_left _ (Nat.le_of_lt hlt))
          exact h.fits i _ hi (hb (startResult_eq_stopped_iff.mp hf.symm))
      all_goals exact absurd hs id
  case mpr =>
    rintro ⟨m, hm, hs⟩
    cases m
    case start stage' =>
      have hne : stage' ≠ .checked := by rintro rfl; exact hs
      exact List.mem_map.mpr ⟨_, h.mem_take hi hn hm nofun (fun h => hne (Mark.start.inj h)), rfl⟩
    all_goals exact absurd hs id

omit hi h in
-- Each answer is the right one at the time it is given.
theorem step (h : l.Orderly) (hs : l.Step l') : l'.Orderly := by
  cases hs
  case same => exact h
  case invoke what hm => exact h.invoke what hm
  case stop i hi => exact h.set hi rfl (fun _ => rfl) (by simp) nofun (by simp) id nofun
  case turnAway i hi hs =>
    have hb := (h.stop_mem_before_iff hi id).mpr hs
    refine h.set hi rfl (fun _ => trivial) (by simp) id (by simp) nofun ?_
    rintro _ ⟨⟩
    exact (startResult_eq_stopped_iff.mpr hb).symm
  case check i hi hs =>
    have hb : .stop ∉ l.before i := by simp [h.stop_mem_before_iff hi id, hs]
    refine h.set hi rfl id (by simp) id (by simp) id ?_
    rintro _ ⟨⟩
    exact hb
  case claim i hi hu =>
    have hb : .start ∉ l.before i := by simp [h.start_mem_before_iff hi, hu]
    refine h.set hi rfl id (by simp) id (by simp) (fun _ => trivial) ?_
    rintro _ ⟨⟩
    exact startResult_eq_ok_iff.mpr ⟨h.fits i _ hi, hb⟩
  case claimLate i hi hu =>
    have hb := (h.start_mem_before_iff hi).mpr hu
    refine h.set hi rfl nofun (by simp) id (by simp [hu]) nofun ?_
    rintro _ ⟨⟩
    exact (startResult_eq_alreadyStarted_iff.mpr ⟨h.fits i _ hi, hb⟩).symm
  case spawn i hi =>
    have hu := h.claimed.mpr ⟨_, List.mem_of_getElem? hi, trivial⟩
    refine h.set hi rfl id (by simp) id (by simp [hu]) (fun _ => trivial) ?_
    rintro _ ⟨⟩
    exact h.fits i .claimed hi
  case started i hi =>
    have hu := h.claimed.mpr ⟨_, List.mem_of_getElem? hi, trivial⟩
    refine h.set hi rfl (fun _ => trivial) (by simp) id (by simp [hu]) (fun _ => nofun) ?_
    rintro _ ⟨⟩
    exact Eq.symm (h.fits i .spawned hi)

end Orderly

end Ledger

def State.ledger (s : State) : Ledger where
  marks := s.calls.map Call.mark
  stopping := s.stopping
  unclaimed := s.unclaimed

-- Nothing happens between starts and stops if a call goes on as what it was.
theorem ledger_of_set {c c' : Call} (hc : s.calls[i]? = some c) (ht : t.calls = s.calls.set i c')
    (h : c'.mark = c.mark) (hs : t.stopping = s.stopping) (hu : t.unclaimed = s.unclaimed) :
    t.ledger = s.ledger := by
  simp only [ledger, ht, Ledger.map_set_of_eq hc h, hs, hu]

theorem LoopStep.ledger (h : LoopStep p s o) : o.1.ledger = s.ledger := by
  have hc := h.calls
  generalize o.2.filterMap (·.acceptance?) = accepted at hc
  cases hc
  case same ht => simp only [State.ledger, ht, h.stopping, h.unclaimed]
  case reply hc ht => exact ledger_of_set hc ht rfl h.stopping h.unclaimed
  case accept hc ht => exact ledger_of_set hc ht rfl h.stopping h.unclaimed

theorem ledger_of_startStep {stage : StartStage} (hc : s.calls[i]? = some (.start stage))
    (h : s.startStep i stage = some t) : s.ledger.Step t.ledger := by
  have hi : s.ledger.marks[i]? = some (.start stage) := by simp [ledger, hc, Call.mark]
  cases stage <;> simp only [startStep, reduceCtorEq] at h <;> cases h
  all_goals simp only [ledger, List.map_set]
  case created =>
    by_cases hs : s.stopping
    case pos => rw [if_pos hs]; exact .turnAway i hi hs
    case neg => rw [if_neg hs]; exact .check i hi (by simpa [ledger] using hs)
  case checked =>
    by_cases hu : s.unclaimed
    case pos => rw [if_pos hu]; exact .claim i hi hu
    case neg => rw [if_neg hu]; exact .claimLate i hi (by simpa [ledger] using hu)
  case claimed => exact .spawn i hi
  case spawned => exact .started i hi

theorem ledger_of_stopStep {stage : StopStage} (hc : s.calls[i]? = some (.stop stage))
    (h : s.stopStep i stage = some t) : s.ledger.Step t.ledger := by
  cases stage <;> simp only [stopStep, Option.ite_none_right_eq_some, reduceCtorEq] at h
  case created =>
    cases h
    simp only [ledger, List.map_set]
    exact .stop i (by simp [hc, Call.mark])
  case flagged | unjoined =>
    cases h
    refine .of_eq (ledger_of_set hc rfl ?_ rfl rfl)
    split <;> rfl
  case joining | awaitingExit =>
    obtain ⟨-, h⟩ := h
    cases h
    exact .of_eq (ledger_of_set hc rfl rfl rfl rfl)

theorem ledger_of_step (ha : e.InTurn s) (h : s.step p e = some o) : s.ledger.Step o.1.ledger := by
  cases e
  case pass | release => cases h; exact .same
  case invoke what =>
    simp only [State.step] at h
    split at h <;> cases h
    simp only [ledger, List.map_append, List.map_singleton]
    cases what
    case request r => exact .invoke (.request r) (.inl rfl)
    case start => exact .invoke .start (.inr (List.forall_mem_map.mpr ha))
    case stop => exact .invoke .stop (.inr (List.forall_mem_map.mpr ha))
  case call i ce =>
    simp only [State.step] at h
    obtain ⟨t, hm, rfl⟩ := Option.map_eq_some_iff.mp h
    obtain ⟨c, hc, h⟩ := Option.bind_eq_some_iff.mp hm
    split at h
    case h_1 =>
      obtain ⟨_, _, ht⟩ := calls_of_requestStep h
      have hu := (sparesLoop_of_requestStep h).unclaimed
      exact .of_eq (ledger_of_set hc ht rfl (stopping_of_requestStep h) hu)
    case h_2 => exact ledger_of_startStep hc h
    case h_3 => exact ledger_of_stopStep hc h
    case h_4 stage _ =>
      have hn : stage ≠ .created := by
        rintro rfl
        exact ha (by simp [stopStage?, hc])
      split at h <;> cases h
      exact .of_eq (ledger_of_set hc rfl (by simp [Call.mark, hn]) rfl rfl)
    case h_5 => cases h
  case loop => exact .of_eq (LoopStep.of_loopStep h).ledger

theorem RunWhere.orderly {schedule : Schedule} {m : Moment}
    (run : RunWhere Event.InTurn p (.initial schedule m) seen s) : s.ledger.Orderly := by
  induction run
  case refl =>
    refine ⟨?_, ?_, ?_, ?_⟩
    all_goals simp [ledger, State.initial]
  case step ha h ih => exact ih.step (ledger_of_step ha h)

-- What starts and stops come to.
structure StartsOnce (p : Policy) (schedule : Schedule) (m : Moment) (seen : History) (s : State) :
    Prop where
  sole : ∀ i j, s.Starter i → s.Starter j → i = j
  -- Only that start spawns the loop, and never again.
  spawns : ∀ e t now, s.step p e = some (t, now) → t.phase = .spawned →
    s.phase = .spawned ∨ s.phase = .dormant ∧ ∃ i, t.Starter i
  once : s.phase ≠ .dormant → s.phase ≠ .spawned → ∀ later t, Run p s later t →
    t.phase ≠ .dormant ∧ t.phase ≠ .spawned
  -- No start has to wait.
  ends : ∀ (i : CallId) stage, s.calls[i]? = some (.start stage) →
    (Call.start stage).isOver = false → ∃ t stage', s.callStep p i .advance = some t ∧
      t.calls[i]? = some (.start stage') ∧ stage'.stepsLeft < stage.stepsLeft
  result : RunWhere Event.InTurn p (.initial schedule m) seen s →
    ∀ (i : CallId) result, s.calls[i]? = some (.start (.finished result)) →
      result = startResult ((s.calls.take i).map Call.kind)
  documented : RunWhere Event.InTurn p (.initial schedule m) seen s →
    ∀ (i : CallId) result, s.calls[i]? = some (.start (.finished result)) →
      (result = documentedResult ((s.calls.take i).map Call.kind) ↔
        ¬(((s.calls.take i).map Call.kind).find? (· ≠ .request) = some .start ∧
          .stop ∈ (s.calls.take i).map Call.kind))

theorem RunWhere.result_eq {schedule : Schedule} {m : Moment} {result : Except SchedulerError Unit}
    (run : RunWhere Event.InTurn p (.initial schedule m) seen s)
    (hi : s.calls[i]? = some (.start (.finished result))) :
    result = startResult ((s.calls.take i).map Call.kind) := by
  have h := run.orderly.fits i (.finished result) (by simp [ledger, hi, Call.mark])
  rw [StartStage.Fits, Ledger.before, ledger, ← List.map_take, List.map_map] at h
  exact h

theorem Run.startsOnce {schedule : Schedule} {m : Moment}
    (run : Run p (.initial schedule m) seen s) : StartsOnce p schedule m seen s where
  sole := run.soleStarter.sole
  spawns e t now h ht := by
    rcases (Step.of_step h).phase with hp | ⟨i, hi, -, hj⟩ | ⟨-, -, hn⟩
    case inl => exact .inl (hp.symm.trans ht)
    case inr.inl => exact .inr ⟨run.sound.claimed i hi, i, hj⟩
    case inr.inr => exact absurd ht hn
  once hd hn later t hl := hl.begun run.sound hd hn
  ends i stage hi ho := exists_step_of_start hi ho
  result inTurn i result hi := inTurn.result_eq hi
  documented inTurn i result hi := by
    rw [inTurn.result_eq hi]
    exact startResult_eq_documented_iff

-- A scheduler is started twice and stopped, and then started again.
def startAgain : List Event :=
  [.invoke .start, .call 0 .advance, .call 0 .advance, .call 0 .advance, .call 0 .advance,
    .invoke .start, .call 1 .advance, .call 1 .advance, .loop .advance, .invoke .stop,
    .call 2 .advance, .loop .advance, .loop .advance, .invoke .start, .call 3 .advance]

theorem startsOnce_startAgain : ∃ seen s, StartsOnce {} closed ⟨0, .ofSeconds 0⟩ seen s ∧
    RunWhere Event.InTurn {} (.initial closed ⟨0, .ofSeconds 0⟩) seen s ∧
      (s.result? 0 matches some (.ok _)) ∧
      (s.result? 1 matches some (.error (.scheduler .alreadyStarted))) := by
  have h : ∃ x ∈ (State.initial closed ⟨0, .ofSeconds 0⟩).follow {} Event.InTurn startAgain,
      (x.2.result? 0 matches some (.ok _)) ∧
        (x.2.result? 1 matches some (.error (.scheduler .alreadyStarted))) := by
    decide +kernel
  have ⟨x, hx, h⟩ := h
  have run := RunWhere.of_follow hx
  exact ⟨x.1, x.2, run.run.startsOnce, run, h⟩

-- The last of these starts is told that the scheduler was stopped before it ever ran.
theorem not_documented_startAgain : ∃ seen s,
    RunWhere Event.InTurn {} (.initial closed ⟨0, .ofSeconds 0⟩) seen s ∧
      (s.result? 0 matches some (.ok _)) ∧
      (s.result? 3 matches some (.error (.scheduler .stopped))) ∧
      (documentedResult ((s.calls.take 3).map Call.kind) matches .error .alreadyStarted) := by
  have h : ∃ x ∈ (State.initial closed ⟨0, .ofSeconds 0⟩).follow {} Event.InTurn startAgain,
      (x.2.result? 0 matches some (.ok _)) ∧
        (x.2.result? 3 matches some (.error (.scheduler .stopped))) ∧
        (documentedResult ((x.2.calls.take 3).map Call.kind) matches .error .alreadyStarted) := by
    decide +kernel
  have ⟨x, hx, h⟩ := h
  exact ⟨x.1, x.2, RunWhere.of_follow hx, h⟩

end EntryDoor.Scheduler
