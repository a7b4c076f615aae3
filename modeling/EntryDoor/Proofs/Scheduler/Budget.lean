import EntryDoor.Proofs.Scheduler.Invariants

namespace EntryDoor.Scheduler

open State

variable {p : Policy} {s t : State} {o : Outcome} {d d' : DoorState} {k : Nat}

-- Whether an occurrence restarts the budget: a request that may change the desired state was accepted,
-- or an evaluation has found another state than the one before it.
def Restarts (before : History) : Occurrence → Prop
  | .accepted _ .buzz => False
  | .accepted .. => True
  | .evaluated status => before.findings.getLast? ≠ some status.state
  | _ => False

-- What was seen since the budget was restarted, and the state that was found last.
structure Stretch where
  found : List DoorState := []
  sent : List Command := []
  last : Option DoorState := none

namespace Stretch

def after (σ : Stretch) : Occurrence → Stretch
  | .accepted _ .buzz => σ
  | .accepted .. => { last := σ.last }
  | .evaluated status =>
    if σ.last = some status.state then { σ with found := σ.found ++ [status.state] }
    else { found := [status.state], last := some status.state }
  | .called (.evaluation _) c => { σ with sent := σ.sent ++ [c] }
  | _ => σ

end Stretch

def History.stretch (seen : History) : Stretch :=
  seen.foldl (fun σ x => σ.after x.2) {}

-- The registers have a budget on `d` of which `k` evaluations have had their share.
structure Registers.Spent (p : Policy) (d : DoorState) (k : Nat) (r : Registers) : Prop where
  target : r.target = some d
  maxTries : r.maxTries = p.maxTries d
  retries : r.retries = min k (p.maxTries d)

-- The budget goes with the evaluations since its restart.
inductive Budgeted (p : Policy) (s : State) : Stretch → Prop
  | fresh {last : Option DoorState} (h : s.settled.target = none ∨ s.phase.IsResetting) :
      Budgeted p s { last }
  | spent {d : DoorState} {k : Nat} (hp : ¬s.phase.IsResetting) (h : s.settled.Spent p d k) :
      Budgeted p s ⟨.replicate k d, .replicate (min k (p.maxTries d)) d.command, some d⟩

namespace Registers

variable {r : Registers}

-- Another evaluation that finds `d` has its share of the budget, which may be nothing.
theorem Spent.next (h : r.Spent p d k) : (r.spend?.getD r).Spent p d (k + 1) := by
  have ⟨ht, hm, hr⟩ := h
  unfold spend?
  split
  case isTrue hlt =>
    refine ⟨ht, hm, ?_⟩
    simp only [Option.getD_some]
    omega
  case isFalse hlt =>
    refine ⟨ht, hm, ?_⟩
    simp only [Option.getD_none]
    omega

theorem Spent.isSome_spend? (h : r.Spent p d k) : r.spend?.isSome ↔ k < p.maxTries d := by
  have ⟨ht, hm, hr⟩ := h
  unfold spend?
  split
  case isTrue => simp only [Option.isSome_some, true_iff]; omega
  case isFalse => simp only [Option.isSome_none, Bool.false_eq_true, false_iff]; omega

theorem Spent.aim (h : r.Spent p d k) : (r.aim p d).Spent p d k := by
  rwa [Registers.aim, if_pos h.target]

theorem spent_aim (h : r.target ≠ some d) : (r.aim p d).Spent p d 0 := by
  rw [Registers.aim, if_neg h]
  exact ⟨rfl, rfl, by simp⟩

end Registers

theorem evaluate_seen
    (h : ((s.registers.clearExpired s.moment.clock).aim p s.status.state).Spent p
      s.status.state k) :
    (s.evaluate p).2 = .evaluated s.status :: if k < p.maxTries s.status.state then
      [.called (.evaluation s.status.validUntil) s.status.state.command] else [] := by
  have hi := h.isSome_spend?
  rw [evaluate_eq]
  split
  case h_1 hs =>
    rw [if_pos (hi.mp (by simp [hs]))]
  case h_2 hs =>
    rw [if_neg fun hk => by simp [hs] at hi; omega]

theorem replicate_min_succ {c : Command} {n : Nat} : List.replicate (min k n) c ++
    (if k < n then [c] else []) = List.replicate (min (k + 1) n) c := by
  split
  case isTrue h =>
    rw [Nat.min_eq_left (by omega), Nat.min_eq_left (by omega), List.replicate_succ']
  case isFalse h =>
    rw [Nat.min_eq_right (by omega), Nat.min_eq_right (by omega), List.append_nil]

-- The evaluation is one more of those that have found this state, with its share of the budget.
theorem budgeted_evaluate {σ : Stretch}
    (h : ((s.registers.clearExpired s.moment.clock).aim p s.status.state).Spent p
      s.status.state k)
    (hσ : σ.after (.evaluated s.status) = ⟨.replicate (k + 1) s.status.state,
      .replicate (min k (p.maxTries s.status.state)) s.status.state.command,
      some s.status.state⟩) :
    Budgeted p (s.evaluate p).1 ((s.evaluate p).2.foldl Stretch.after σ) := by
  have hp : ¬(s.evaluate p).1.phase.IsResetting := by
    rcases s.evaluate_phase (p := p) with h | ⟨_, h⟩ <;> simp [h]
  have hs : (s.evaluate p).1.settled.Spent p s.status.state (k + 1) := by
    rw [evaluate_settled]
    exact h.next
  have hseen : (s.evaluate p).2.foldl Stretch.after σ = ⟨.replicate (k + 1) s.status.state,
      .replicate (min (k + 1) (p.maxTries s.status.state)) s.status.state.command,
      some s.status.state⟩ := by
    rw [evaluate_seen h, List.foldl_cons, hσ, ← replicate_min_succ]
    split <;> simp [Stretch.after]
  rw [hseen]
  exact .spent hp hs

theorem Budgeted.evaluate {σ : Stretch} (h : Budgeted p s σ) (hp : s.phase = .evaluating) :
    Budgeted p (s.evaluate p).1 ((s.evaluate p).2.foldl Stretch.after σ) := by
  have hr : s.settled = s.registers := settled_of_not_accepting (by simp [hp])
  have hc : (s.registers.clearExpired s.moment.clock).target = s.registers.target := rfl
  cases h with
  -- The budget is new, whatever was found last.
  | fresh h =>
    have ht : s.registers.target = none := by simpa [hr, hp] using h
    refine budgeted_evaluate (k := 0) (Registers.spent_aim (by simp [hc, ht])) ?_
    simp only [Stretch.after]
    split <;> simp_all
  -- It is the one that is being spent, or another state is found and it is new again.
  | @spent d k _ h =>
    rw [hr] at h
    by_cases hd : d = s.status.state
    case pos =>
      subst hd
      have h' : (s.registers.clearExpired s.moment.clock).Spent p s.status.state k :=
        ⟨h.target, h.maxTries, h.retries⟩
      refine budgeted_evaluate h'.aim ?_
      simp [Stretch.after, List.replicate_succ']
    case neg =>
      refine budgeted_evaluate (k := 0) (Registers.spent_aim (by simp [hc, h.target, hd])) ?_
      simp [Stretch.after, hd]

theorem Budgeted.congr {σ : Stretch} (h : Budgeted p s σ) (hs : t.settled = s.settled)
    (hp : t.phase.IsResetting ↔ s.phase.IsResetting) : Budgeted p t σ := by
  cases h with
  | fresh h => exact .fresh (by rwa [hs, hp])
  | spent hn h => exact .spent (by rwa [hp]) (hs ▸ h)

theorem Budgeted.accept {i : CallId} {wake : Instant} {before : Registers} {r : Request}
    {σ : Stretch} (h : Budgeted p s σ) (hp : s.phase = .accepting i wake before)
    (hr : s.registers = before.install r) :
    Budgeted p ((s.setStage i r .accepted).carryOut p i wake r).1
      ((.accepted i r :: ((s.setStage i r .accepted).carryOut p i wake r).2).foldl
        Stretch.after σ) := by
  have hb := settled_of_accepting hp
  cases r
  -- A buzz leaves the budget alone, and so does a hard reset until its last command has ended.
  case buzz => exact h.congr (hr.trans hb.symm) (by simp [carryOut, command, hp])
  case reset => exact .fresh (.inr trivial)
  all_goals exact .fresh (.inl rfl)

theorem Budgeted.answered {purpose : Purpose} {c : Command} {deadline : Instant}
    {result : Except Failure Unit} {σ : Stretch} (h : Budgeted p s σ)
    (hp : s.phase = .commanding purpose c deadline) :
    Budgeted p (s.afterCommand p result purpose) σ := by
  have hr : s.settled = s.registers := settled_of_not_accepting (by simp [hp])
  cases purpose
  case evaluation => exact h.congr hr.symm (by simp [afterCommand, hp])
  case buzz => exact h.congr (reply_registers.trans hr.symm) (by simp [afterCommand, hp])
  case reset rest _ =>
    cases h with
    | fresh => cases rest <;> exact .fresh (by simp [afterCommand, settled, Registers.restart])
    | spent hn _ => simp [hp] at hn

theorem LoopStep.budgeted {σ : Stretch} (hs : Sound s) (hb : Budgeted p s σ)
    (h : LoopStep p s o) : Budgeted p o.1 (o.2.foldl Stretch.after σ) := by
  have hq := hs.settled_loop h
  cases h
  case accept hp hc => exact hb.accept hp (hs.eq_install hp hc)
  case evaluate hp => exact hb.evaluate hp
  case answer hp => exact hb.answered hp
  case timeOut hp _ => exact hb.answered hp
  case settle hp _ =>
    cases hb with
    | fresh => exact .fresh (.inr trivial)
    | spent hn _ => simp [hp] at hn
  all_goals exact hb.congr hq (by simp [*])

theorem Step.budgeted {σ : Stretch} (hs : Sound s) (hb : Budgeted p s σ) (h : Step p s o) :
    Budgeted p o.1 (o.2.foldl Stretch.after σ) := by
  have hq := hs.settled_step h
  cases h
  case request h => exact hb.congr hq (by rw [(sparesLoop_of_requestStep h).phase])
  case stop h => exact hb.congr hq (by rw [(sparesLoop_of_stopStep h).phase])
  case spawn hc => exact hb.congr hq (by simp [hs.claimed _ hc])
  case loop h => exact h.budgeted hs hb
  all_goals exact hb.congr hq Iff.rfl

theorem Run.budgeted {schedule : Schedule} {m : Moment} {seen : History}
    (run : Run p (.initial schedule m) seen s) : Budgeted p s seen.stretch := by
  induction run
  case refl => exact .fresh (.inl rfl)
  case step run h ih =>
    have := (Step.of_step h).budgeted run.sound ih
    simpa [History.stretch, List.foldl_map] using this

namespace History

variable {before after : History} {x : Moment × Occurrence}

theorem foldl_after_last {σ : Stretch} : (after.foldl (fun σ x => σ.after x.2) σ).last =
    after.findings.getLast?.or σ.last := by
  induction after generalizing σ with
  | nil => rfl
  | cons x after ih =>
    rw [List.foldl_cons, ih]
    have ⟨m, x⟩ := x
    cases x
    case evaluated status =>
      have hl : (σ.after (.evaluated status)).last = some status.state := by
        simp only [Stretch.after]
        split <;> simp_all
      have hf : findings ((m, .evaluated status) :: after) = status.state :: findings after := rfl
      rw [hl, hf, List.getLast?_cons]
      cases List.getLast? (findings after) <;> rfl
    case accepted q => cases q <;> rfl
    case called purpose _ => cases purpose <;> rfl
    case answered => rfl

theorem stretch_last : before.stretch.last = before.findings.getLast? := by
  rw [stretch, foldl_after_last, Option.or_none]

theorem stretch_of_restarts (h : Restarts before x.2) :
    (before.stretch.after x.2).found = findings [x] ∧
      (before.stretch.after x.2).sent = driven [x] := by
  have ⟨m, x⟩ := x
  cases x
  case accepted q =>
    cases q
    case buzz => exact absurd h id
    all_goals exact ⟨rfl, rfl⟩
  case evaluated status =>
    rw [Stretch.after, stretch_last, if_neg h]
    exact ⟨rfl, rfl⟩
  all_goals exact absurd h id

theorem stretch_of_not_restarts (h : ¬Restarts before x.2) :
    (before.stretch.after x.2).found = before.stretch.found ++ findings [x] ∧
      (before.stretch.after x.2).sent = before.stretch.sent ++ driven [x] := by
  have ⟨m, x⟩ := x
  cases x
  case accepted q =>
    cases q
    case buzz => exact ⟨(List.append_nil _).symm, (List.append_nil _).symm⟩
    all_goals exact absurd trivial h
  case evaluated status =>
    have hl : before.stretch.last = some status.state := by
      rw [stretch_last]
      simpa [Restarts] using h
    rw [Stretch.after, if_pos hl]
    exact ⟨rfl, (List.append_nil _).symm⟩
  case called purpose c =>
    cases purpose
    case evaluation => exact ⟨(List.append_nil _).symm, rfl⟩
    all_goals exact ⟨(List.append_nil _).symm, (List.append_nil _).symm⟩
  case answered => exact ⟨(List.append_nil _).symm, (List.append_nil _).symm⟩

-- By induction on what was seen, with what came before growing along.
theorem stretch_append (hl : Always (fun between y => ¬Restarts (before ++ between) y.2) after) :
    (stretch (before ++ after)).found = before.stretch.found ++ after.findings ∧
      (stretch (before ++ after)).sent = before.stretch.sent ++ after.driven := by
  induction after generalizing before with
  | nil => simp [findings, driven]
  | cons y after ih =>
    have hy : ¬Restarts before y.2 := by simpa using hl [] y after rfl
    have hs : stretch (before ++ [y]) = before.stretch.after y.2 := by simp [stretch]
    have hf : findings (y :: after) = findings [y] ++ findings after := @findings_append [y] after
    have hd : driven (y :: after) = driven [y] ++ driven after := @driven_append [y] after
    have ⟨hfound, hsent⟩ := stretch_of_not_restarts hy
    have ⟨ihf, ihs⟩ := @ih (before ++ [y]) fun between z rest h => by
      simpa using hl (y :: between) z rest (by rw [h]; rfl)
    rw [← List.append_cons] at ihf ihs
    rw [ihf, ihs, hs, hfound, hsent, hf, hd, List.append_assoc, List.append_assoc]
    exact ⟨rfl, rfl⟩

end History

-- Each evaluation since the restart has sent one command until the budget was spent, and none from then on.
theorem Run.driven_since_restart {schedule : Schedule} {m : Moment}
    {seen before after : History} {x : Moment × Occurrence}
    (run : Run p (.initial schedule m) seen s) (hs : seen = before ++ x :: after)
    (hx : Restarts before x.2)
    (hl : ∀ between y rest, after = between ++ y :: rest →
      ¬Restarts (before ++ x :: between) y.2) :
    ∃ d k, History.findings (x :: after) = .replicate k d ∧
      History.driven (x :: after) = .replicate (min k (p.maxTries d)) d.command := by
  -- The stretch begins with the restart and ends with the run.
  have hstretch : History.stretch (before ++ [x]) = before.stretch.after x.2 := by
    simp [History.stretch]
  have ⟨hf, hd⟩ := History.stretch_of_restarts hx
  have ⟨hfound, hsent⟩ := @History.stretch_append (before ++ [x]) after
    fun between y rest h => by simpa using hl between y rest h
  rw [← List.append_cons, ← hs, hstretch] at hfound hsent
  rw [hf, ← History.findings_append] at hfound
  rw [hd, ← History.driven_append] at hsent
  rw [List.singleton_append] at hfound hsent
  rw [← hfound, ← hsent]
  have hb := run.budgeted
  generalize seen.stretch = σ at hb
  cases hb with
  | fresh => exact ⟨.locked, 0, rfl, rfl⟩
  | spent => exact ⟨_, _, rfl, rfl⟩

-- The loop looks twice after a closed door, for which there is a single try.
def twoLooks : List Event :=
  [.invoke .start, .call 0 .advance, .call 0 .advance, .call 0 .advance, .loop .advance,
    .loop .advance, .loop (.wake .timer), .loop .advance, .loop (.answer (.error .offline)),
    .loop .advance, .loop .advance, .pass (.ofSeconds 60) (.ofSeconds 60), .loop (.wake .timer),
    .loop .advance]

-- Two evaluations find the door to be locked, with one call between them.
def isTwoLooks : History → Bool
  | [(_, .evaluated ⟨.locked, _, _, _⟩), (_, .called _ _), (_, .answered _ _ _),
      (_, .evaluated ⟨.locked, _, _, _⟩)] => true
  | _ => false

theorem driven_since_restart_twoLooks : ∃ seen s,
    Run { maxTriesLocked := 1 } (.initial closed ⟨0, .ofSeconds 0⟩) seen s ∧
      History.findings seen = [.locked, .locked] ∧
      ∃ d k, History.findings seen = .replicate k d ∧
        History.driven seen = .replicate (min k (Policy.maxTries { maxTriesLocked := 1 } d))
          d.command := by
  have h : ∃ x ∈ (State.initial closed ⟨0, .ofSeconds 0⟩).follow { maxTriesLocked := 1 }
      (fun _ _ => True) twoLooks, isTwoLooks x.1 := by
    decide +kernel
  obtain ⟨⟨seen, s⟩, hx, h⟩ := h
  have run := (RunWhere.of_follow hx).run
  refine ⟨seen, s, run, ?_⟩
  simp only [isTwoLooks] at h
  split at h
  case h_1 =>
    refine ⟨rfl, run.driven_since_restart (List.nil_append _).symm nofun ?_⟩
    refine History.always_cons id (History.always_cons id (History.always_cons ?_ ?_))
    case refine_1 => exact fun h => h rfl
    case refine_2 => exact History.always_nil
  case h_2 => cases h

end EntryDoor.Scheduler
