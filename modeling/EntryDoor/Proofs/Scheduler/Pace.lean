import EntryDoor.Proofs.Scheduler.Budget

namespace EntryDoor

namespace Policy

variable {p : Policy} {validUntil : Option Timestamp} {m : Moment} {i wake now later : Instant}

-- The longest sleep.
def maxPause (p : Policy) : Duration :=
  max p.resendInterval minPause

theorem wakeAt_of_lt (h : m.instant + (p.pause validUntil m.clock).nanos < Instant.limit) :
    p.wakeAt validUntil m = m.instant + (p.pause validUntil m.clock).nanos := by
  rw [wakeAt, Instant.add?, if_pos h, Option.getD_some]

theorem wakeAt_of_not_lt (h : ¬m.instant + (p.pause validUntil m.clock).nanos < Instant.limit) :
    p.wakeAt validUntil m = m.instant := by
  rw [wakeAt, Instant.add?, if_neg h, Option.getD_none]

theorem wakeAt_le : p.wakeAt validUntil m ≤ m.instant + p.maxPause.nanos := by
  by_cases h : m.instant + (p.pause validUntil m.clock).nanos < Instant.limit
  case pos =>
    rw [wakeAt_of_lt h]
    exact Nat.add_le_add_left (p.pause_le validUntil m.clock) _
  case neg =>
    rw [wakeAt_of_not_lt h]
    exact Nat.le_add_right _ _

theorem le_wakeAt_iff : m.instant + minPause.nanos ≤ p.wakeAt validUntil m ↔
    m.instant + (p.pause validUntil m.clock).nanos < Instant.limit := by
  by_cases h : m.instant + (p.pause validUntil m.clock).nanos < Instant.limit
  case pos =>
    rw [wakeAt_of_lt h]
    exact iff_of_true (Nat.add_le_add_left (p.minPause_le_pause validUntil m.clock) _) h
  case neg =>
    rw [wakeAt_of_not_lt h]
    exact iff_of_false (Nat.not_le.mpr (Nat.lt_add_of_pos_right (by decide))) h

-- `wake` comes after the shortest pause, unless by `now` the clock cannot show the longest one.
def Spaced (p : Policy) (i wake now : Instant) : Prop :=
  i + minPause.nanos ≤ wake ∨ Instant.limit ≤ now + p.maxPause.nanos

theorem spaced_wakeAt (h : i ≤ m.instant) : p.Spaced i (p.wakeAt validUntil m) m.instant := by
  by_cases hlt : m.instant + (p.pause validUntil m.clock).nanos < Instant.limit
  case pos => exact .inl (Nat.le_trans (Nat.add_le_add_right h _) (le_wakeAt_iff.mpr hlt))
  case neg => exact .inr (Nat.le_trans (Nat.not_lt.mp hlt) (Nat.add_le_add_left (p.pause_le validUntil m.clock) _))

theorem Spaced.mono (h : p.Spaced i wake now) (hn : now ≤ later) : p.Spaced i wake later := by
  rcases h with h | h
  case inl => exact .inl h
  case inr => exact .inr (Nat.le_trans h (Nat.add_le_add_right hn _))

theorem Spaced.due (h : p.Spaced i wake now) (hw : wake ≤ now) : p.Spaced i now now := by
  rcases h with h | h
  case inl => exact .inl (Nat.le_trans h hw)
  case inr => exact .inr h

end Policy

namespace Scheduler

open State

variable {p : Policy} {s t : State} {o : Outcome} {i now now' : Instant} {m m₀ : Moment} {schedule : Schedule}
variable {seen later skipped rest : History}

-- Where the loop can be `now` if it has evaluated at `i` and accepted no request since.
@[simp] def Phase.Rests (p : Policy) (i now : Instant) : Phase → Prop
  | commanding (.evaluation _) .. => True
  | planning _ => True
  | polling wake => p.Spaced i wake now
  | waiting wake => p.Spaced i wake now
  | accepting _ wake _ => p.Spaced i wake now
  | evaluating => p.Spaced i now now
  | leaving => True
  | announced => True
  | ended => True
  | _ => False

theorem Phase.Rests.mono {phase : Phase} (h : phase.Rests p i now) (hn : now ≤ now') : phase.Rests p i now' := by
  cases phase
  case polling | waiting | accepting => exact Policy.Spaced.mono h hn
  case evaluating => exact (Policy.Spaced.mono h hn).due hn
  case commanding purpose _ _ => cases purpose <;> exact h
  all_goals exact h

structure RestsSince (p : Policy) (i : Instant) (s : State) : Prop where
  le : i ≤ s.moment.instant
  phase : s.phase.Rests p i s.moment.instant

namespace RestsSince

theorem congr (h : RestsSince p i s) (hp : t.phase = s.phase) (hm : t.moment = s.moment) : RestsSince p i t := by
  refine ⟨?_, ?_⟩ <;> rw [hm]
  case refine_1 => exact h.le
  case refine_2 => exact hp ▸ h.phase

theorem answered {result : Except Failure Unit} {purpose : Purpose} {c : Command} {deadline : Instant}
    (h : RestsSince p i s) (hp : s.phase = .commanding purpose c deadline) :
    (s.answered p result purpose c).1.phase.Rests p i s.moment.instant := by
  have hr := hp ▸ h.phase
  cases purpose
  case evaluation => exact trivial
  all_goals exact absurd hr id

theorem rests_evaluate : (s.evaluate p).1.phase.Rests p i now := by
  rcases s.evaluate_phase (p := p) with hp | ⟨_, hp⟩ <;> rw [hp] <;> exact trivial

theorem evaluate (hp : s.phase = .evaluating) : RestsSince p s.moment.instant (s.evaluate p).1 := by
  have hm := (LoopStep.evaluate (p := p) hp).moment
  exact ⟨hm ▸ Nat.le_refl _, rests_evaluate⟩

-- A request that the loop accepts ends the rest.
theorem loop (h : RestsSince p i s) (hl : LoopStep p s o) (ha : o.2.filterMap (·.acceptance?) = []) :
    RestsSince p i o.1 := by
  have hm := hl.moment
  have hr := h.phase
  refine ⟨hm ▸ h.le, ?_⟩
  rw [hm]
  cases hl
  case timer hp hw =>
    rw [hp] at hr
    exact Policy.Spaced.due hr hw
  case accept => simp at ha
  case evaluate => exact rests_evaluate
  case plan => exact Policy.spaced_wakeAt h.le
  case answer hp => exact h.answered hp
  case timeOut hp _ => exact h.answered hp
  all_goals simp_all

theorem step (h : RestsSince p i s) (hs : Sound s) (hst : Step p s o)
    (ha : o.2.filterMap (·.acceptance?) = []) : RestsSince p i o.1 := by
  cases hst
  case pass elapsed _ =>
    have hle := Nat.le_add_right s.moment.instant elapsed.nanos
    exact ⟨Nat.le_trans h.le hle, h.phase.mono hle⟩
  case loop hl => exact h.loop hl ha
  case request hq =>
    have hl := sparesLoop_of_requestStep hq
    exact h.congr hl.phase hl.moment
  case stop hq =>
    have hl := sparesLoop_of_stopStep hq
    exact h.congr hl.phase hl.moment
  -- A loop that has evaluated was started before.
  case spawn hc =>
    have hr := h.phase
    rw [hs.claimed _ hc] at hr
    exact absurd hr id
  all_goals exact h.congr rfl rfl

end RestsSince

-- There was an evaluation at `m`, and no request was accepted after it.
def History.Looked (seen : History) (m : Moment) : Prop :=
  ∃ (before : History) (status : Status) (after : History),
    seen = before ++ (m, .evaluated status) :: after ∧ after.accepted = []

theorem History.looked_append (h : Looked (seen ++ later) m) :
    Looked later m ∨ Looked seen m ∧ later.accepted = [] := by
  obtain ⟨before, status, after, heq, ha⟩ := h
  rcases List.append_eq_append_iff.mp heq with ⟨between, -, hl⟩ | ⟨between, hs, hl⟩
  case inl => exact .inl ⟨between, status, after, hl, ha⟩
  case inr =>
    cases between with
    | nil => exact .inl ⟨[], status, after, hl.symm, ha⟩
    | cons x between =>
      obtain ⟨rfl, rfl⟩ := List.cons.inj hl
      have ⟨hb, hl⟩ := List.append_eq_nil_iff.mp (accepted_append.symm.trans ha)
      exact .inr ⟨⟨before, status, between, hs, hb⟩, hl⟩

theorem Step.evaluated {status : Status} (h : Step p s o)
    (hn : o.2.map (s.moment, ·) = skipped ++ (m, .evaluated status) :: rest) :
    skipped = [] ∧ m = s.moment ∧ s.phase = .evaluating ∧ o = s.evaluate p := by
  cases h
  case loop h =>
    cases h
    case accept q _ hp hc =>
      cases q <;> rcases skipped with _ | ⟨x, _ | ⟨y, skipped⟩⟩ <;> simp [carryOut, command] at hn
    case evaluate hp =>
      refine ⟨?_, ?_, hp, rfl⟩ <;> rw [evaluate_eq] at hn <;> split at hn <;>
        rcases skipped with _ | ⟨x, _ | ⟨y, skipped⟩⟩ <;> simp_all
    all_goals rcases skipped with _ | ⟨x, skipped⟩ <;> simp [command, State.answered] at hn
  all_goals simp at hn

theorem Run.restsSince (run : Run p (.initial schedule m₀) seen s) (h : seen.Looked m) :
    RestsSince p m.instant s := by
  induction run
  case refl => obtain ⟨_, _, _, h, -⟩ := h; simp at h
  case step t u now e run hst ih =>
    rcases History.looked_append h with h | ⟨h, ha⟩
    case inl =>
      obtain ⟨_, _, _, hn, -⟩ := h
      obtain ⟨-, rfl, hp, he⟩ := (Step.of_step hst).evaluated hn
      have hu : u = (t.evaluate p).1 := congrArg Prod.fst he
      exact hu ▸ .evaluate hp
    case inr =>
      rw [History.accepted_map] at ha
      exact (ih h).step run.sound (Step.of_step hst) ha

theorem LoopStep.plans {validUntil : Option Timestamp} (h : LoopStep p s o) (hp : s.phase = .planning validUntil) :
    o.1.phase = .polling (p.wakeAt validUntil s.moment) := by
  cases h
  case plan hp' => cases hp.symm.trans hp'; rfl
  all_goals simp_all

-- What the pace of a run is when `seen` was seen and it has come to `s`.
structure Paced (p : Policy) (seen : History) (s : State) : Prop where
  -- The wake-up that an evaluation sets when it ends.
  wakes : ∀ validUntil e t now, s.phase = .planning validUntil → s.step p (.loop e) = some (t, now) →
    ∃ wake, t.phase = .polling wake ∧ wake ≤ s.moment.instant + p.maxPause.nanos ∧
      (s.moment.instant + Policy.minPause.nanos ≤ wake ↔
        s.moment.instant + (p.pause validUntil s.moment.clock).nanos < Instant.limit)
  apart : ∀ (before : History) m₁ status₁ (between : History) m₂ status₂ after,
    seen = before ++ (m₁, .evaluated status₁) :: between ++ (m₂, .evaluated status₂) :: after →
      between.accepted = [] →
      m₂.instant + p.maxPause.nanos < Instant.limit →
      m₁.instant + Policy.minPause.nanos ≤ m₂.instant

theorem Run.paced (run : Run p (.initial schedule m₀) seen s) : Paced p seen s := by
  refine ⟨fun validUntil e t now hp hst => ?_, fun before m₁ status₁ between m₂ status₂ after hs hb hlt => ?_⟩
  case refine_1 =>
    exact ⟨_, (LoopStep.of_loopStep hst).plans hp, Policy.wakeAt_le, Policy.le_wakeAt_iff⟩
  case refine_2 =>
    have ⟨first, t, e, v, now, skipped, rest, later, run, hst, _, hn, hf, _⟩ := (hs ▸ run).cut
    obtain ⟨rfl, rfl, hp, -⟩ := (Step.of_step hst).evaluated hn
    rw [List.append_nil] at hf
    have hr := (run.restsSince ⟨before, status₁, between, hf.symm, hb⟩).phase
    rw [hp] at hr
    exact hr.resolve_right (Nat.not_le.mpr hlt)

-- The loop is started and looks after the door, which answers at once, and then again a while later.
def looksAfter (pause : Duration) (clock : Timestamp) : List Event :=
  [.invoke .start, .call 0 .advance, .call 0 .advance, .call 0 .advance, .loop .advance,
    .loop .advance, .loop (.wake .timer), .loop .advance, .loop (.answer (.ok ())), .loop .advance,
    .loop .advance, .pass pause clock, .loop (.wake .timer), .loop .advance]

-- The first two evaluations are at these readings, and there is a call between them.
def isLooksAt (i j : Instant) : History → Bool
  | (m₁, .evaluated _) :: (_, .called _ _) :: (_, .answered _ _ _) :: (m₂, .evaluated _) :: _ =>
    m₁.instant = i ∧ m₂.instant = j
  | _ => false

theorem exists_of_isLooksAt {j : Instant} (h : isLooksAt i j seen) : ∃ before m₁ status₁ between m₂ status₂ after,
    seen = before ++ (m₁, .evaluated status₁) :: between ++ (m₂, .evaluated status₂) :: after ∧
      History.accepted between = [] ∧ m₁.instant = i ∧ m₂.instant = j := by
  unfold isLooksAt at h
  split at h
  case h_1 =>
    have ⟨hi, hj⟩ := of_decide_eq_true h
    exact ⟨[], _, _, [_, _], _, _, _, rfl, rfl, hi, hj⟩
  case h_2 => cases h

theorem paced_looksAfter : ∃ before m₁ status₁ between m₂ status₂ after s,
    Run {} (.initial closed ⟨0, .ofSeconds 0⟩)
      (before ++ (m₁, .evaluated status₁) :: between ++ (m₂, .evaluated status₂) :: after) s ∧
      History.accepted between = [] ∧ m₁.instant + Policy.minPause.nanos ≤ m₂.instant := by
  have h : ∃ x ∈ (State.initial closed ⟨0, .ofSeconds 0⟩).follow {} (fun _ _ => True)
      (looksAfter (.ofSeconds 60) (.ofSeconds 60)), isLooksAt 0 60000000000 x.1 := by
    decide +kernel
  obtain ⟨⟨seen, s⟩, hx, h⟩ := h
  have run := (RunWhere.of_follow hx).run
  obtain ⟨before, m₁, status₁, between, m₂, status₂, after, rfl, hb, -, hj⟩ := exists_of_isLooksAt h
  exact ⟨before, m₁, status₁, between, m₂, status₂, after, s, run, hb,
    run.paced.apart _ _ _ _ _ _ _ rfl hb (hj ▸ by decide)⟩

-- The longest intervals that a configuration can have.
def patient : Policy where
  resendInterval := .ofSeconds 9223372036854775807
  fallbackHorizon := .ofSeconds 9223372036854775807

-- A second after its start the clock cannot show the end of such an interval, and the loop looks again at once.
theorem not_apart_patient : patient.validate = .ok () ∧ ∃ before m₁ status₁ between m₂ status₂ after s,
    Run patient (.initial closed ⟨1000000000, .ofSeconds 1⟩)
      (before ++ (m₁, .evaluated status₁) :: between ++ (m₂, .evaluated status₂) :: after) s ∧
      History.accepted between = [] ∧ m₁.instant = m₂.instant := by
  have h : ∃ x ∈ (State.initial closed ⟨1000000000, .ofSeconds 1⟩).follow patient (fun _ _ => True)
      (looksAfter .zero (.ofSeconds 1)), isLooksAt 1000000000 1000000000 x.1 := by
    decide +kernel
  obtain ⟨⟨seen, s⟩, hx, h⟩ := h
  have run := (RunWhere.of_follow hx).run
  obtain ⟨before, m₁, status₁, between, m₂, status₂, after, rfl, hb, hi, hj⟩ := exists_of_isLooksAt h
  exact ⟨rfl, before, m₁, status₁, between, m₂, status₂, after, s, run, hb, hi.trans hj.symm⟩

end Scheduler

end EntryDoor
