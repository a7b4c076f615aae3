import EntryDoor.Proofs.Scheduler.HandOff

namespace EntryDoor.Scheduler

open State

variable {p : Policy} {s t : State} {o : Outcome} {seen : History} {i j : CallId} {r : Request}
  {stage stage' : RequestStage} {ce : CallEvent} {sent : List Moment}
  {got : List (Moment × Except Failure Unit)} {m : Moment} {now : List Occurrence}

namespace Occurrence

-- The caller whose buzz has ended, and what it came to.
def buzzed? : Occurrence → Option (CallId × Except Failure Unit)
  | answered (.buzz caller _) _ result => some (caller, result)
  | _ => none

end Occurrence

namespace History

variable {later : History}

-- When the door was called to buzz for caller `i`.
def begun (i : CallId) (seen : History) : List Moment :=
  seen.filterMap fun x => if x.2.buzz? = some i then some x.1 else none

-- When these calls have ended, and what they came to.
def ended (i : CallId) (seen : History) : List (Moment × Except Failure Unit) :=
  seen.filterMap fun x => x.2.buzzed?.bind fun y => if y.1 = i then some (x.1, y.2) else none

@[simp] theorem begun_append : begun i (seen ++ later) = begun i seen ++ begun i later :=
  List.filterMap_append

@[simp] theorem ended_append : ended i (seen ++ later) = ended i seen ++ ended i later :=
  List.filterMap_append

theorem begun_map (h : ∀ x ∈ now, x.buzz? = none) : begun i (now.map (m, ·)) = [] := by
  rw [begun, List.filterMap_map, List.filterMap_eq_nil_iff]
  intro x hx
  simp [h x hx]

theorem ended_map (h : ∀ x ∈ now, x.buzzed? = none) : ended i (now.map (m, ·)) = [] := by
  rw [ended, List.filterMap_map, List.filterMap_eq_nil_iff]
  intro x hx
  simp [h x hx]

theorem length_begun : (begun i seen).length = seen.buzzed.count i := by
  induction seen with
  | nil => rfl
  | cons x seen ih =>
    simp only [begun, buzzed, List.filterMap_cons] at ih ⊢
    cases h : x.2.buzz? with
    | none => simp [ih]
    | some j =>
      by_cases hj : j = i
      case pos => simp [hj, ih]
      case neg => simp [hj, ih]

end History

-- What a call to the door can come to that has begun at `m` and ended at `m'`.
inductive BuzzResult (p : Policy) (m m' : Moment) : Except Failure Unit → Prop
  | answered (result : Except HardwareFault Unit) : BuzzResult p m m' (result.mapError .hardware)
  | timedOut (h : m.instant.after p.commandTimeout ≤ m'.instant) :
      BuzzResult p m m' (.error (.scheduler (.commandTimedOut .buzz)))

-- How far the loop has come with a request, with the calls to the door that were made to buzz for it.
inductive Handled (p : Policy) (phase : Phase) (i : CallId) :
    Request → RequestStage → List Moment → List (Moment × Except Failure Unit) → Prop
  | unheard {r : Request} {stage : RequestStage} (h : stage ≠ .accepted)
      (hr : ∀ result, stage ≠ .replied result) (hd : ∀ result, stage ≠ .done result) :
      Handled p phase i r stage [] []
  | other {r : Request} {stage : RequestStage} (hr : r ≠ .buzz)
      (h : stage = .accepted ∨ stage = .done (.ok ())) : Handled p phase i r stage [] []
  | underway {stage : RequestStage} {m : Moment} {wake : Instant}
      (hp : phase = .commanding (.buzz i wake) .buzz (m.instant.after p.commandTimeout))
      (h : stage = .accepted ∨ stage = .dropped) : Handled p phase i .buzz stage [m] []
  | ended {stage : RequestStage} {m m' : Moment} {result : Except Failure Unit}
      (hr : BuzzResult p m m' result)
      (h : stage = .replied result ∨ stage = .done result ∨ stage = .dropped) :
      Handled p phase i .buzz stage [m] [(m', result)]

namespace Handled

variable {phase phase' : Phase}

-- Where the loop goes matters only while it waits for the door.
theorem congr (h : Handled p phase i r stage sent got)
    (hp : ∀ wake c d, phase = .commanding (.buzz i wake) c d → phase' = phase) :
    Handled p phase' i r stage sent got := by
  cases h
  case unheard h hr hd => exact .unheard h hr hd
  case other hr h => exact .other hr h
  case underway hq h => exact .underway ((hp _ _ _ hq).trans hq) h
  case ended hr h => exact .ended hr h

theorem follow (h : Handled p phase i r stage sent got) (hf : stage.Follows r stage') :
    Handled p phase i r stage' sent got := by
  cases h
  case unheard h hr hd =>
    cases hf
    case finish => exact absurd rfl h
    case finishBuzz => exact absurd rfl (hr _)
    all_goals exact .unheard nofun (fun _ => nofun) (fun _ => nofun)
  case other hr h =>
    cases hf
    case finish => exact .other hr (.inr rfl)
    case drop => exact .unheard nofun (fun _ => nofun) (fun _ => nofun)
    all_goals simp at h
  case underway hp h =>
    cases hf
    case finish hr => exact absurd rfl hr
    case drop => exact .underway hp (.inr rfl)
    all_goals simp at h
  case ended hr h =>
    cases hf
    case finishBuzz =>
      simp only [RequestStage.replied.injEq, reduceCtorEq, or_false] at h
      exact .ended hr (.inr (.inl (by rw [h])))
    case drop => exact .ended hr (.inr (.inr rfl))
    all_goals simp at h

end Handled

-- The door is called to buzz.
@[simp] def Phase.IsBuzzing : Phase → Prop
  | commanding (.buzz ..) .. => True
  | _ => False

-- A step takes requests further without the door being called to buzz, or it makes new ones.
def Followed (p : Policy) (s t : State) : Prop :=
  ∀ (i : CallId) r stage, t.calls[i]? = some (.request r stage) →
    (∃ before, s.calls[i]? = some (.request r before) ∧ ∀ phase sent got,
      Handled p phase i r before sent got → Handled p phase i r stage sent got) ∨
    s.calls.length ≤ i ∧ stage = .created

namespace Followed

theorem same (h : t.calls = s.calls) : Followed p s t :=
  fun _ _ stage hi => .inl ⟨stage, h ▸ hi, fun _ _ _ => id⟩

theorem set {c : Call} (h : t.calls = s.calls.set j c) (hc : ∀ r stage, c ≠ .request r stage) :
    Followed p s t :=
  fun _ _ stage hi => .inl ⟨stage, calls_of_set h (hc _ _) hi, fun _ _ _ => id⟩

theorem request (hc : s.calls[j]? = some (.request r stage))
    (hs : ∀ phase sent got, Handled p phase j r stage sent got → Handled p phase j r stage' sent got)
    (h : t.calls = s.calls.set j (.request r stage')) : Followed p s t := by
  intro i q after hi
  rcases eq_or_calls_of_set h hi with ⟨rfl, hq⟩ | hi
  case inl => cases hq; exact .inl ⟨stage, hc, hs⟩
  case inr => exact .inl ⟨after, hi, fun _ _ _ => id⟩

theorem invoke {what : Invocation} (h : t.calls = s.calls ++ [what.call]) : Followed p s t := by
  intro i q stage hi
  rw [h, List.getElem?_append] at hi
  split at hi
  case isTrue => exact .inl ⟨stage, hi, fun _ _ _ => id⟩
  case isFalse hn =>
    have hw := List.mem_singleton.mp (List.mem_of_getElem? hi)
    cases what <;> cases hw
    exact .inr ⟨Nat.le_of_not_lt hn, rfl⟩

end Followed

theorem CallsStep.length_le {accepted : List (CallId × Request)} (h : CallsStep s t accepted) :
    s.calls.length ≤ t.calls.length := by
  cases h
  case same h => simp [h]
  case invoke h => simp [h]
  case move h _ | claim h => simp [h]
  case loop h => cases h <;> simp [*]

namespace State

variable {result : Except Failure Unit}

theorem length_calls_reply : (s.reply i result).calls.length = s.calls.length := by
  rcases s.reply_calls i result with h | ⟨r, -, h⟩ <;> simp [h]

theorem calls_reply_of_ne (hij : i ≠ j) : (s.reply i result).calls[j]? = s.calls[j]? := by
  rcases s.reply_calls i result with h | ⟨r, -, h⟩
  case inl => rw [h]
  case inr => rw [h, List.getElem?_set_ne hij]

-- A caller that has dropped its buzz is told nothing.
theorem calls_reply (hc : s.calls[i]? = some (.request .buzz stage))
    (h : stage = .accepted ∨ stage = .dropped)
    (hi : (s.reply i result).calls[i]? = some (.request r stage')) :
    r = .buzz ∧ (stage' = .replied result ∨ stage' = .dropped) := by
  have hlt := (List.getElem?_eq_some_iff.mp hc).1
  rcases h with rfl | rfl
  case inl =>
    simp only [reply, hc, setStage, List.getElem?_set_self hlt] at hi
    cases hi
    exact ⟨rfl, .inl rfl⟩
  case inr =>
    simp only [reply, hc] at hi
    cases hi
    exact ⟨rfl, .inr rfl⟩

end State

-- How far the loop has come with each of the requests.
structure State.HandledAll (p : Policy) (seen : History) (s : State) : Prop where
  request : ∀ (i : CallId) r stage, s.calls[i]? = some (.request r stage) →
    Handled p s.phase i r stage (seen.begun i) (seen.ended i)
  -- Nothing was done for a call that is still to be made.
  later : ∀ i, s.calls.length ≤ i → seen.begun i = [] ∧ seen.ended i = []
  buzzing : ∀ i wake c d, s.phase = .commanding (.buzz i wake) c d →
    c = .buzz ∧ seen.ended i = [] ∧ seen.begun i ≠ [] ∧
      ∃ stage, s.calls[i]? = some (.request .buzz stage)

namespace State.HandledAll

variable (h : s.HandledAll p seen)

include h

-- A step that has nothing to do with buzzes.
theorem quiet {accepted : List (CallId × Request)} (hc : CallsStep s t accepted)
    (hn : ∀ x ∈ now, x.buzz? = none ∧ x.buzzed? = none) (hf : Followed p s t)
    (hp : t.phase = s.phase ∨ ¬s.phase.IsBuzzing ∧ ¬t.phase.IsBuzzing) :
    t.HandledAll p (seen ++ now.map (s.moment, ·)) := by
  have hb i : (seen ++ now.map (s.moment, ·)).begun i = seen.begun i := by
    rw [History.begun_append, History.begun_map fun x hx => (hn x hx).1, List.append_nil]
  have he i : (seen ++ now.map (s.moment, ·)).ended i = seen.ended i := by
    rw [History.ended_append, History.ended_map fun x hx => (hn x hx).2, List.append_nil]
  refine ⟨fun i r stage hi => ?_, fun i hi => ?_, fun i wake c d hq => ?_⟩
  case refine_1 =>
    rw [hb, he]
    rcases hf i r stage hi with ⟨before, hs, hf⟩ | ⟨hl, rfl⟩
    case inl =>
      have hh := h.request i r before hs
      have hcongr : Handled p t.phase i r before (seen.begun i) (seen.ended i) :=
        hh.congr fun wake c d hq => by
          rcases hp with hp | ⟨hn, -⟩
          case inl => exact hp
          case inr => simp [hq] at hn
      exact hf _ _ _ hcongr
    case inr =>
      rw [(h.later i hl).1, (h.later i hl).2]
      exact .unheard nofun (fun _ => nofun) (fun _ => nofun)
  case refine_2 =>
    rw [hb, he]
    exact h.later i (Nat.le_trans hc.length_le hi)
  case refine_3 =>
    rw [hb, he]
    rcases hp with hp | ⟨-, hn⟩
    case inl =>
      obtain ⟨hc', he, hb, stage, hs⟩ := h.buzzing i wake c d (hp ▸ hq)
      obtain ⟨stage', ht⟩ := hc.request_persists hs
      exact ⟨hc', he, hb, stage', ht⟩
    case inr => simp [hq] at hn

-- The door is called for the buzz that is accepted.
theorem acceptBuzz {d wake : Instant} (hp : ¬s.phase.IsBuzzing)
    (hc : s.calls[i]? = some (.request .buzz (.queued d)))
    (ht : t.calls = s.calls.set i (.request .buzz .accepted))
    (hq : t.phase = .commanding (.buzz i wake) .buzz (s.moment.instant.after p.commandTimeout)) :
    t.HandledAll p (seen ++ [.accepted i .buzz, .called (.buzz i wake) .buzz].map (s.moment, ·)) := by
  have hh := h.request i _ _ hc
  have hnil : seen.begun i = [] ∧ seen.ended i = [] := by
    generalize seen.begun i = sent, seen.ended i = got at hh
    cases hh <;> simp_all
  have hlt := (List.getElem?_eq_some_iff.mp hc).1
  have hb j : History.begun j ([.accepted i .buzz, .called (.buzz i wake) .buzz].map (s.moment, ·)) =
      if i = j then [s.moment] else [] := by
    by_cases hij : i = j <;> simp [History.begun, Occurrence.buzz?, hij]
  have he j : History.ended j
      ([.accepted i .buzz, .called (.buzz i wake) .buzz].map (s.moment, ·)) = [] := rfl
  refine ⟨fun j r stage hj => ?_, fun j hj => ?_, fun j wake' c d hq' => ?_⟩
  case refine_1 =>
    rw [History.begun_append, History.ended_append, hb, he, List.append_nil]
    rw [ht, List.getElem?_set] at hj
    split at hj
    case isTrue hij =>
      subst hij
      cases hj
      rw [if_pos rfl, hnil.1, hnil.2]
      exact .underway hq (.inl rfl)
    case isFalse hij =>
      rw [if_neg hij, List.append_nil]
      exact (h.request j r stage hj).congr fun _ _ _ hs => by simp [hs] at hp
  case refine_2 =>
    rw [ht, List.length_set] at hj
    rw [History.begun_append, History.ended_append, hb, he, (h.later j hj).1, (h.later j hj).2]
    have hij : i ≠ j := fun hij => absurd hlt (hij ▸ Nat.not_lt_of_le hj)
    simp [hij]
  case refine_3 =>
    cases hq.symm.trans hq'
    refine ⟨rfl, ?_, ?_, .accepted, by rw [ht, List.getElem?_set_self hlt]⟩
    case refine_1 => rw [History.ended_append, he, hnil.2]; rfl
    case refine_2 => rw [History.begun_append, hb, if_pos rfl]; simp

-- The door has answered to the buzz for caller `i`, or it has not in time.
theorem answerBuzz {wake : Instant} {c : Command} {deadline : Instant}
    {result : Except Failure Unit} (hp : s.phase = .commanding (.buzz i wake) c deadline)
    (hr : ∀ m, deadline = m.instant.after p.commandTimeout → BuzzResult p m s.moment result)
    (hq : t.phase = .polling wake) (ht : t.calls = (s.reply i result).calls) :
    t.HandledAll p (seen ++ [.answered (.buzz i wake) c result].map (s.moment, ·)) := by
  obtain ⟨rfl, hnil, hbegun, stage, hc⟩ := h.buzzing i wake c deadline hp
  have hb j : History.begun j ([.answered (.buzz i wake) .buzz result].map (s.moment, ·)) = [] := rfl
  have he j : History.ended j ([.answered (.buzz i wake) .buzz result].map (s.moment, ·)) =
      if i = j then [(s.moment, result)] else [] := by
    by_cases hij : i = j <;> simp [History.ended, Occurrence.buzzed?, hij]
  have hlen : t.calls.length = s.calls.length := by rw [ht, length_calls_reply]
  refine ⟨fun j r stage' hj => ?_, fun j hj => ?_, fun j wake' c d hq' => ?_⟩
  case refine_1 =>
    rw [History.begun_append, History.ended_append, hb, he, List.append_nil]
    rw [ht] at hj
    by_cases hij : i = j
    case pos =>
      subst hij
      have hh := h.request i _ _ hc
      rw [if_pos rfl, hnil, List.nil_append]
      rw [hnil] at hh
      generalize seen.begun i = sent at hh hbegun
      cases hh
      case unheard | other => exact absurd rfl hbegun
      case underway m _ hq hs =>
        cases hp.symm.trans hq
        obtain ⟨rfl, hs⟩ := calls_reply hc hs hj
        exact .ended (hr m rfl) (hs.imp_right .inr)
    case neg =>
      rw [calls_reply_of_ne hij] at hj
      rw [if_neg hij, List.append_nil]
      refine (h.request j r stage' hj).congr fun _ _ _ hs => ?_
      cases hp.symm.trans hs
      exact absurd rfl hij
  case refine_2 =>
    rw [hlen] at hj
    rw [History.begun_append, History.ended_append, hb, he, (h.later j hj).1, (h.later j hj).2]
    have hij : i ≠ j := by
      rintro rfl
      exact hbegun (h.later i hj).1
    simp [hij]
  case refine_3 => cases hq.symm.trans hq'

end State.HandledAll

theorem State.HandledAll.answerOther {purpose : Purpose} {c : Command} {deadline : Instant}
    {result : Except Failure Unit} {accepted : List (CallId × Request)} (h : s.HandledAll p seen)
    (hp : s.phase = .commanding purpose c deadline) (hn : ¬s.phase.IsBuzzing)
    (hc : CallsStep s (s.afterCommand p result purpose) accepted) :
    (s.afterCommand p result purpose).HandledAll p
      (seen ++ [.answered purpose c result].map (s.moment, ·)) := by
  cases purpose
  case buzz => simp [hp] at hn
  case evaluation =>
    exact h.quiet hc (by simp [Occurrence.buzz?, Occurrence.buzzed?]) (.same rfl)
      (.inr ⟨hn, by simp [afterCommand]⟩)
  case reset rest wake =>
    cases rest <;> exact h.quiet hc (by simp [Occurrence.buzz?, Occurrence.buzzed?]) (.same rfl)
      (.inr ⟨hn, by simp [afterCommand]⟩)

-- A step of the loop has nothing to do with a buzz, accepts one or ends one.
theorem LoopStep.handledAll (hs : LoopStep p s o) (h : s.HandledAll p seen) :
    o.1.HandledAll p (seen ++ o.2.map (s.moment, ·)) := by
  have hcalls := CallsStep.loop hs.calls
  cases hs
  case accept i wake before r d hp hc =>
    cases r
    case buzz => exact h.acceptBuzz (by simp [hp]) hc rfl rfl
    all_goals
      refine h.quiet hcalls ?_ ?_ (.inr ⟨by simp [hp], by simp [carryOut, command]⟩)
      case refine_1 => simp [carryOut, command, Occurrence.buzz?, Occurrence.buzzed?]
      case refine_2 =>
        refine .request hc (fun phase sent got hh => ?_) rfl
        cases hh <;> simp_all
        exact .other (by simp) (.inl rfl)
  case answer purpose c deadline result hp =>
    cases purpose
    case buzz i wake => exact h.answerBuzz hp (fun m _ => .answered result) rfl rfl
    all_goals exact h.answerOther hp (by simp [hp]) hcalls
  case timeOut purpose c deadline hp hd =>
    cases purpose
    case buzz i wake =>
      obtain ⟨rfl, -⟩ := h.buzzing i wake c deadline hp
      exact h.answerBuzz hp (fun m hm => .timedOut (hm ▸ hd)) rfl rfl
    all_goals exact h.answerOther hp (by simp [hp]) hcalls
  case evaluate hp =>
    refine h.quiet hcalls ?_ (.same evaluate_calls) (.inr ⟨by simp [hp], ?_⟩)
    case refine_1 =>
      rw [evaluate_eq]
      split <;> simp [Occurrence.buzz?, Occurrence.buzzed?]
    case refine_2 => rcases s.evaluate_phase (p := p) with h | ⟨_, h⟩ <;> simp [h]
  all_goals
    refine h.quiet hcalls ?_ (.same rfl) (.inr ⟨?_, ?_⟩)
    all_goals simp [*, command, Occurrence.buzz?, Occurrence.buzzed?]

theorem Step.handledAll (hs : Step p s o) (hso : Sound s) (h : s.HandledAll p seen) :
    o.1.HandledAll p (seen ++ o.2.map (s.moment, ·)) := by
  have hcalls := hs.calls
  have hn : ∀ x ∈ ([] : List Occurrence), x.buzz? = none ∧ x.buzzed? = none := by simp
  cases hs
  case loop hs => exact hs.handledAll h
  case pass | release => exact h.quiet hcalls hn (.same rfl) (.inl rfl)
  case invoke => exact h.quiet hcalls hn (.invoke rfl) (.inl rfl)
  case request hc hs =>
    obtain ⟨_, hf, ht⟩ := calls_of_requestStep hs
    exact h.quiet hcalls hn (.request hc (fun _ _ _ hh => hh.follow hf) ht)
      (.inl (sparesLoop_of_requestStep hs).phase)
  case stop hs =>
    obtain ⟨_, ht⟩ := calls_of_stopStep hs
    exact h.quiet hcalls hn (.set ht fun _ _ => nofun) (.inl (sparesLoop_of_stopStep hs).phase)
  case dropStop => exact h.quiet hcalls hn (.set (c := .stop _) rfl fun _ _ => nofun) (.inl rfl)
  case spawn i hc =>
    have hp := hso.claimed i hc
    exact h.quiet hcalls hn (.set (c := .start _) rfl fun _ _ => nofun) (.inr ⟨by simp [hp], by simp⟩)
  all_goals exact h.quiet hcalls hn (.set (c := .start _) rfl fun _ _ => nofun) (.inl rfl)

theorem Run.handledAll {schedule : Schedule} (run : Run p (.initial schedule m) seen s) :
    s.HandledAll p seen := by
  induction run
  case refl =>
    refine ⟨fun i r stage hi => ?_, fun _ _ => ⟨rfl, rfl⟩, nofun⟩
    simp [State.initial] at hi
  case step run h ih => exact (Step.of_step h).handledAll run.sound ih

-- Whoever asks for anything but a buzz is told that all is well if and only if the request is accepted.
theorem Run.result_iff {schedule : Schedule} {result : Except Failure Unit}
    (run : Run p (.initial schedule m) seen s) (hi : s.calls[i]? = some (.request r stage))
    (hr : r ≠ .buzz) (h : stage.result? = some result) : result = .ok () ↔ i ∈ seen.callers := by
  have ha := run.agreed.call i _ hi
  have hh := run.handledAll.request i r stage hi
  generalize seen.begun i = sent, seen.ended i = got at hh
  cases stage <;> simp only [RequestStage.result?, Option.some.injEq, reduceCtorEq] at h
  case refused cause =>
    subst h
    refine ⟨(by cases ·), fun hm => ?_⟩
    obtain ⟨r', hm⟩ := History.mem_callers.mp hm
    exact absurd rfl (ha _ hm)
  case done =>
    subst h
    have hm : i ∈ seen.callers := History.mem_callers.mpr ⟨r, ha.1⟩
    cases hh
    case unheard hd => exact absurd rfl (hd _)
    case other h =>
      simp only [RequestStage.done.injEq, reduceCtorEq, false_or] at h
      exact ⟨fun _ => hm, fun _ => h⟩
    case underway | ended => exact absurd rfl hr

end EntryDoor.Scheduler
