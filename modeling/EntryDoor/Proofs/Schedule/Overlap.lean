import EntryDoor.Proofs.Schedule.Rules

namespace EntryDoor

namespace OpeningHour

variable {a b : OpeningHour}

-- Some full minute belongs to the effective intervals of both, their ends included.
def Overlaps (a b : OpeningHour) : Prop :=
  ∃ minute, (a.opensAt ≤ minute ∧ minute ≤ a.closesAt) ∧ b.opensAt ≤ minute ∧ minute ≤ b.closesAt

theorem overlaps_self (a : OpeningHour) : a.Overlaps a :=
  have h := Int.le_of_lt a.opensAt_lt_closesAt
  ⟨a.opensAt, ⟨Int.le_refl _, h⟩, Int.le_refl _, h⟩

theorem not_overlaps_iff : ¬a.Overlaps b ↔ a.closesAt < b.opensAt ∨ b.closesAt < a.opensAt := by
  have ha := a.opensAt_lt_closesAt
  have hb := b.opensAt_lt_closesAt
  constructor
  case mp =>
    intro hn
    by_cases h : a.closesAt < b.opensAt ∨ b.closesAt < a.opensAt
    case pos => exact h
    -- The later one of the two starts belongs to both.
    case neg => exact absurd ⟨max a.opensAt b.opensAt, by omega, by omega⟩ hn
  case mpr =>
    rintro h ⟨minute, hm, hm'⟩
    omega

instance (a b : OpeningHour) : Decidable (a.Overlaps b) :=
  decidable_of_iff (¬(a.closesAt < b.opensAt ∨ b.closesAt < a.opensAt)) <| by
    rw [← not_overlaps_iff, Classical.not_not]

theorem not_overlaps_symm (h : ¬a.Overlaps b) : ¬b.Overlaps a :=
  not_overlaps_iff.mpr (not_overlaps_iff.mp h).symm

theorem start_lt_of_closesAt_lt (h : a.closesAt < b.opensAt) : a.range.start < b.range.start := by
  have hr := DayTime.lt_def.mp a.range.start_lt_stop
  rw [DayTime.lt_def]
  simp only [closesAt, opensAt] at h
  omega

theorem closesAt_lt_of_start_le (hn : ¬a.Overlaps b) (h : a.range.start ≤ b.range.start) :
    a.closesAt < b.opensAt := by
  cases not_overlaps_iff.mp hn with
  | inl h => exact h
  | inr hlt =>
    have hlt := DayTime.lt_def.mp (start_lt_of_closesAt_lt hlt)
    have hle := DayTime.le_def.mp h
    omega

end OpeningHour

namespace RuleSetBuilder

variable {b b' : RuleSetBuilder} {r : RuleSet} {layer : Layer} {hours hours' : List OpeningHour}

theorem sorted_perm (hours : List OpeningHour) : (sorted hours).Perm hours :=
  List.mergeSort_perm _ _

theorem pairwise_sorted (hours : List OpeningHour) :
    (sorted hours).Pairwise fun a b => a.range.start ≤ b.range.start := by
  refine (List.pairwise_mergeSort (fun a b c hab hbc => ?_) (fun a b => ?_) hours).imp
    of_decide_eq_true
  case refine_1 =>
    exact decide_eq_true (Nat.le_trans (of_decide_eq_true hab) (of_decide_eq_true hbc))
  case refine_2 => simpa [DayTime.le_def] using Nat.le_total _ _

theorem firstOverlap_of_pairwise (h : hours.Pairwise fun a b => a.closesAt < b.opensAt) :
    firstOverlap hours = none := by
  induction hours with
  | nil => rfl
  | cons a hours ih =>
    have ⟨ha, hours⟩ := List.pairwise_cons.mp h
    cases hours with
    | nil => rfl
    | cons hb hrest =>
      have hab := ha _ List.mem_cons_self
      rw [firstOverlap, if_neg (by omega)]
      exact ih (.cons hb hrest)

-- Hours without an overlap end one before the other once they are sorted.
theorem pairwise_sorted_of_not_overlaps (h : hours.Pairwise fun a b => ¬a.Overlaps b) :
    (sorted hours).Pairwise fun a b => a.closesAt < b.opensAt := by
  have hs := (sorted_perm hours).symm.pairwise h OpeningHour.not_overlaps_symm
  exact (hs.and (pairwise_sorted hours)).imp fun ⟨hn, hle⟩ =>
    OpeningHour.closesAt_lt_of_start_le hn hle

theorem checkLayer_eq_ok_iff :
    checkLayer layer hours = .ok () ↔ hours.Pairwise fun a b => ¬a.Overlaps b := by
  constructor
  case mp =>
    intro h
    have hs := (pairwise_of_checkLayer h).imp fun hlt => OpeningHour.not_overlaps_iff.mpr (.inl hlt)
    exact (sorted_perm hours).pairwise hs OpeningHour.not_overlaps_symm
  case mpr =>
    intro h
    rw [checkLayer, firstOverlap_of_pairwise (pairwise_sorted_of_not_overlaps h)]

theorem sorted_eq_of_perm (hp : hours.Perm hours') (h : hours.Pairwise fun a b => ¬a.Overlaps b) :
    sorted hours = sorted hours' := by
  have h' := hp.pairwise h OpeningHour.not_overlaps_symm
  have hs := ((sorted_perm hours).trans hp).trans (sorted_perm hours').symm
  refine List.Perm.eq_of_pairwise (fun a b _ _ hab hba => ?_) (pairwise_sorted_of_not_overlaps h)
    (pairwise_sorted_of_not_overlaps h') hs
  have ha := a.opensAt_lt_closesAt
  have hb := b.opensAt_lt_closesAt
  omega

-- No two hours of a layer overlap.
structure Disjoint (b : RuleSetBuilder) : Prop where
  regular : ∀ w, (b.regular w).Pairwise fun a b => ¬a.Overlaps b
  dated : ∀ d hours, b.dated d = some hours → hours.Pairwise fun a b => ¬a.Overlaps b
  holiday : b.holiday.Pairwise fun a b => ¬a.Overlaps b

theorem build_eq_ok_iff : b.build = .ok r ↔ b.Disjoint ∧ b.sortedRules = r := by
  have hdated : (∀ d, ((b.dated d).getD []).Pairwise fun a b => ¬a.Overlaps b) ↔
      ∀ d hours, b.dated d = some hours → hours.Pairwise fun a b => ¬a.Overlaps b := by
    refine forall_congr' fun d => ?_
    cases b.dated d <;> simp
  rw [build_eq_ok, check_eq_ok]
  simp only [checkLayer_eq_ok_iff, hdated]
  exact and_congr_left fun _ => ⟨fun ⟨hr, hd, hh⟩ => ⟨hr, hd, hh⟩, fun ⟨hr, hd, hh⟩ => ⟨hr, hd, hh⟩⟩

-- The same hours were added to each sequence, in whatever order.
structure SameHours (b b' : RuleSetBuilder) : Prop where
  regular : ∀ w, (b.regular w).Perm (b'.regular w)
  dated : ∀ d, Option.Rel List.Perm (b.dated d) (b'.dated d)
  holiday : b.holiday.Perm b'.holiday

namespace SameHours

theorem disjoint (h : SameHours b b') (hb : b.Disjoint) : b'.Disjoint where
  regular w := (h.regular w).pairwise (hb.regular w) OpeningHour.not_overlaps_symm
  dated d hours' hd' := by
    have hd := h.dated d
    rw [hd'] at hd
    generalize ho : b.dated d = hours at hd
    cases hd with
    | some hp => exact hp.pairwise (hb.dated d _ ho) OpeningHour.not_overlaps_symm
  holiday := h.holiday.pairwise hb.holiday OpeningHour.not_overlaps_symm

theorem sortedRules_eq (h : SameHours b b') (hb : b.Disjoint) : b.sortedRules = b'.sortedRules := by
  simp only [sortedRules, RuleSet.mk.injEq]
  refine ⟨funext fun w => sorted_eq_of_perm (h.regular w) (hb.regular w), funext fun d => ?_,
    sorted_eq_of_perm h.holiday hb.holiday⟩
  have hd := h.dated d
  generalize ho : b.dated d = hours, b'.dated d = hours' at hd ⊢
  cases hd with
  | none => rfl
  | some hp => exact congrArg some (sorted_eq_of_perm hp (hb.dated d _ ho))

theorem symm (h : SameHours b b') : SameHours b' b where
  regular w := (h.regular w).symm
  dated d := by
    have hd := h.dated d
    generalize b.dated d = hours, b'.dated d = hours' at hd
    cases hd with
    | none => exact .none
    | some hp => exact .some hp.symm
  holiday := h.holiday.symm

theorem build_eq_ok (h : SameHours b b') (hb : b.build = .ok r) : b'.build = .ok r := by
  have ⟨hd, hr⟩ := build_eq_ok_iff.mp hb
  exact RuleSetBuilder.build_eq_ok_iff.mpr ⟨h.disjoint hd, h.sortedRules_eq hd ▸ hr⟩

theorem build_eq_ok_iff (h : SameHours b b') : b.build = .ok r ↔ b'.build = .ok r :=
  ⟨h.build_eq_ok, h.symm.build_eq_ok⟩

end SameHours

end RuleSetBuilder

end EntryDoor
