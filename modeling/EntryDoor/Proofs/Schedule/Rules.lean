import EntryDoor.Schedule

namespace EntryDoor

namespace Except

variable {α β ε : Type}

theorem bind_eq_ok {x : Except ε α} {f : α → Except ε β} {z : β} :
    x >>= f = .ok z ↔ ∃ y, x = .ok y ∧ f y = .ok z := by
  cases x with
  | ok y => exact ⟨fun h => ⟨y, rfl, h⟩, fun ⟨_, hy, h⟩ => Except.ok.inj hy ▸ h⟩
  | error => exact ⟨nofun, nofun⟩

theorem bind_unit_eq_ok {x : Except ε Unit} {f : Unit → Except ε β} {z : β} :
    x >>= f = .ok z ↔ x = .ok () ∧ f () = .ok z :=
  bind_eq_ok.trans ⟨fun ⟨_, hx, hf⟩ => ⟨hx, hf⟩, fun ⟨hx, hf⟩ => ⟨(), hx, hf⟩⟩

theorem forM_eq_ok {f : α → Except ε Unit} {l : List α} :
    l.forM f = .ok () ↔ ∀ a ∈ l, f a = .ok () := by
  induction l with
  | nil => exact ⟨fun _ => nofun, fun _ => rfl⟩
  | cons a l ih =>
    rw [List.forall_mem_cons, ← ih]
    exact bind_unit_eq_ok

end Except

namespace RuleSetBuilder

variable {b : RuleSetBuilder} {r : RuleSet} {layer : Layer} {hours : List OpeningHour}

theorem pairwise_of_firstOverlap (h : firstOverlap hours = none) :
    hours.Pairwise fun a b => a.closesAt < b.opensAt := by
  induction hours with
  | nil => exact .nil
  | cons a hours ih =>
    cases hours with
    | nil => exact .cons nofun .nil
    | cons b rest =>
      simp only [firstOverlap] at h
      split at h
      case isTrue => cases h
      case isFalse hab =>
        have hrest := ih h
        have hlt : a.closesAt < b.opensAt := by omega
        refine .cons (fun c hc => ?_) hrest
        cases hc with
        | head => exact hlt
        | tail _ hc =>
          have hbc := (List.pairwise_cons.mp hrest).1 c hc
          have hb := b.opensAt_lt_closesAt
          omega

theorem pairwise_of_checkLayer (h : checkLayer layer hours = .ok ()) :
    (sorted hours).Pairwise fun a b => a.closesAt < b.opensAt := by
  unfold checkLayer at h
  split at h
  case h_1 => cases h
  case h_2 hn => exact pairwise_of_firstOverlap hn

theorem check_eq_ok : b.check = .ok () ↔
    (∀ w, checkLayer (.regular w) (b.regular w) = .ok ()) ∧
    (∀ d, checkLayer (.dated d) ((b.dated d).getD []) = .ok ()) ∧
    checkLayer .holiday b.holiday = .ok () := by
  simp only [check, Except.bind_unit_eq_ok, Except.forM_eq_ok, Weekday.mem_all, MonthDay.mem_all,
    forall_const]

theorem build_eq_ok : b.build = .ok r ↔ b.check = .ok () ∧ b.sortedRules = r := by
  simp only [build, Except.bind_unit_eq_ok]
  exact and_congr_right fun _ => ⟨Except.ok.inj, congrArg Except.ok⟩

end RuleSetBuilder

namespace RuleSet

-- Each hour has ended before the next one of its sequence opens.
structure Apart (r : RuleSet) : Prop where
  regular : ∀ w, (r.regular w).Pairwise fun a b => a.closesAt < b.opensAt
  dated : ∀ d hours, r.dated d = some hours → hours.Pairwise fun a b => a.closesAt < b.opensAt
  holiday : r.holiday.Pairwise fun a b => a.closesAt < b.opensAt

theorem apart_of_build {b : RuleSetBuilder} {r : RuleSet} (h : b.build = .ok r) : r.Apart := by
  obtain ⟨hc, rfl⟩ := RuleSetBuilder.build_eq_ok.mp h
  have ⟨hr, hd, hh⟩ := RuleSetBuilder.check_eq_ok.mp hc
  refine ⟨fun w => RuleSetBuilder.pairwise_of_checkLayer (hr w), fun d hours h => ?_,
    RuleSetBuilder.pairwise_of_checkLayer hh⟩
  obtain ⟨hours, hb, rfl⟩ := Option.map_eq_some_iff.mp h
  have := RuleSetBuilder.pairwise_of_checkLayer (hd d)
  rwa [hb] at this

-- The hours that some date may have.
inductive Mentions (r : RuleSet) (h : OpeningHour) : Prop
  | regular (w : Weekday) (hm : h ∈ r.regular w)
  | dated (d : MonthDay) (hours : List OpeningHour) (hd : r.dated d = some hours) (hm : h ∈ hours)
  | holiday (hm : h ∈ r.holiday)

-- No hour unlocks or locks the door further than a day off its range.
def WithinDay (r : RuleSet) : Prop :=
  ∀ h, r.Mentions h → h.openBefore ≤ .ofSeconds 86400 ∧ h.closeAfter ≤ .ofSeconds 86400

theorem not_mentions_of_isEmpty {r : RuleSet} {h : OpeningHour} (he : r.isEmpty) :
    ¬r.Mentions h := by
  simp only [isEmpty, Bool.and_eq_true, List.all_eq_true, List.isEmpty_iff] at he
  have ⟨⟨hr, hd⟩, hh⟩ := he
  intro hm
  cases hm
  case regular w hm => simp [hr w (Weekday.mem_all w)] at hm
  case dated d hours hs hm =>
    have := hd d (MonthDay.mem_all d)
    rw [hs] at this
    cases this
    cases hm
  case holiday hm => simp [hh] at hm

end RuleSet

end EntryDoor
