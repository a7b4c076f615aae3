import EntryDoor.Proofs.Schedule.Overlap
import Mathlib.Data.List.Perm.Subperm

namespace EntryDoor

namespace Except

variable {α ε : Type}

theorem bind_unit_eq_error {x : Except ε Unit} {f : Unit → Except ε α} {e : ε} :
    x >>= f = .error e ↔ x = .error e ∨ x = .ok () ∧ f () = .error e := by
  cases x with
  | ok => exact ⟨fun h => .inr ⟨rfl, h⟩, fun h => (h.resolve_left nofun).2⟩
  | error e' =>
    have hbind : (.error e' : Except ε Unit) >>= f = .error e' := rfl
    rw [hbind]
    exact ⟨fun h => .inl (Except.error.inj h ▸ rfl),
      fun h => Except.error.inj (h.resolve_right nofun) ▸ rfl⟩

theorem exists_of_forM_eq_error {f : α → Except ε Unit} {l : List α} {e : ε}
    (h : l.forM f = .error e) : ∃ a ∈ l, f a = .error e := by
  induction l with
  | nil => cases h
  | cons a l ih =>
    rcases bind_unit_eq_error.mp h with ha | ⟨-, hl⟩
    case inl => exact ⟨a, List.mem_cons_self, ha⟩
    case inr =>
      have ⟨b, hb, hf⟩ := ih hl
      exact ⟨b, .tail _ hb, hf⟩

end Except

-- The hours that a layer has of its own.
def RuleSet.hours (r : RuleSet) : Layer → List OpeningHour
  | .regular day => r.regular day
  | .dated day => (r.dated day).getD []
  | .holiday => r.holiday

-- The hours collected for a layer so far.
def RuleSetBuilder.hours (b : RuleSetBuilder) : Layer → List OpeningHour
  | .regular day => b.regular day
  | .dated day => (b.dated day).getD []
  | .holiday => b.holiday

inductive Addition
  | regular (day : Weekday) (hour : OpeningHour)
  | dated (day : MonthDay) (hour : OpeningHour)
  | closing (day : MonthDay)
  | holiday (hour : OpeningHour)

namespace Addition

variable {a : Addition} {b : RuleSetBuilder} {layer : Layer} {day : MonthDay}

def apply (b : RuleSetBuilder) : Addition → RuleSetBuilder
  | regular day hour => b.addRegular day hour
  | dated day hour => b.addDated day hour
  | closing day => b.closeOn day
  | holiday hour => b.addHoliday hour

-- The hour that is added to a layer, if any.
def hourOf (layer : Layer) : Addition → Option OpeningHour
  | regular day hour => if layer = .regular day then some hour else none
  | dated day hour => if layer = .dated day then some hour else none
  | closing _ => none
  | holiday hour => if layer = .holiday then some hour else none

-- The addition gives a recurring day an entry of its own.
def Marks (day : MonthDay) : Addition → Prop
  | dated day' _ => day = day'
  | closing day' => day = day'
  | regular .. | holiday _ => False

theorem hours_apply : (a.apply b).hours layer = b.hours layer ++ (a.hourOf layer).toList := by
  cases a <;> cases layer <;>
    simp [apply, hourOf, RuleSetBuilder.hours, RuleSetBuilder.addRegular, RuleSetBuilder.addDated,
      RuleSetBuilder.closeOn, RuleSetBuilder.addHoliday] <;>
    split <;> simp

theorem isSome_dated_apply : ((a.apply b).dated day).isSome ↔ (b.dated day).isSome ∨ a.Marks day := by
  cases a <;>
    simp [apply, Marks, RuleSetBuilder.addRegular, RuleSetBuilder.addDated, RuleSetBuilder.closeOn,
      RuleSetBuilder.addHoliday] <;>
    split <;> simp [*]

end Addition

-- The hours added to a layer, in the order of their additions.
def added (layer : Layer) (additions : List Addition) : List OpeningHour :=
  additions.filterMap (·.hourOf layer)

namespace RuleSetBuilder

variable {b : RuleSetBuilder} {r : RuleSet} {additions : List Addition} {layer : Layer}
  {hours : List OpeningHour} {first second : OpeningHour} {day : MonthDay} {e : ValidationError}

def ofAdditions (additions : List Addition) : RuleSetBuilder :=
  additions.foldl Addition.apply empty

theorem hours_foldl : (additions.foldl Addition.apply b).hours layer =
    b.hours layer ++ added layer additions := by
  induction additions generalizing b with
  | nil => exact (List.append_nil _).symm
  | cons a additions ih =>
    rw [List.foldl_cons, ih, Addition.hours_apply, List.append_assoc, added, added,
      List.filterMap_cons]
    cases a.hourOf layer <;> rfl

theorem hours_ofAdditions : (ofAdditions additions).hours layer = added layer additions := by
  rw [ofAdditions, hours_foldl]
  cases layer <;> rfl

theorem isSome_dated_foldl : ((additions.foldl Addition.apply b).dated day).isSome ↔
    (b.dated day).isSome ∨ ∃ a ∈ additions, a.Marks day := by
  induction additions generalizing b with
  | nil => simp
  | cons a additions ih =>
    rw [List.foldl_cons, ih, Addition.isSome_dated_apply]
    simp [or_assoc]

theorem isSome_dated_ofAdditions :
    ((ofAdditions additions).dated day).isSome ↔ ∃ a ∈ additions, a.Marks day := by
  rw [ofAdditions, isSome_dated_foldl]
  exact or_iff_right nofun

theorem disjoint_iff_hours :
    b.Disjoint ↔ ∀ layer, (b.hours layer).Pairwise fun a b => ¬a.Overlaps b := by
  constructor
  case mp =>
    intro h layer
    cases layer with
    | regular w => exact h.regular w
    | dated d =>
      show ((b.dated d).getD []).Pairwise _
      cases hd : b.dated d with
      | none => exact .nil
      | some hours => exact h.dated d hours hd
    | holiday => exact h.holiday
  case mpr =>
    intro h
    refine ⟨fun w => h (.regular w), fun d hours hd => ?_, h .holiday⟩
    have hp : ((b.dated d).getD []).Pairwise _ := h (.dated d)
    rwa [hd] at hp

theorem hours_sortedRules : b.sortedRules.hours layer = sorted (b.hours layer) := by
  cases layer with
  | regular | holiday => rfl
  | dated d =>
    show ((b.dated d).map sorted).getD [] = sorted ((b.dated d).getD [])
    cases b.dated d with
    | none => exact List.mergeSort_nil.symm
    | some => rfl

-- The two hours are neighbours, and the first one comes before the other in the order of starts.
theorem sublist_of_firstOverlap (h : firstOverlap hours = some (first, second)) :
    [first, second].Sublist hours ∧ second.opensAt ≤ first.closesAt := by
  induction hours with
  | nil => cases h
  | cons a hours ih =>
    cases hours with
    | nil => cases h
    | cons b rest =>
      rw [firstOverlap] at h
      split at h
      case isTrue hab =>
        cases h
        exact ⟨.cons_cons _ (.cons_cons _ (List.nil_sublist _)), hab⟩
      case isFalse =>
        obtain ⟨hs, hle⟩ := ih h
        exact ⟨hs.cons _, hle⟩

theorem overlaps_of_firstOverlap (h : firstOverlap (sorted hours) = some (first, second)) :
    [first, second].Subperm hours ∧ first.Overlaps second := by
  obtain ⟨hs, hle⟩ := sublist_of_firstOverlap h
  have hstart := List.rel_of_pairwise_cons ((pairwise_sorted hours).sublist hs) List.mem_cons_self
  refine ⟨hs.subperm.trans (sorted_perm hours).subperm, Classical.not_not.mp fun hn => ?_⟩
  have hlt := OpeningHour.closesAt_lt_of_start_le hn hstart
  omega

theorem overlaps_of_checkLayer (h : checkLayer layer hours = .error e) :
    ∃ first second, e = .overlappingHours layer first second ∧
      [first, second].Subperm hours ∧ first.Overlaps second := by
  unfold checkLayer at h
  split at h
  case h_1 first second hf =>
    cases h
    exact ⟨first, second, rfl, overlaps_of_firstOverlap hf⟩
  case h_2 => cases h

theorem exists_checkLayer_of_build (h : b.build = .error e) :
    ∃ layer, checkLayer layer (b.hours layer) = .error e := by
  have hc : b.check = .error e := (Except.bind_unit_eq_error.mp h).resolve_right nofun
  rcases Except.bind_unit_eq_error.mp hc with hr | ⟨-, hc⟩
  case inl =>
    have ⟨w, _, hw⟩ := Except.exists_of_forM_eq_error hr
    exact ⟨.regular w, hw⟩
  case inr =>
    rcases Except.bind_unit_eq_error.mp hc with hd | ⟨-, hh⟩
    case inl =>
      have ⟨d, _, hd⟩ := Except.exists_of_forM_eq_error hd
      exact ⟨.dated d, hd⟩
    case inr => exact ⟨.holiday, hh⟩

-- Each of the hours starts, opens and closes before the next one does.
def InOrder (hours : List OpeningHour) : Prop :=
  hours.Pairwise fun a b =>
    a.range.start < b.range.start ∧ a.opensAt < b.opensAt ∧ a.closesAt < b.closesAt

theorem inOrder_of_closesAt_lt (h : hours.Pairwise fun a b => a.closesAt < b.opensAt) :
    InOrder hours := by
  refine h.imp fun {a b} hlt => ⟨OpeningHour.start_lt_of_closesAt_lt hlt, ?_, ?_⟩
  case refine_1 => exact Int.lt_trans a.opensAt_lt_closesAt hlt
  case refine_2 => exact Int.lt_trans hlt b.opensAt_lt_closesAt

-- The rules hold what was added, in order, and an entry for each day that was given one.
structure Holds (r : RuleSet) (additions : List Addition) : Prop where
  perm : ∀ layer, (r.hours layer).Perm (added layer additions)
  inOrder : ∀ layer, InOrder (r.hours layer)
  marked : ∀ day, (r.dated day).isSome ↔ ∃ a ∈ additions, a.Marks day

theorem holds_of_build (h : (ofAdditions additions).build = .ok r) : Holds r additions := by
  obtain ⟨hd, rfl⟩ := build_eq_ok_iff.mp h
  refine ⟨fun layer => ?perm, fun layer => ?inOrder, fun day => ?marked⟩
  case perm =>
    rw [hours_sortedRules, hours_ofAdditions]
    exact sorted_perm _
  case inOrder =>
    rw [hours_sortedRules]
    exact inOrder_of_closesAt_lt (pairwise_sorted_of_not_overlaps (disjoint_iff_hours.mp hd layer))
  case marked => rw [← isSome_dated_ofAdditions, sortedRules, Option.isSome_map]

theorem build_isOk_iff : (∃ r, b.build = .ok r) ↔ b.Disjoint :=
  ⟨fun ⟨_, h⟩ => (build_eq_ok_iff.mp h).1, fun h => ⟨_, build_eq_ok_iff.mpr ⟨h, rfl⟩⟩⟩

-- Any two hours of a layer are looked at, though only neighbours are compared.
theorem build_additions (additions : List Addition) :
    ((∃ r, (ofAdditions additions).build = .ok r) ↔
      ∀ layer, (added layer additions).Pairwise fun a b => ¬a.Overlaps b) ∧
    (∀ r, (ofAdditions additions).build = .ok r → Holds r additions) ∧
    ∀ e, (ofAdditions additions).build = .error e →
      ∃ layer first second, e = .overlappingHours layer first second ∧
        [first, second].Subperm (added layer additions) ∧ first.Overlaps second := by
  refine ⟨?isOk, fun r => holds_of_build, fun e h => ?error⟩
  case isOk =>
    rw [build_isOk_iff, disjoint_iff_hours]
    simp only [hours_ofAdditions]
  case error =>
    have ⟨layer, hc⟩ := exists_checkLayer_of_build h
    rw [hours_ofAdditions] at hc
    exact ⟨layer, overlaps_of_checkLayer hc⟩

-- Hours that only touch, five minutes past noon, overlap.
example : OpeningHour.Overlaps
    { range := ⟨⟨8, 0, by decide, by decide⟩, ⟨12, 0, by decide, by decide⟩, by decide⟩
      closeAfter := .ofMinutes 5 }
    { range := ⟨⟨12, 10, by decide, by decide⟩, ⟨14, 0, by decide, by decide⟩, by decide⟩
      openBefore := .ofMinutes 5 } := by
  decide

end RuleSetBuilder

end EntryDoor
