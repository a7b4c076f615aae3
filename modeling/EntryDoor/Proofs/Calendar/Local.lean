import EntryDoor.Calendar.ZoneTable

namespace EntryDoor.Zone

variable {z : Zone} {since : Option Int} {offset t : Int} {changes : List (Int × Int)} {w : WallTime}

-- Each reading comes from a stretch between two changes, and later stretches from later changes.
theorem pairwise_readingsFrom : (readingsFrom since offset changes w).Pairwise (· < ·) := by
  induction changes generalizing since offset with
  | nil =>
    unfold readingsFrom
    split
    · exact List.pairwise_singleton _ _
    · exact .nil
  | cons c rest ih =>
    obtain ⟨start, later⟩ := c
    unfold readingsFrom
    refine List.pairwise_append.mpr ⟨?_, ih, fun t ht u hu => ?_⟩
    case refine_1 =>
      split
      · exact List.pairwise_singleton _ _
      · exact .nil
    case refine_2 =>
      have hu := (mem_readingsFrom.mp hu).1
      have hle : start ≤ u := by
        cases since <;> simp only [Option.elim, Option.all_some, decide_eq_true_eq] at hu <;> omega
      split at ht
      case isTrue h =>
        cases List.mem_singleton.mp ht
        exact Int.lt_of_lt_of_le h.2 hle
      case isFalse => cases ht

-- The clocks show `w` at some instant.
def Shows (z : Zone) (w : WallTime) : Prop :=
  ∃ t, z.wallTime t = w

-- `t` is the first instant at which they do.
structure FirstShows (z : Zone) (w : WallTime) (t : Int) : Prop where
  shows : z.wallTime t = w
  le : ∀ u, z.wallTime u = w → t ≤ u

theorem FirstShows.eq {t u : Int} (ht : z.FirstShows w t) (hu : z.FirstShows w u) : t = u :=
  Int.le_antisymm (ht.le u hu.shows) (hu.le t ht.shows)

theorem readings_eq_nil_iff : z.readings w = [] ↔ ¬z.Shows w := by
  simp only [List.eq_nil_iff_forall_not_mem, mem_readings, Shows, not_exists]

instance : Decidable (z.Shows w) :=
  decidable_of_iff (z.readings w ≠ []) (by rw [ne_eq, readings_eq_nil_iff, Classical.not_not])

theorem firstShows_of_readings {ts : List Int} (h : z.readings w = t :: ts) : z.FirstShows w t := by
  have hp := @pairwise_readingsFrom none z.initial z.changes w
  rw [← readings, h] at hp
  refine ⟨mem_readings.mp (by simp [h]), fun u hu => ?_⟩
  rw [← mem_readings, h, List.mem_cons] at hu
  rcases hu with rfl | hu
  case inl => exact Int.le_refl _
  case inr => exact Int.le_of_lt (List.rel_of_pairwise_cons hp hu)

theorem firstShows_resolve (h : z.Shows w) : z.FirstShows w (z.resolve w) := by
  unfold resolve
  split
  case h_1 hr => exact firstShows_of_readings hr
  case h_2 hr => exact absurd h (readings_eq_nil_iff.mp hr)

theorem firstShows_resolve_of_skipped (h : ¬z.Shows w) (hl : z.Shows (w + 3600)) :
    z.FirstShows (w + 3600) (z.resolve w) := by
  unfold resolve
  rw [readings_eq_nil_iff.mpr h]
  dsimp only
  split
  case h_1 hr => exact firstShows_of_readings hr
  case h_2 hr => exact absurd hl (readings_eq_nil_iff.mp hr)

theorem resolve_of_skipped (h : ¬z.Shows w) (hl : ¬z.Shows (w + 3600)) : z.resolve w = w := by
  unfold resolve
  rw [readings_eq_nil_iff.mpr h, readings_eq_nil_iff.mpr hl]

-- A local time never stands for an instant at which the clocks have not come to it.
structure Promised (z : Zone) (w : WallTime) : Prop where
  shown : z.Shows w → z.FirstShows w (z.resolve w)
  skipped : ¬z.Shows w → w < z.wallTime (z.resolve w)
  le : w ≤ z.wallTime (z.resolve w)

theorem Promised.of_shows (h : z.Shows w) : z.Promised w where
  shown _ := firstShows_resolve h
  skipped hs := absurd h hs
  le := Int.le_of_eq (firstShows_resolve h).shows.symm

theorem Promised.of_lt (h : w < z.wallTime (z.resolve w)) : z.Promised w where
  shown := firstShows_resolve
  skipped _ := h
  le := Int.le_of_lt h

theorem Promised.of_skipped (h : ¬z.Shows w) (hl : z.Shows (w + 3600)) : z.Promised w := by
  refine .of_lt ?_
  rw [(firstShows_resolve_of_skipped h hl).shows]
  exact Int.lt_add_of_pos_right w (by decide)

theorem promised_iff : z.Promised w ↔ z.Shows w ∨ z.Shows (w + 3600) ∨ 0 < z.offsetAt w := by
  by_cases h : z.Shows w
  case pos => exact ⟨fun _ => .inl h, fun _ => .of_shows h⟩
  by_cases hl : z.Shows (w + 3600)
  case pos => exact ⟨fun _ => .inr (.inl hl), fun _ => .of_skipped h hl⟩
  case neg =>
    have hlt : w < z.wallTime (z.resolve w) ↔ 0 < z.offsetAt w := by
      rw [resolve_of_skipped h hl]
      grind [wallTime]
    constructor
    case mp => exact fun hp => .inr (.inr (hlt.mp (hp.skipped h)))
    case mpr =>
      rintro (hs | hs | ho)
      case inl => exact absurd hs h
      case inr.inl => exact absurd hs hl
      case inr.inr => exact .of_lt (hlt.mpr ho)

-- Half past midnight of a day that the clocks skip. The instant that it stands for is on the day before.
theorem not_promised_apia :
    ¬apia.Promised ((Date.ofCivil 2011 12 30).dayNumber * 86400 + 1800) := by
  intro h
  have hle := h.le
  revert hle
  decide +kernel

end EntryDoor.Zone
