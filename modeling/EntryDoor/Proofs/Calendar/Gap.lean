import EntryDoor.Proofs.Calendar.Local

namespace EntryDoor.Zone

variable {z : Zone} {since : Option Int} {pause : Nat} {offset start later s t u : Int}
variable {changes rest : List (Int × Int)} {wall : Int → Int} {a b : Int}

-- Each change moves the clocks by an hour at most, and comes `pause` seconds after the one before it or later.
def GentleFrom (pause : Nat) (since : Option Int) (offset : Int) : List (Int × Int) → Prop
  | [] => True
  | (start, later) :: rest =>
    (∀ s ∈ since, s + pause ≤ start) ∧ (later - offset).natAbs ≤ 3600 ∧ GentleFrom pause (some start) later rest

def GentleFrom.decide (pause : Nat) : (since : Option Int) → (offset : Int) → (changes : List (Int × Int)) →
    Decidable (GentleFrom pause since offset changes)
  | _, _, [] => .isTrue trivial
  | since, offset, (start, later) :: rest =>
    have := GentleFrom.decide pause (some start) later rest
    inferInstanceAs (Decidable ((∀ s ∈ since, s + pause ≤ start) ∧ (later - offset).natAbs ≤ 3600 ∧ _))

instance : Decidable (GentleFrom pause since offset changes) :=
  GentleFrom.decide ..

def Gentle (z : Zone) (pause : Nat) : Prop :=
  GentleFrom pause none z.initial z.changes

instance : Decidable (z.Gentle pause) :=
  inferInstanceAs (Decidable (GentleFrom ..))

-- What the clocks show under `offset` and the changes after it.
def wallFrom (offset : Int) (changes : List (Int × Int)) (t : Int) : Int :=
  t + offsetFrom offset changes t

theorem wallFrom_of_lt (h : t < start) : wallFrom offset ((start, later) :: rest) t = t + offset := by
  rw [wallFrom, offsetFrom, if_pos h]

theorem wallFrom_of_le (h : start ≤ t) : wallFrom offset ((start, later) :: rest) t = wallFrom later rest t := by
  rw [wallFrom, offsetFrom, if_neg (Int.not_lt.mpr h), wallFrom]

theorem exists_lt_wallFrom (bound a : Int) : ∃ u ≥ bound, a < wallFrom offset changes u := by
  induction changes generalizing bound offset with
  | nil => exact ⟨max bound (a - offset + 1), by omega, by simp only [wallFrom, offsetFrom]; omega⟩
  | cons c rest ih =>
    obtain ⟨start, later⟩ := c
    obtain ⟨u, hu, ha⟩ := @ih later (max bound start)
    exact ⟨u, by omega, by rw [wallFrom_of_le (by omega)]; exact ha⟩

-- Later changes do not take the clocks back behind the first one.
theorem GentleFrom.le (h : GentleFrom 3600 (some s) offset changes) (ht : s ≤ t) :
    s + offset ≤ wallFrom offset changes t := by
  induction changes generalizing s offset with
  | nil => simp only [wallFrom, offsetFrom]; omega
  | cons c rest ih =>
    obtain ⟨start, later⟩ := c
    obtain ⟨hs, hc, hr⟩ := h
    have hs := hs s rfl
    by_cases hlt : t < start
    case pos => rw [wallFrom_of_lt hlt]; omega
    case neg =>
      have := ih hr (by omega)
      rw [wallFrom_of_le (by omega)]
      omega

theorem GentleFrom.steady (h : GentleFrom 3600 (some s) offset changes) (ht : t < s + 3600) :
    wallFrom offset changes t = t + offset := by
  cases changes with
  | nil => rfl
  | cons c rest =>
    have := h.1 s rfl
    exact wallFrom_of_lt (by omega)

-- The clocks jump over `a` at `s`. They never come back to it, and run on for an hour.
structure Gap (wall : Int → Int) (a s : Int) : Prop where
  before : ∀ t < s, wall t < a
  lt : a < wall s
  le : wall s ≤ a + 3600
  after : ∀ t ≥ s, wall s ≤ wall t
  steady : ∀ t ≥ s, t < s + 3600 → wall t = wall s + (t - s)

theorem GentleFrom.gap (h : GentleFrom 3600 since offset ((start, later) :: rest)) (hs : start + offset ≤ a)
    (ha : a < start + later) : Gap (wallFrom offset ((start, later) :: rest)) a start := by
  obtain ⟨-, hc, hr⟩ := h
  have hw : wallFrom offset ((start, later) :: rest) start = start + later := by
    rw [wallFrom_of_le (Int.le_refl _), hr.steady (by omega)]
  refine ⟨fun t ht => ?_, by omega, by omega, fun t ht => ?_, fun t ht hlt => ?_⟩
  case refine_1 => rw [wallFrom_of_lt ht]; omega
  case refine_2 => rw [hw, wallFrom_of_le ht]; exact hr.le ht
  case refine_3 => rw [hw, wallFrom_of_le ht, hr.steady hlt]; omega

theorem Gap.cons (h : Gap (wallFrom later rest) a s) (hs : start ≤ s) (ha : start + offset ≤ a) :
    Gap (wallFrom offset ((start, later) :: rest)) a s := by
  have hw : ∀ t ≥ s, wallFrom offset ((start, later) :: rest) t = wallFrom later rest t :=
    fun t ht => wallFrom_of_le (Int.le_trans hs ht)
  have hs := hw s (Int.le_refl s)
  refine ⟨fun t ht => ?_, hs ▸ h.lt, hs ▸ h.le, fun t ht => ?_, fun t ht hlt => ?_⟩
  case refine_1 =>
    by_cases hlt : t < start
    case pos => rw [wallFrom_of_lt hlt]; omega
    case neg => rw [wallFrom_of_le (by omega)]; exact h.before t ht
  case refine_2 => rw [hs, hw t ht]; exact h.after t ht
  case refine_3 => rw [hs, hw t ht]; exact h.steady t ht hlt

-- The induction is on the changes. Up to the one that jumps over `a`, the clocks do not get to `a` by any change.
theorem GentleFrom.shown_or_gap (h : GentleFrom 3600 since offset changes) (hs : ∀ s ∈ since, s + offset ≤ a)
    (hu : a < wallFrom offset changes u) : (∃ t < u, (∀ s ∈ since, s ≤ t) ∧ wallFrom offset changes t = a) ∨
      ∃ t, (∀ s ∈ since, s ≤ t) ∧ Gap (wallFrom offset changes) a t := by
  have hle : ∀ s ∈ since, s ≤ a - offset := fun s hm => Int.le_sub_right_of_add_le (hs s hm)
  induction changes generalizing since offset with
  | nil =>
    simp only [wallFrom, offsetFrom] at hu ⊢
    exact .inl ⟨a - offset, by omega, hle, by omega⟩
  | cons c rest ih =>
    obtain ⟨start, later⟩ := c
    have hp : ∀ s ∈ since, s ≤ start := fun s hm => by have := h.1 s hm; omega
    by_cases hlt : a - offset < start
    case pos =>
      refine .inl ⟨a - offset, ?_, hle, by rw [wallFrom_of_lt hlt]; omega⟩
      by_cases hus : u < start
      case pos => rw [wallFrom_of_lt hus] at hu; omega
      case neg => omega
    case neg =>
      have hus : start ≤ u := Int.not_lt.mp fun hus => by rw [wallFrom_of_lt hus] at hu; omega
      by_cases hla : a < start + later
      case pos => exact .inr ⟨start, hp, h.gap (by omega) hla⟩
      case neg =>
        rw [wallFrom_of_le hus] at hu
        have hs' : ∀ s ∈ some start, s + later ≤ a := fun s hm => by cases hm; omega
        have hle' : ∀ s ∈ some start, s ≤ a - later := fun s hm => by cases hm; omega
        rcases ih h.2.2 hs' hu hle' with ⟨t, htu, hst, ht⟩ | ⟨s, hst, hg⟩
        case inl =>
          have hst := hst start rfl
          exact .inl ⟨t, htu, fun s hm => Int.le_trans (hp s hm) hst, by rw [wallFrom_of_le hst, ht]⟩
        case inr =>
          have hst := hst start rfl
          exact .inr ⟨s, fun s hm => Int.le_trans (hp s hm) hst, hg.cons hst (by omega)⟩

theorem Gentle.shown_or_gap (hz : z.Gentle 3600) (hu : a < z.wallTime u) :
    (∃ t < u, z.wallTime t = a) ∨ ∃ s, Gap z.wallTime a s := by
  rcases GentleFrom.shown_or_gap hz (fun _ h => nomatch h) hu with ⟨t, htu, -, ht⟩ | ⟨s, -, hg⟩
  case inl => exact .inl ⟨t, htu, ht⟩
  case inr => exact .inr ⟨s, hg⟩

theorem Gap.not_shows (h : Gap z.wallTime a s) : ¬z.Shows a := by
  rintro ⟨t, ht⟩
  by_cases hts : t < s
  case pos => exact absurd ht (Int.ne_of_lt (h.before t hts))
  case neg => exact absurd ht.symm (Int.ne_of_lt (Int.lt_of_lt_of_le h.lt (h.after t (Int.not_lt.mp hts))))

theorem Gap.le_of_shows (h : Gap z.wallTime a s) (hab : a ≤ b) (hb : z.Shows b) : z.wallTime s ≤ b := by
  obtain ⟨t, rfl⟩ := hb
  by_cases hts : t < s
  case pos => exact absurd (h.before t hts) (Int.not_lt.mpr hab)
  case neg => exact h.after t (Int.not_lt.mp hts)

theorem Gap.firstShows (h : Gap z.wallTime a s) (hb : z.wallTime s ≤ b) (hlt : b < z.wallTime s + 3600) :
    z.FirstShows b (s + (b - z.wallTime s)) := by
  refine ⟨?_, fun u hu => Int.not_lt.mp fun hlt => ?_⟩
  case refine_1 =>
    have := h.steady (s + (b - z.wallTime s)) (by grind) (by grind)
    grind
  case refine_2 =>
    by_cases hus : u < s
    case pos => grind [h.before u hus, h.lt]
    case neg => grind [h.steady u (Int.not_lt.mp hus) (by grind)]

theorem Gentle.exists_gap (hz : z.Gentle 3600) (ha : ¬z.Shows a) : ∃ s, Gap z.wallTime a s := by
  have ⟨u, _, hu⟩ := @exists_lt_wallFrom z.initial z.changes 0 a
  rcases hz.shown_or_gap hu with ⟨t, -, ht⟩ | hg
  case inl => exact absurd ⟨t, ht⟩ ha
  case inr => exact hg

theorem Gap.shows_later (h : Gap z.wallTime a s) : z.Shows (a + 3600) :=
  ⟨_, (h.firstShows h.le (Int.add_lt_add_right h.lt 3600)).shows⟩

theorem Gentle.promised (hz : z.Gentle 3600) : z.Promised a := by
  by_cases ha : z.Shows a
  case pos => exact .of_shows ha
  case neg =>
    have ⟨_, hg⟩ := hz.exists_gap ha
    exact .of_skipped ha hg.shows_later

example : vienna.Promised a :=
  Gentle.promised (by decide +kernel)

theorem FirstShows.lt (hz : z.Gentle 3600) (h : a < b) (ha : z.FirstShows a t) (hb : z.FirstShows b u) : t < u := by
  rcases hz.shown_or_gap (hb.shows.symm ▸ h) with ⟨r, hru, hr⟩ | ⟨s, hg⟩
  case inl => exact Int.lt_of_le_of_lt (ha.le r hr) hru
  case inr => exact absurd ⟨t, ha.shows⟩ hg.not_shows

-- The local time that `a` is taken as.
def readAs (z : Zone) (a : WallTime) : WallTime :=
  if z.Shows a then a else a + 3600

theorem readAs_of_shows (h : z.Shows a) : z.readAs a = a :=
  if_pos h

theorem readAs_of_skipped (h : ¬z.Shows a) : z.readAs a = a + 3600 :=
  if_neg h

theorem Gentle.firstShows_readAs (hz : z.Gentle 3600) (a : WallTime) : z.FirstShows (z.readAs a) (z.resolve a) := by
  by_cases ha : z.Shows a
  case pos =>
    rw [readAs_of_shows ha]
    exact firstShows_resolve ha
  case neg =>
    have ⟨_, hg⟩ := hz.exists_gap ha
    rw [readAs_of_skipped ha]
    exact firstShows_resolve_of_skipped ha hg.shows_later

-- Local times stand for instants in the order in which they are read. A time that the clocks skip is read an
-- hour later.
theorem Gentle.resolve_lt_resolve_iff (hz : z.Gentle 3600) :
    z.resolve a < z.resolve b ↔ z.readAs a < z.readAs b := by
  have ha := hz.firstShows_readAs a
  have hb := hz.firstShows_readAs b
  rcases Int.lt_trichotomy (z.readAs a) (z.readAs b) with h | h | h
  case inl => exact iff_of_true (ha.lt hz h hb) h
  case inr.inl =>
    have he := ha.eq (h ▸ hb)
    exact iff_of_false (he ▸ Int.lt_irrefl _) (h ▸ Int.lt_irrefl _)
  case inr.inr => exact iff_of_false (Int.lt_asymm (hb.lt hz h ha)) (Int.lt_asymm h)

-- The clocks skip `a`, and show `b` before the time that `a` is taken as.
structure Crosses (z : Zone) (a b : WallTime) : Prop where
  skipped : ¬z.Shows a
  shown : z.Shows b
  lt : b < a + 3600

instance {a b : WallTime} : Decidable (z.Crosses a b) :=
  decidable_of_iff (¬z.Shows a ∧ z.Shows b ∧ b < a + 3600)
    ⟨fun ⟨ha, hb, hlt⟩ => ⟨ha, hb, hlt⟩, fun ⟨ha, hb, hlt⟩ => ⟨ha, hb, hlt⟩⟩

theorem readAs_lt_readAs_iff (h : a < b) : z.readAs b < z.readAs a ↔ z.Crosses a b := by
  by_cases ha : z.Shows a
  case pos =>
    have hle : a ≤ z.readAs b := by unfold readAs; split <;> grind
    rw [readAs_of_shows ha]
    exact iff_of_false (Int.not_lt.mpr hle) fun hc => hc.skipped ha
  case neg =>
    by_cases hb : z.Shows b
    case pos =>
      rw [readAs_of_skipped ha, readAs_of_shows hb]
      exact ⟨fun hlt => ⟨ha, hb, hlt⟩, Crosses.lt⟩
    case neg =>
      rw [readAs_of_skipped ha, readAs_of_skipped hb]
      exact iff_of_false (Int.lt_asymm (Int.add_lt_add_right h 3600)) fun hc => hb hc.shown

theorem Gentle.resolve_of_crosses (hz : z.Gentle 3600) (h : a < b) (hc : z.Crosses a b) :
    z.resolve a = z.resolve b + (a + 3600 - b) := by
  have ⟨s, hg⟩ := hz.exists_gap hc.skipped
  have hlt : a + 3600 < z.wallTime s + 3600 := Int.add_lt_add_right hg.lt 3600
  have ha := hg.firstShows hg.le hlt
  have hb := hg.firstShows (hg.le_of_shows (Int.le_of_lt h) hc.shown) (Int.lt_trans hc.lt hlt)
  rw [(firstShows_resolve_of_skipped hc.skipped hg.shows_later).eq ha, (firstShows_resolve hc.shown).eq hb]
  omega

end EntryDoor.Zone
