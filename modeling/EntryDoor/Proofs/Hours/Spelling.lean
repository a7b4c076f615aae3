import EntryDoor.Proofs.Hours.ReadBack
import EntryDoor.Proofs.Schedule.Rules

namespace EntryDoor

open Text

namespace Text

variable {mark : Char} {s a b : List Char} {n : Nat}

-- One or more ASCII digits that stand for `n`. Zeros in front do not count.
structure Numeral (n : Nat) (s : List Char) : Prop where
  ne_nil : s ≠ []
  digits : ∀ c ∈ s, c.isDigit
  value : Nat.ofDigitChars 10 s 0 = n

theorem numeral?_eq_some_iff : numeral? s = some n ↔ Numeral n s := by
  simp only [numeral?, Option.ite_none_right_eq_some, List.all_eq_true, Option.some.injEq]
  refine ⟨?_, fun h => ⟨⟨h.ne_nil, h.digits⟩, h.value⟩⟩
  rintro ⟨⟨hn, hd⟩, hv⟩
  exact ⟨hn, hd, hv⟩

theorem Numeral.not_mem (h : Numeral n s) (hm : ¬mark.isDigit) : mark ∉ s :=
  fun hs => hm (h.digits mark hs)

theorem splitAt?_eq_some_iff : splitAt? mark s = some (a, b) ↔ s = a ++ mark :: b ∧ mark ∉ a :=
  ⟨eq_append_of_splitAt?, fun ⟨h, ha⟩ => h ▸ splitAt?_append ha⟩

theorem count_eq_one_iff (h : s = a ++ mark :: b) : s.count mark = 1 ↔ mark ∉ a ∧ mark ∉ b := by
  rw [h, List.count_append, List.count_cons_self, ← List.count_eq_zero, ← List.count_eq_zero]
  omega

end Text

namespace DayTime

variable {d : DayTime} {s : List Char}

-- Two numerals with a colon between them.
def Spells (d : DayTime) (s : List Char) : Prop :=
  ∃ hour minute, s = hour ++ ':' :: minute ∧ Numeral d.hour hour ∧ Numeral d.minute minute

theorem Spells.isDigit_or_eq {c : Char} (h : d.Spells s) (hc : c ∈ s) : c.isDigit ∨ c = ':' := by
  obtain ⟨hour, minute, rfl, hh, hm⟩ := h
  rw [List.mem_append, List.mem_cons] at hc
  rcases hc with hc | hc | hc
  · exact .inl (hh.digits c hc)
  · exact .inr hc
  · exact .inl (hm.digits c hc)

theorem Spells.not_isBlank (h : d.Spells s) : ∀ c ∈ s, ¬isBlank c := by
  intro c hc
  rcases h.isDigit_or_eq hc with hd | rfl
  case inl => exact not_isBlank_of_isDigit hd
  case inr => decide

theorem Spells.ne_nil (h : d.Spells s) : s ≠ [] := by
  obtain ⟨hour, minute, rfl, -⟩ := h
  simp

-- The colon is the first one, for there is none among digits.
theorem ofChars?_eq_some_iff : ofChars? s = some d ↔ d.Spells s := by
  simp only [ofChars?, Option.bind_eq_bind, Option.bind_eq_some_iff]
  constructor
  case mp =>
    rintro ⟨⟨hour, minute⟩, hs, h, hh, m, hm, hd⟩
    split at hd <;> cases hd
    exact ⟨hour, minute, (eq_append_of_splitAt? hs).1, numeral?_eq_some_iff.mp hh,
      numeral?_eq_some_iff.mp hm⟩
  case mpr =>
    rintro ⟨hour, minute, rfl, hh, hm⟩
    refine ⟨(hour, minute), splitAt?_append (hh.not_mem (by decide)), d.hour,
      numeral?_eq_some_iff.mpr hh, d.minute, numeral?_eq_some_iff.mpr hm, ?_⟩
    exact dif_pos ⟨d.hour_lt, d.minute_lt⟩

theorem ofChars_eq_ok_iff : ofChars s = .ok d ↔ d.Spells s := by
  rw [← ofChars?_eq_some_iff, ofChars]
  split <;> simp_all

theorem ofChars_eq_error (h : ∀ d : DayTime, ¬d.Spells s) :
    ofChars s = .error (.invalidDayTime (String.ofList s)) := by
  rw [ofChars]
  split
  case h_1 d hd => exact absurd (ofChars?_eq_some_iff.mp hd) (h d)
  case h_2 => rfl

-- A spelling with blanks around it.
def SpelledIn (d : DayTime) (s : List Char) : Prop :=
  ∃ a t b, s = a ++ t ++ b ∧ (∀ c ∈ a, isBlank c) ∧ (∀ c ∈ b, isBlank c) ∧ d.Spells t

theorem spelledIn_iff : d.SpelledIn s ↔ d.Spells (trim s) := by
  constructor
  case mp =>
    rintro ⟨a, t, b, rfl, ha, hb, ht⟩
    rwa [trim_append ht.not_isBlank ht.ne_nil ha hb]
  case mpr =>
    intro h
    have ⟨a, b, hs, ha, hb⟩ := eq_append_trim s
    exact ⟨a, trim s, b, hs, List.all_eq_true.mp ha, List.all_eq_true.mp hb, h⟩

end DayTime

namespace DayTimeRange

variable {r : DayTimeRange} {s a b : List Char}

theorem new_eq_ok_iff {x y : DayTime} : new x y = .ok r ↔ r.start = x ∧ r.stop = y := by
  unfold new
  split
  case isTrue =>
    rw [Except.ok.injEq]
    exact ⟨fun h => h ▸ ⟨rfl, rfl⟩, fun ⟨hx, hy⟩ => by subst hx hy; rfl⟩
  case isFalse h =>
    refine ⟨nofun, fun ⟨hx, hy⟩ => ?_⟩
    exact absurd (hx ▸ hy ▸ r.start_lt_stop) h

-- Once there is one hyphen, the times decide, the first one first.
theorem ofChars_eq (hs : s = a ++ '-' :: b) (hc : s.count '-' = 1) :
    ofChars s = (DayTime.ofChars (trim a) >>= fun x => DayTime.ofChars (trim b) >>= new x) := by
  have ⟨ha, hb⟩ := (count_eq_one_iff hs).mp hc
  rw [ofChars, splitAt?_eq_some_iff.mpr ⟨hs, ha⟩]
  exact if_neg hb

theorem ofChars_of_count_ne_one (hc : s.count '-' ≠ 1) :
    ofChars s = .error (.invalidRange (String.ofList s)) := by
  unfold ofChars
  split
  case h_1 => rfl
  case h_2 a b h =>
    have ⟨hs, ha⟩ := splitAt?_eq_some_iff.mp h
    refine if_pos (Classical.byContradiction fun hb => ?_)
    exact hc ((count_eq_one_iff hs).mpr ⟨ha, hb⟩)

-- Two times, each with blanks around it, and a hyphen between them.
def Spells (r : DayTimeRange) (s : List Char) : Prop :=
  ∃ a b, s = a ++ '-' :: b ∧ r.start.SpelledIn a ∧ r.stop.SpelledIn b

theorem ofChars_eq_ok_iff : ofChars s = .ok r ↔ s.count '-' = 1 ∧ r.Spells s := by
  by_cases hc : s.count '-' = 1
  case neg => simp [ofChars_of_count_ne_one hc, hc]
  case pos =>
    have hm : '-' ∈ s := List.count_pos_iff.mp (by omega)
    simp only [hc, true_and]
    constructor
    case mp =>
      intro h
      obtain ⟨a, b, hs, -⟩ := List.eq_append_cons_of_mem hm
      rw [ofChars_eq hs hc] at h
      obtain ⟨x, hx, h⟩ := Except.bind_eq_ok.mp h
      obtain ⟨y, hy, h⟩ := Except.bind_eq_ok.mp h
      obtain ⟨rfl, rfl⟩ := new_eq_ok_iff.mp h
      rw [DayTime.ofChars_eq_ok_iff, ← DayTime.spelledIn_iff] at hx hy
      exact ⟨a, b, hs, hx, hy⟩
    case mpr =>
      rintro ⟨a, b, hs, hx, hy⟩
      rw [DayTime.spelledIn_iff, ← DayTime.ofChars_eq_ok_iff] at hx hy
      rw [ofChars_eq hs hc, hx, hy]
      exact new_eq_ok_iff.mpr ⟨rfl, rfl⟩

-- What comes of reading `s` as a range.
structure Reads (s : String) : Prop where
  accepts : ∀ r, read s = .ok r ↔ s.toList.count '-' = 1 ∧ r.Spells s.toList
  -- The written form is a spelling itself, and the same one for all spellings of a range.
  written : ∀ r : DayTimeRange, read (toString r) = .ok r
  canonical : ∀ s' r r', read s = .ok r → read s' = .ok r' → (toString r = toString r' ↔ r = r')
  hyphens : s.toList.count '-' ≠ 1 → read s = .error (.invalidRange s)
  first : ∀ a b, s.toList = a ++ '-' :: b → s.toList.count '-' = 1 →
    (∀ d : DayTime, ¬d.Spells (trim a)) →
      read s = .error (.invalidDayTime (String.ofList (trim a)))
  second : ∀ a b (x : DayTime), s.toList = a ++ '-' :: b → s.toList.count '-' = 1 →
    x.Spells (trim a) → (∀ d : DayTime, ¬d.Spells (trim b)) →
      read s = .error (.invalidDayTime (String.ofList (trim b)))
  order : ∀ a b (x y : DayTime), s.toList = a ++ '-' :: b → s.toList.count '-' = 1 →
    x.Spells (trim a) → y.Spells (trim b) → ¬x < y → read s = .error (.emptyRange x y)

theorem toString_inj {r r' : DayTimeRange} : toString r = toString r' ↔ r = r' := by
  refine ⟨fun h => ?_, fun h => h ▸ rfl⟩
  have hr := r.read_toString
  rw [h, r'.read_toString] at hr
  exact (Except.ok.inj hr).symm

theorem readsSpellings (s : String) : Reads s where
  accepts r := ofChars_eq_ok_iff
  written r := r.read_toString
  canonical _ _ _ _ _ := toString_inj
  hyphens hc := by
    rw [read, ofChars_of_count_ne_one hc, String.ofList_toList]
  first a b hs hc hx := by
    rw [read, ofChars_eq hs hc, DayTime.ofChars_eq_error hx]
    rfl
  second a b x hs hc hx hy := by
    rw [read, ofChars_eq hs hc, DayTime.ofChars_eq_ok_iff.mpr hx, DayTime.ofChars_eq_error hy]
    rfl
  order a b x y hs hc hx hy hlt := by
    rw [read, ofChars_eq hs hc, DayTime.ofChars_eq_ok_iff.mpr hx, DayTime.ofChars_eq_ok_iff.mpr hy]
    exact dif_neg hlt

end DayTimeRange

end EntryDoor
