import EntryDoor.Calendar.Date
import EntryDoor.Duration

namespace EntryDoor

-- An instant in UTC. The last second of a minute may be a leap second: its nanoseconds then run on to twice a
-- second, and it lies between that second and the next minute.
structure Timestamp where
  seconds : Int
  nanos : Nat
  nanos_lt : nanos < 2000000000
  leap_ends_minute : 1000000000 ≤ nanos → seconds % 60 = 59
deriving DecidableEq, Repr

namespace Timestamp

-- Never a leap second.
def ofNanos (n : Int) : Timestamp where
  seconds := n / 1000000000
  nanos := (n % 1000000000).toNat
  nanos_lt := by omega
  leap_ends_minute := by omega

def ofSeconds (n : Int) : Timestamp where
  seconds := n
  nanos := 0
  nanos_lt := by omega
  leap_ends_minute := by omega

instance : Inhabited Timestamp := ⟨ofSeconds 0⟩

def nanosSinceEpoch (t : Timestamp) : Int :=
  t.seconds * 1000000000 + t.nanos

def rank (t : Timestamp) : Int :=
  t.seconds * 2000000000 + t.nanos

instance : LE Timestamp := ⟨fun a b => a.rank ≤ b.rank⟩

instance : LT Timestamp := ⟨fun a b => a.rank < b.rank⟩

instance (a b : Timestamp) : Decidable (a ≤ b) :=
  inferInstanceAs (Decidable (a.rank ≤ b.rank))

instance (a b : Timestamp) : Decidable (a < b) :=
  inferInstanceAs (Decidable (a.rank < b.rank))

theorem le_def {a b : Timestamp} : a ≤ b ↔ a.rank ≤ b.rank := Iff.rfl

theorem lt_def {a b : Timestamp} : a < b ↔ a.rank < b.rank := Iff.rfl

theorem eq_of_rank_eq {a b : Timestamp} (h : a.rank = b.rank) : a = b := by
  have ha := a.nanos_lt
  have hb := b.nanos_lt
  unfold rank at h
  have hs : a.seconds = b.seconds := by omega
  have hn : a.nanos = b.nanos := by omega
  cases a
  cases b
  simp_all

theorem le_antisymm {a b : Timestamp} (h₁ : a ≤ b) (h₂ : b ≤ a) : a = b :=
  eq_of_rank_eq (Int.le_antisymm h₁ h₂)

theorem le_trans {a b c : Timestamp} (h₁ : a ≤ b) (h₂ : b ≤ c) : a ≤ c :=
  Int.le_trans h₁ h₂

theorem lt_of_le_of_lt {a b c : Timestamp} (h₁ : a ≤ b) (h₂ : b < c) : a < c :=
  Int.lt_of_le_of_lt h₁ h₂

theorem le_of_lt {a b : Timestamp} (h : a < b) : a ≤ b :=
  Int.le_of_lt h

theorem lt_irrefl (a : Timestamp) : ¬ a < a :=
  Int.lt_irrefl _

theorem le_total (a b : Timestamp) : a ≤ b ∨ b ≤ a :=
  Int.le_total _ _

@[simp] theorem not_le {a b : Timestamp} : ¬ a ≤ b ↔ b < a := Int.not_le

@[simp] theorem not_lt {a b : Timestamp} : ¬ a < b ↔ b ≤ a := Int.not_lt

@[simp] theorem nanosSinceEpoch_ofNanos (n : Int) : (ofNanos n).nanosSinceEpoch = n := by
  simp only [nanosSinceEpoch, ofNanos]
  omega

@[simp] theorem nanosSinceEpoch_ofSeconds (n : Int) : (ofSeconds n).nanosSinceEpoch = n * 1000000000 := by
  simp [nanosSinceEpoch, ofSeconds]

theorem ofNanos_le_ofNanos {a b : Int} : ofNanos a ≤ ofNanos b ↔ a ≤ b := by
  simp only [le_def, rank, ofNanos]
  omega

theorem ofSeconds_le {n : Int} {t : Timestamp} : ofSeconds n ≤ t ↔ n ≤ t.seconds := by
  have := t.nanos_lt
  simp only [le_def, rank, ofSeconds]
  omega

theorem lt_ofSeconds {n : Int} {t : Timestamp} : t < ofSeconds n ↔ t.seconds < n := by
  have := t.nanos_lt
  simp only [lt_def, rank, ofSeconds]
  omega

-- The instant a number of nanoseconds later, or earlier if it is negative. Clocks that start within a leap
-- second run through what is left of it; other leap seconds take no time.
def shift (t : Timestamp) (n : Int) : Timestamp :=
  if h : 1000000000 ≤ t.nanos ∧ 1000000000 ≤ t.nanos + n then
    if h' : t.nanos + n < 2000000000 then
      { t with
        nanos := (t.nanos + n).toNat
        nanos_lt := by omega
        leap_ends_minute := fun _ => t.leap_ends_minute h.1 }
    else ofNanos (t.nanosSinceEpoch + n - 1000000000)
  else ofNanos (t.nanosSinceEpoch + n)

theorem shift_of_nanos_lt {t : Timestamp} (h : t.nanos < 1000000000) (n : Int) :
    t.shift n = ofNanos (t.nanosSinceEpoch + n) := by
  have : ¬ (1000000000 ≤ t.nanos ∧ 1000000000 ≤ t.nanos + n) := by omega
  simp [shift, this]

@[simp] theorem shift_ofSeconds (s n : Int) : (ofSeconds s).shift n = ofNanos (s * 1000000000 + n) := by
  rw [shift_of_nanos_lt (show (0 : Nat) < 1000000000 by decide), nanosSinceEpoch_ofSeconds]

instance : HAdd Timestamp Duration Timestamp := ⟨fun t d => t.shift d.nanos⟩

instance : HSub Timestamp Duration Timestamp := ⟨fun t d => t.shift (-d.nanos)⟩

def date (t : Timestamp) : Date :=
  ⟨t.seconds / 86400⟩

-- A leap second counts as the second before it.
def secondOfDay (t : Timestamp) : Nat :=
  (t.seconds % 86400).toNat

-- What a leap second adds to the time from `earlier` to `t`, in seconds: one if the time of day runs past a leap
-- second at which it starts, and one less if it runs back from a leap second at which it ends.
def leapBetween (t earlier : Timestamp) : Int :=
  if earlier.secondOfDay < t.secondOfDay then if 1000000000 ≤ earlier.nanos then 1 else 0
  else if t.secondOfDay < earlier.secondOfDay then if 1000000000 ≤ t.nanos then -1 else 0
  else 0

-- The time from `earlier` to `t`, zero if `t` has passed by then.
def since (t earlier : Timestamp) : Duration :=
  ⟨(t.nanosSinceEpoch - earlier.nanosSinceEpoch + t.leapBetween earlier * 1000000000).toNat⟩

end Timestamp

end EntryDoor
