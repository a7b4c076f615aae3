import EntryDoor.Text.Blank
import EntryDoor.Text.Numeral
import Mathlib.Data.List.TakeWhile

namespace EntryDoor.Text

variable {c mark : Char} {r s a b : List Char} {width n : Nat}

theorem not_isBlank_of_isDigit (h : c.isDigit) : ¬isBlank c := by
  simp only [Char.isDigit, Bool.and_eq_true, decide_eq_true_eq, UInt32.le_iff_toNat_le,
    ge_iff_le] at h
  simp only [isBlank, Bool.or_eq_true, Bool.and_eq_true, decide_eq_true_eq, beq_iff_eq, Char.le_def,
    Char.ext_iff, UInt32.le_iff_toNat_le, ← UInt32.toNat_inj]
  simp only [Char.reduceVal, UInt32.reduceToNat] at *
  omega

theorem not_mem_padded (h : ¬mark.isDigit) : mark ∉ padded width n :=
  fun hm => h (isDigit_of_mem_padded hm)

theorem exists_padded_eq_cons (width n : Nat) : ∃ c s, padded width n = c :: s ∧ c.isDigit := by
  have hd : ∀ c ∈ padded width n, c.isDigit := fun _ => isDigit_of_mem_padded
  cases hp : padded width n with
  | nil => exact absurd hp (padded_ne_nil width n)
  | cons c s =>
    rw [hp] at hd
    exact ⟨c, s, rfl, hd c List.mem_cons_self⟩

section

variable {width' n' : Nat}

-- Two numerals with a mark between them hold nothing else.
theorem isDigit_or_eq_of_mem (h : c ∈ padded width n ++ mark :: padded width' n') :
    c.isDigit ∨ c = mark := by
  rw [List.mem_append, List.mem_cons] at h
  rcases h with h | h | h
  · exact .inl (isDigit_of_mem_padded h)
  · exact .inr h
  · exact .inl (isDigit_of_mem_padded h)

theorem not_isBlank_of_mem (hb : ¬isBlank mark)
    (h : c ∈ padded width n ++ mark :: padded width' n') : ¬isBlank c := by
  rcases isDigit_or_eq_of_mem h with hc | rfl
  case inl => exact not_isBlank_of_isDigit hc
  case inr => exact hb

end

theorem takeWhile_isDigit_padded (hc : ¬c.isDigit) :
    (padded width n ++ c :: r).takeWhile Char.isDigit = padded width n := by
  rw [List.takeWhile_append_of_pos fun _ => isDigit_of_mem_padded, List.takeWhile_cons_of_neg hc,
    List.append_nil]

theorem dropWhile_isDigit_padded (hc : ¬c.isDigit) :
    (padded width n ++ c :: r).dropWhile Char.isDigit = c :: r := by
  rw [List.dropWhile_append_of_pos fun _ => isDigit_of_mem_padded, List.dropWhile_cons_of_neg hc]

theorem digits?_padded (hw : 0 < width) (h : n < Nat.pow 10 width) :
    digits? width (padded width n ++ r) = some (n, r) := by
  have hrun : (padded width n).takeWhile Char.isDigit = padded width n :=
    List.takeWhile_eq_self_iff.mpr fun _ => isDigit_of_mem_padded
  rw [digits?, List.take_left' (length_padded hw h), hrun, numeral?_padded, List.drop_left]
  rfl

theorem digitRun?_padded (hc : ¬c.isDigit) :
    digitRun? (padded width n ++ c :: r) = some (n, c :: r) := by
  rw [digitRun?, digits?, List.take_length, takeWhile_isDigit_padded hc, numeral?_padded,
    List.drop_left]
  rfl

theorem unsigned?_padded {bits : Nat} (h : n < Nat.pow 2 bits) :
    unsigned? bits (padded width n) = some n := by
  have ⟨c, s, hp, hc⟩ := exists_padded_eq_cons width n
  have hn := numeral?_padded width n
  unfold unsigned?
  rw [hp] at hn ⊢
  split
  case h_1 hs => cases hs; cases hc
  case h_2 =>
    show (numeral? (c :: s)).filter _ = some n
    rw [hn]
    simpa using h

theorem ofDigitChars_zeros (n k : Nat) :
    Nat.ofDigitChars 10 (List.replicate k '0') n = n * Nat.pow 10 k := by
  induction k generalizing n with
  | zero => simp [Nat.ofDigitChars]
  | succ k ih =>
    rw [List.replicate_succ, Nat.ofDigitChars_cons, ih]
    show (10 * n + 0) * Nat.pow 10 k = n * (Nat.pow 10 k * 10)
    rw [Nat.add_zero, Nat.mul_comm 10 n, Nat.mul_assoc, Nat.mul_comm 10]

theorem trimStart_cons (h : ¬isBlank c) : trimStart (c :: r) = c :: r :=
  List.dropWhile_cons_of_neg h

theorem trimStart_padded : trimStart (padded width n ++ r) = padded width n ++ r := by
  have ⟨c, s, hp, hc⟩ := exists_padded_eq_cons width n
  rw [hp]
  exact trimStart_cons (not_isBlank_of_isDigit hc)

theorem trimStart_append (hs : ∀ c ∈ s, ¬isBlank c) (hn : s ≠ []) (ha : ∀ c ∈ a, isBlank c) :
    trimStart (a ++ s ++ b) = s ++ b := by
  rw [trimStart, List.append_assoc, List.dropWhile_append_of_pos ha]
  cases s with
  | nil => exact absurd rfl hn
  | cons c s => exact trimStart_cons (hs c List.mem_cons_self)

-- Of text without blanks, trimming leaves all, and nothing of the blanks around it.
theorem trim_append (hs : ∀ c ∈ s, ¬isBlank c) (hn : s ≠ []) (ha : ∀ c ∈ a, isBlank c)
    (hb : ∀ c ∈ b, isBlank c) : trim (a ++ s ++ b) = s := by
  have hback : trimStart (s ++ b).reverse = s.reverse := by
    have h := trimStart_append (s := s.reverse) (a := b.reverse) (b := [])
      (fun c hc => hs c (List.mem_reverse.mp hc)) (by simpa using hn)
      fun c hc => hb c (List.mem_reverse.mp hc)
    rwa [List.append_nil, List.append_nil, ← List.reverse_append] at h
  rw [trim, trimStart_append hs hn ha, hback, List.reverse_reverse]

theorem splitAt?_append (h : mark ∉ a) : splitAt? mark (a ++ mark :: b) = some (a, b) := by
  induction a with
  | nil => exact if_pos rfl
  | cons c a ih =>
    rw [List.mem_cons, not_or] at h
    rw [List.cons_append, splitAt?, if_neg (Ne.symm h.1), ih h.2]
    rfl

end EntryDoor.Text
