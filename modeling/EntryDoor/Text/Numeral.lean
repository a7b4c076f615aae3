namespace EntryDoor.Text

def padded (width n : Nat) : List Char :=
  (Nat.toDigits 10 n).leftpad width '0'

def numeral? (s : List Char) : Option Nat :=
  if s ≠ [] ∧ s.all Char.isDigit then some (Nat.ofDigitChars 10 s 0) else none

theorem ofDigitChars_replicate_zero (k : Nat) :
    Nat.ofDigitChars 10 (List.replicate k '0') 0 = 0 := by
  induction k with
  | zero => rfl
  | succ k ih =>
    rw [List.replicate_succ, Nat.ofDigitChars_cons]
    exact ih

theorem ofDigitChars_padded (width n : Nat) : Nat.ofDigitChars 10 (padded width n) 0 = n := by
  rw [padded, List.leftpad, Nat.ofDigitChars_append, ofDigitChars_replicate_zero,
    Nat.ofDigitChars_ten_toDigits]

theorem isDigit_of_mem_padded {width n : Nat} {c : Char} (h : c ∈ padded width n) : c.isDigit := by
  rw [padded, List.leftpad, List.mem_append] at h
  rcases h with h | h
  · rw [List.eq_of_mem_replicate h]
    rfl
  · exact Nat.isDigit_of_mem_toDigits (by decide) (by decide) h

theorem padded_ne_nil (width n : Nat) : padded width n ≠ [] := by
  simp [padded, List.leftpad, Nat.toDigits_ne_nil]

theorem length_padded {width n : Nat} (hw : 0 < width) (h : n < Nat.pow 10 width) :
    (padded width n).length = width := by
  have := (Nat.length_toDigits_le_iff (by decide) hw).mpr h
  simp only [padded, List.leftpad, List.length_append, List.length_replicate]
  omega

theorem numeral?_padded (width n : Nat) : numeral? (padded width n) = some n := by
  have h : (padded width n).all Char.isDigit := List.all_eq_true.mpr fun _ => isDigit_of_mem_padded
  simp [numeral?, padded_ne_nil, h, ofDigitChars_padded]

def unsigned? (bits : Nat) (s : List Char) : Option Nat :=
  let digits := match s with
    | '+' :: r => r
    | r => r
  (numeral? digits).filter (· < Nat.pow 2 bits)

def digits? (limit : Nat) (s : List Char) : Option (Nat × List Char) :=
  let run := (s.take limit).takeWhile Char.isDigit
  (numeral? run).map fun n => (n, s.drop run.length)

def digitRun? (s : List Char) : Option (Nat × List Char) :=
  digits? s.length s

end EntryDoor.Text
