namespace EntryDoor.Text

-- The property `White_Space`.
def isBlank (c : Char) : Bool :=
  ('\t' ≤ c && c ≤ '\r') || c == ' ' || c == '\x85' || c == '\xa0' || c == '\u1680' ||
    ('\u2000' ≤ c && c ≤ '\u200a') || c == '\u2028' || c == '\u2029' || c == '\u202f' ||
    c == '\u205f' || c == '\u3000'

def trimStart (s : List Char) : List Char :=
  s.dropWhile isBlank

def trim (s : List Char) : List Char :=
  (trimStart (trimStart s).reverse).reverse

theorem eq_append_trim (s : List Char) :
    ∃ a b, s = a ++ trim s ++ b ∧ a.all isBlank ∧ b.all isBlank := by
  let tail := (trimStart s).reverse.takeWhile isBlank
  have h : trim s ++ tail.reverse = trimStart s := by
    rw [trim, ← List.reverse_append, trimStart, List.takeWhile_append_dropWhile, List.reverse_reverse]
  have hs : s = s.takeWhile isBlank ++ trimStart s := List.takeWhile_append_dropWhile.symm
  exact ⟨s.takeWhile isBlank, tail.reverse, by rwa [List.append_assoc, h], List.all_takeWhile,
    by rw [List.all_reverse]; exact List.all_takeWhile⟩

def splitAt? (mark : Char) : List Char → Option (List Char × List Char)
  | [] => none
  | c :: r => if c = mark then some ([], r) else (splitAt? mark r).map fun (a, b) => (c :: a, b)

theorem eq_append_of_splitAt? {mark : Char} {s a b : List Char} (h : splitAt? mark s = some (a, b)) :
    s = a ++ mark :: b ∧ mark ∉ a := by
  induction s generalizing a b with
  | nil => simp [splitAt?] at h
  | cons c r ih =>
    by_cases hc : c = mark
    · simp [splitAt?, hc] at h
      simp [h.1, h.2, hc]
    · simp only [splitAt?, hc, if_false, Option.map_eq_some_iff] at h
      obtain ⟨⟨x, y⟩, hxy, he⟩ := h
      obtain ⟨rfl, rfl⟩ := Prod.mk.inj he
      have := ih hxy
      simp [this.1, this.2, Ne.symm hc]

def lowerAscii (s : List Char) : List Char :=
  s.map Char.toLower

end EntryDoor.Text
