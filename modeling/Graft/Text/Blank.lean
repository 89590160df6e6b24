import Graft.Text.Ranges

/-!
# Blanks

The blank characters are the twenty-five that Unicode lists as `White_Space`.  `trim` drops them at
both ends; `trim_ends` says that what is left neither begins nor ends with one, and `trim_of_ends`
that such a text is kept as it is.
-/

namespace Graft.Text

def blanks : Ranges := [
  (0x9, 0xd), (0x20, 0x20), (0x85, 0x85), (0xa0, 0xa0), (0x1680, 0x1680), (0x2000, 0x200a),
  (0x2028, 0x2029), (0x202f, 0x202f), (0x205f, 0x205f), (0x3000, 0x3000)]

def isBlank (c : Char) : Bool := blanks.has c

def trimStart (cs : List Char) : List Char := cs.dropWhile isBlank

def trimEnd (cs : List Char) : List Char := (cs.reverse.dropWhile isBlank).reverse

def trim (cs : List Char) : List Char := trimEnd (trimStart cs)

/-- neither end is blank -/
def Trimmed (cs : List Char) : Prop :=
  (∀ c, cs.head? = some c → isBlank c = false) ∧ ∀ c, cs.getLast? = some c → isBlank c = false

/-! ## what is left -/

theorem head?_dropWhile {cs : List Char} {c : Char} (h : (cs.dropWhile isBlank).head? = some c) :
    isBlank c = false := by
  induction cs with
  | nil => exact absurd h (by simp)
  | cons d cs ih =>
    by_cases hd : isBlank d = true
    · rw [List.dropWhile_cons_of_pos hd] at h
      exact ih h
    · rw [List.dropWhile_cons_of_neg hd] at h
      obtain rfl : d = c := by simpa using h
      simpa using hd

theorem dropWhile_of_head? {cs : List Char} (h : ∀ c, cs.head? = some c → isBlank c = false) :
    cs.dropWhile isBlank = cs := by
  cases cs with
  | nil => rfl
  | cons c cs => exact List.dropWhile_cons_of_neg (by simp [h c rfl])

theorem trimEnd_append (cs : List Char) : ∃ rest, trimEnd cs ++ rest = cs := by
  refine ⟨(cs.reverse.takeWhile isBlank).reverse, ?_⟩
  rw [trimEnd, ← List.reverse_append, List.takeWhile_append_dropWhile, List.reverse_reverse]

theorem trim_ends (cs : List Char) : Trimmed (trim cs) := by
  refine ⟨fun c h => ?_, fun c h => ?_⟩
  · obtain ⟨rest, hr⟩ := trimEnd_append (trimStart cs)
    refine @head?_dropWhile cs c ?_
    rw [← trimStart, ← hr, ← trim, List.head?_append, h]
    rfl
  · rw [trim, trimEnd, List.getLast?_reverse] at h
    exact head?_dropWhile h

theorem trim_of_ends (cs : List Char) (h : Trimmed cs) : trim cs = cs := by
  rw [trim, trimStart, dropWhile_of_head? h.1, trimEnd, dropWhile_of_head?, List.reverse_reverse]
  intro c hc
  exact h.2 c (by simpa using hc)

end Graft.Text
