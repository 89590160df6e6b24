import Mathlib.Data.String.Basic
import Mathlib.Tactic.SplitIfs

/-!
# Byte order

Texts are compared character by character, their UTF-8 bytes byte by byte.  The two orders are one:
the bytes of two characters differ at some byte, and there the smaller character has the smaller
byte, so that nothing that follows can turn the comparison around.

* `Text.bytes`          the UTF-8 bytes of a text;
* `Text.Diverges`       two lists of bytes that differ at a byte, the first having the smaller one;
* `diverges_encode`     the bytes of two characters;
* `lt_iff_bytes_lt`     the order of texts is the order of their bytes.
-/

namespace Graft.Text

/-- the UTF-8 bytes of a text -/
def bytes (s : String) : List UInt8 := s.toUTF8.data.toList

theorem bytes_eq (s : String) : bytes s = s.toList.flatMap String.utf8EncodeChar := by
  have hdata : s.toUTF8 = (s.toList.flatMap String.utf8EncodeChar).toByteArray :=
    String.toUTF8_eq_toByteArray.trans String.utf8Encode_toList.symm
  rw [bytes, hdata, List.toList_data_toByteArray]

/-! ## bytes that differ -/

/-- the two differ at a byte, and at the first such byte the left one is smaller -/
inductive Diverges : List UInt8 → List UInt8 → Prop
  | here {x y : UInt8} {l m : List UInt8} : x < y → Diverges (x :: l) (y :: m)
  | there {x : UInt8} {l m : List UInt8} : Diverges l m → Diverges (x :: l) (x :: m)

theorem diverges_cons {x y : UInt8} {l m : List UInt8} :
    Diverges (x :: l) (y :: m) ↔ x < y ∨ x = y ∧ Diverges l m := by
  constructor
  · intro h
    cases h with
    | here h => exact .inl h
    | there h => exact .inr ⟨rfl, h⟩
  · rintro (h | ⟨rfl, h⟩)
    · exact .here h
    · exact .there h

/-- whatever follows, the order is decided -/
theorem Diverges.append_lt {l m : List UInt8} (h : Diverges l m) (s t : List UInt8) :
    l ++ s < m ++ t := by
  induction h with
  | here h => exact List.cons_lt_cons_iff.mpr (.inl h)
  | there _ ih => exact List.cons_lt_cons_iff.mpr (.inr ⟨rfl, ih⟩)

/-! ## characters -/

theorem scalar_lt (c : Char) : c.val.toNat < 0x110000 := by
  rcases c.valid with h | h
  · exact Nat.lt_trans h (by decide)
  · exact h.2

/-- a longer encoding has the larger first byte, and those of one length are digits in base 64 -/
theorem diverges_encode {c d : Char} (h : c < d) :
    Diverges (String.utf8EncodeChar c) (String.utf8EncodeChar d) := by
  have hlt : c.val.toNat < d.val.toNat := h
  have hbound := scalar_lt d
  unfold String.utf8EncodeChar
  generalize c.val.toNat = v at *
  generalize d.val.toNat = w at *
  -- four lengths for each; no byte overflows, so that every comparison is one of numbers
  simp only
  split_ifs
  all_goals
    simp (disch := omega) only [diverges_cons, UInt8.lt_iff_toNat_lt, ← UInt8.toNat_inj,
      UInt8.toNat_ofNat', Nat.mod_eq_of_lt]
    omega

/-! ## texts -/

theorem encode_lt_of_lt {l m : List Char} (h : l < m) :
    l.flatMap String.utf8EncodeChar < m.flatMap String.utf8EncodeChar := by
  induction l generalizing m with
  | nil =>
    cases m with
    | nil => exact absurd h (List.lt_irrefl [])
    | cons d m =>
      rw [List.flatMap_cons, List.flatMap_nil]
      obtain ⟨x, rest, hd⟩ := List.exists_cons_of_ne_nil (String.utf8EncodeChar_ne_nil (c := d))
      rw [hd]
      exact List.nil_lt_cons x _
  | cons c l ih =>
    cases m with
    | nil => exact absurd h (List.not_lt_nil _)
    | cons d m =>
      rw [List.flatMap_cons, List.flatMap_cons]
      rcases List.cons_lt_cons_iff.mp h with hcd | ⟨rfl, hlm⟩
      · exact (diverges_encode hcd).append_lt _ _
      · exact List.append_left_lt (ih hlm)

/-- texts are in the order of their UTF-8 bytes -/
theorem lt_iff_bytes_lt (a b : String) : a < b ↔ bytes a < bytes b := by
  have hmono : ∀ {a b : String}, a < b → bytes a < bytes b := fun {a b} h => by
    rw [bytes_eq, bytes_eq]
    exact encode_lt_of_lt (String.lt_iff_toList_lt.mp h)
  refine ⟨hmono, fun h => ?_⟩
  rcases lt_trichotomy a b with hab | rfl | hba
  · exact hab
  · exact absurd h (List.lt_irrefl _)
  · exact absurd h (List.lt_asymm (hmono hba))

end Graft.Text
