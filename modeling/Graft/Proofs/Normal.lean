import Graft.Id
import Mathlib.Data.List.Basic
import Mathlib.Data.Nat.Bitwise

/-!
# Normalized ids

Lower-casing leaves no letter that it would change again, and it neither makes nor moves a blank.  So
a normalized id is normalized already, and ids that were looked up once may be looked up again.

* `Text.bits`                  a list of runs as one number, a bit for every character;
* `Text.not_has_image`         the lower case of a capital is no capital, and no blank;
* `Text.Settled`               a character that lower-casing keeps, wherever it stands;
* `Text.settled_of_mem_lower`  every character of a lower-cased text is one;
* `Text.trimmed_lower`         what has no blank at its ends has none there in lower case;
* `NormalId`                   what normalizing makes, and what it keeps;
* `normalizeId_normalizeId`    normalizing again changes nothing;
* `normalizeId_of_isSafeId`    and neither does normalizing a safe id;
* `normalizeId_settles`        nothing else is kept.
-/

namespace Graft

namespace Text

/-! ## runs as numbers -/

/-- `count` bits that are `step` apart -/
def comb (step : Nat) : Nat → Nat
  | 0 => 0
  | count + 1 => comb step count <<< step ||| 1

/-- the runs' characters as bits, each run moved to where `start` says -/
def bits (start : Run → Nat) (runs : List Run) : Nat :=
  runs.foldr
    (fun run acc => comb run.step ((run.last - run.first) / run.step + 1) <<< start run ||| acc) 0

theorem testBit_comb (step : Nat) {k count : Nat} (h : k < count) :
    (comb step count).testBit (step * k) = true := by
  induction count generalizing k with
  | zero => exact absurd h (Nat.not_lt_zero k)
  | succ count ih =>
    rw [comb, Nat.testBit_or]
    cases k with
    | zero => simp
    | succ k =>
      have hge : step * (k + 1) ≥ step := Nat.le_mul_of_pos_right step (Nat.succ_pos k)
      have hsub : step * (k + 1) - step = step * k := by
        rw [Nat.mul_succ, Nat.add_sub_cancel]
      rw [Nat.testBit_shiftLeft, hsub, ih (Nat.lt_of_succ_lt_succ h), decide_eq_true hge]
      rfl

theorem Run.has_iff (run : Run) (n : Nat) :
    run.has n = true ↔ run.first ≤ n ∧ n ≤ run.last ∧ (n - run.first) % run.step = 0 := by
  simp [has, and_assoc]

theorem testBit_bits (start : Run → Nat) {runs : List Run} {run : Run} {n : Nat} (hm : run ∈ runs)
    (h : run.has n = true) : (bits start runs).testBit (start run + (n - run.first)) = true := by
  induction runs with
  | nil => exact absurd hm List.not_mem_nil
  | cons r rest ih =>
    show (comb r.step ((r.last - r.first) / r.step + 1) <<< start r ||| bits start rest).testBit _ = _
    rw [Nat.testBit_or]
    rcases List.mem_cons.mp hm with rfl | hm
    · obtain ⟨_, hlast, hmod⟩ := (run.has_iff n).mp h
      have hk : run.step * ((n - run.first) / run.step) = n - run.first := by
        have := Nat.div_add_mod (n - run.first) run.step
        omega
      have hle : (n - run.first) / run.step ≤ (run.last - run.first) / run.step :=
        Nat.div_le_div_right (by omega)
      have hbit := testBit_comb run.step (Nat.lt_succ_of_le hle)
      rw [hk] at hbit
      rw [Nat.testBit_shiftLeft, Nat.add_sub_cancel_left, hbit]
      simp
    · rw [ih hm, Bool.or_true]

/-! ## what the table of capitals leads to -/

/-- the capitals, the two characters that have a rule of their own, and the blanks -/
def reserved : List Run :=
  capitals ++ ⟨0x130, 0x130, 1, 0⟩ :: ⟨0x3a3, 0x3a3, 1, 0⟩ ::
    blanks.map fun range => ⟨range.1, range.2, 1, 0⟩

theorem bits_disjoint : bits Run.first reserved &&& bits Run.target capitals = 0 := by
  decide +kernel

theorem not_has_image {a b : Run} {n : Nat} (ha : a ∈ capitals) (hb : b ∈ reserved)
    (hn : a.has n = true) : b.has (a.image n) = false := by
  refine Bool.eq_false_iff.mpr fun h => ?_
  have h1 := testBit_bits Run.first hb h
  rw [Nat.add_sub_cancel' ((b.has_iff _).mp h).1] at h1
  have h2 : (bits Run.target capitals).testBit (a.image n) = true := testBit_bits Run.target ha hn
  have h3 := Nat.testBit_and (bits Run.first reserved) (bits Run.target capitals) (a.image n)
  rw [bits_disjoint, h1, h2, Nat.zero_testBit] at h3
  exact Bool.false_ne_true h3

/-- all images are characters, and but for the letter k they are beyond ASCII -/
def Run.sound (run : Run) : Bool :=
  (0x80 ≤ run.target || (run.first == run.last && run.target == 0x6b)) &&
    (run.image run.last < 0xd800 || (0xe000 ≤ run.target && run.image run.last < 0x110000))

theorem capitals_sound : ∀ run ∈ capitals, run.sound = true := by decide +kernel

theorem sound_image {run : Run} {n : Nat} (hm : run ∈ capitals) (h : run.has n = true) :
    (0x80 ≤ run.image n ∨ run.image n = 0x6b) ∧ (run.image n).isValidChar := by
  have hs := capitals_sound run hm
  obtain ⟨h1, h2, _⟩ := (run.has_iff n).mp h
  simp only [Run.sound, Bool.and_eq_true, Bool.or_eq_true, decide_eq_true_eq, beq_iff_eq] at hs
  unfold Run.image at hs ⊢
  unfold Nat.isValidChar
  omega

theorem toNat_image {run : Run} {n : Nat} (hm : run ∈ capitals) (h : run.has n = true) :
    (Char.ofNat (run.image n)).toNat = run.image n := by
  rw [Char.ofNat, dif_pos (sound_image hm h).2]
  rfl

/-! ## settled characters -/

/-- kept by lower-casing, wherever it stands -/
def Settled (c : Char) : Prop := lowerChar c = [c] ∧ c ≠ 'Σ'

instance (c : Char) : Decidable (Settled c) := inferInstanceAs (Decidable (_ ∧ _))

theorem ascii_settled : ∀ n < 0x80, Settled (Char.ofNat n).toLower ∧
    (isBlank (Char.ofNat n).toLower = true → isBlank (Char.ofNat n) = true) := by
  decide +kernel

theorem lowerChar_of_find {c : Char} {run : Run} (hc : ¬ c.toNat < 0x80) (hi : c ≠ '\u0130')
    (h : capitals.find? (fun run => run.has c.toNat) = some run) :
    lowerChar c = [Char.ofNat (run.image c.toNat)] := by
  rw [lowerChar, if_neg hc, if_neg hi, h]

theorem lowerChar_of_not_find {c : Char} (hc : ¬ c.toNat < 0x80) (hi : c ≠ '\u0130')
    (h : capitals.find? (fun run => run.has c.toNat) = none) : lowerChar c = [c] := by
  rw [lowerChar, if_neg hc, if_neg hi, h]

theorem not_blank_of_image {run : Run} {n : Nat} (hm : run ∈ capitals) (h : run.has n = true) :
    isBlank (Char.ofNat (run.image n)) = false := by
  refine Bool.eq_false_iff.mpr fun hb => ?_
  obtain ⟨range, hr, hin⟩ := List.any_eq_true.mp hb
  rw [toNat_image hm h] at hin
  have hmem : (⟨range.1, range.2, 1, 0⟩ : Run) ∈ reserved :=
    List.mem_append_right _ (List.mem_cons_of_mem _ (List.mem_cons_of_mem _
      (List.mem_map_of_mem hr)))
  have hno := not_has_image hm hmem h
  simp only [Bool.and_eq_true, decide_eq_true_eq] at hin
  have hyes : Run.has ⟨range.1, range.2, 1, 0⟩ (run.image n) = true :=
    (Run.has_iff _ _).mpr ⟨hin.1, hin.2, Nat.mod_one _⟩
  exact Bool.false_ne_true (hno.symm.trans hyes)

theorem settled_image {run : Run} {n : Nat} (hm : run ∈ capitals) (h : run.has n = true) :
    Settled (Char.ofNat (run.image n)) := by
  have hnat := toNat_image hm h
  have hne : ∀ b ∈ reserved, b.has (Char.ofNat (run.image n)).toNat = false := by
    intro b hb
    rw [hnat]
    exact not_has_image hm hb h
  rcases (sound_image hm h).1 with hge | hk
  · have hi : Char.ofNat (run.image n) ≠ '\u0130' := fun he =>
      absurd (hne ⟨0x130, 0x130, 1, 0⟩ (List.mem_append_right _ List.mem_cons_self))
        (by rw [he]; decide)
    have hs : Char.ofNat (run.image n) ≠ 'Σ' := fun he =>
      absurd (hne ⟨0x3a3, 0x3a3, 1, 0⟩
        (List.mem_append_right _ (List.mem_cons_of_mem _ List.mem_cons_self)))
        (by rw [he]; decide)
    refine ⟨lowerChar_of_not_find (by omega) hi (List.find?_eq_none.mpr fun b hb => ?_), hs⟩
    rw [hne b (List.mem_append_left _ hb)]
    exact Bool.false_ne_true
  · rw [hk]
    decide +kernel

/-- the lower case of a character is settled, and no blank unless the character is one -/
theorem lowerChar_spec {c d : Char} (hs : c ≠ 'Σ') (hd : d ∈ lowerChar c) :
    Settled d ∧ (isBlank d = true → isBlank c = true) := by
  by_cases hc : c.toNat < 0x80
  · rw [lowerChar, if_pos hc, List.mem_singleton] at hd
    have h := ascii_settled c.toNat hc
    rw [Char.ofNat_toNat] at h
    rwa [hd]
  by_cases hi : c = '\u0130'
  · subst hi
    rw [lowerChar, if_neg (by decide), if_pos rfl] at hd
    rcases List.mem_pair.mp hd with rfl | rfl <;> decide +kernel
  cases hf : capitals.find? (fun run => run.has c.toNat) with
  | none =>
    have hl := lowerChar_of_not_find hc hi hf
    rw [hl, List.mem_singleton] at hd
    rw [hd]
    exact ⟨⟨hl, hs⟩, id⟩
  | some run =>
    rw [lowerChar_of_find hc hi hf, List.mem_singleton] at hd
    have hm := List.mem_of_find?_eq_some hf
    have hr : run.has c.toNat = true := by simpa using List.find?_some hf
    rw [hd]
    exact ⟨settled_image hm hr, fun hb => absurd hb (by rw [not_blank_of_image hm hr]; simp)⟩

/-! ## lower-casing a text -/

theorem lowerSigma_settled (behind : Bool) (rest : List Char) :
    Settled (lowerSigma behind rest) ∧ isBlank (lowerSigma behind rest) = false := by
  unfold lowerSigma
  split <;> decide +kernel

theorem settled_of_mem_lowerFrom (behind : Bool) (cs : List Char) :
    ∀ d ∈ lowerFrom behind cs, Settled d := by
  induction cs generalizing behind with
  | nil => exact fun d hd => absurd hd List.not_mem_nil
  | cons c rest ih =>
    intro d hd
    rw [lowerFrom_cons, List.mem_append] at hd
    rcases hd with hd | hd
    · by_cases hs : c = 'Σ'
      · rw [if_pos hs, List.mem_singleton] at hd
        exact hd ▸ (lowerSigma_settled behind rest).1
      · rw [if_neg hs] at hd
        exact (lowerChar_spec hs hd).1
    · exact ih _ d hd

theorem settled_of_mem_lower (cs : List Char) : ∀ d ∈ lower cs, Settled d :=
  settled_of_mem_lowerFrom false cs

theorem lowerFrom_of_settled (behind : Bool) {cs : List Char} (h : ∀ c ∈ cs, Settled c) :
    lowerFrom behind cs = cs := by
  induction cs generalizing behind with
  | nil => rfl
  | cons c rest ih =>
    obtain ⟨hc, hrest⟩ := List.forall_mem_cons.mp h
    rw [lowerFrom_cons, if_neg hc.2, hc.1, ih _ hrest, List.singleton_append]

/-! ## blanks at the ends -/

theorem lowerChar_ne_nil (c : Char) : lowerChar c ≠ [] := by
  unfold lowerChar
  split
  · simp
  · split
    · simp
    · split <;> simp

/-- the part of a lower-cased text that comes from one character is there, and blank only if that is -/
theorem lowerFrom_step (behind : Bool) (c : Char) (rest : List Char) :
    ∃ ds, ds ≠ [] ∧ (∀ d ∈ ds, isBlank d = true → isBlank c = true) ∧
      lowerFrom behind (c :: rest) = ds ++ lowerFrom (casedBehind behind c) rest := by
  refine ⟨_, ?_, ?_, lowerFrom_cons behind c rest⟩
  · split
    · exact List.cons_ne_nil _ _
    · exact lowerChar_ne_nil c
  · intro d hd hb
    by_cases hs : c = 'Σ'
    · rw [if_pos hs, List.mem_singleton] at hd
      rw [hd, (lowerSigma_settled behind rest).2] at hb
      exact absurd hb Bool.false_ne_true
    · rw [if_neg hs] at hd
      exact (lowerChar_spec hs hd).2 hb

theorem head?_lowerFrom (behind : Bool) (cs : List Char)
    (h : ∀ c, cs.head? = some c → isBlank c = false) :
    ∀ d, (lowerFrom behind cs).head? = some d → isBlank d = false := by
  intro d hd
  cases cs with
  | nil => exact absurd hd (by simp [lowerFrom_nil])
  | cons c rest =>
    obtain ⟨ds, hne, hblank, heq⟩ := lowerFrom_step behind c rest
    obtain ⟨e, es, rfl⟩ := List.exists_cons_of_ne_nil hne
    rw [heq, List.cons_append, List.head?_cons] at hd
    obtain rfl := Option.some.inj hd
    refine Bool.eq_false_iff.mpr fun hb => ?_
    exact Bool.false_ne_true ((h c rfl).symm.trans (hblank e List.mem_cons_self hb))

theorem getLast?_lowerFrom (behind : Bool) (cs : List Char)
    (h : ∀ c, cs.getLast? = some c → isBlank c = false) :
    ∀ d, (lowerFrom behind cs).getLast? = some d → isBlank d = false := by
  induction cs generalizing behind with
  | nil => exact fun d hd => absurd hd (by simp [lowerFrom_nil])
  | cons c rest ih =>
    intro d hd
    obtain ⟨ds, hne, hblank, heq⟩ := lowerFrom_step behind c rest
    rw [heq] at hd
    cases rest with
    | nil =>
      rw [lowerFrom_nil, List.append_nil] at hd
      refine Bool.eq_false_iff.mpr fun hb => ?_
      exact Bool.false_ne_true ((h c rfl).symm.trans (hblank d (List.mem_of_getLast? hd) hb))
    | cons c' rest =>
      have hlast : lowerFrom (casedBehind behind c) (c' :: rest) ≠ [] := by
        obtain ⟨es, hes, _, he⟩ := lowerFrom_step (casedBehind behind c) c' rest
        rw [he]
        exact List.append_ne_nil_of_left_ne_nil hes _
      rw [List.getLast?_append_of_ne_nil _ hlast] at hd
      exact ih _ (fun e he => h e (by rwa [List.getLast?_cons_cons])) d hd

theorem trimmed_lower {cs : List Char} (h : Trimmed cs) : Trimmed (lower cs) :=
  ⟨head?_lowerFrom false cs h.1, getLast?_lowerFrom false cs h.2⟩

end Text

theorem toList_normalizeId (id : String) :
    (normalizeId id).toList = Text.lower (Text.trim id.toList) := String.toList_ofList

/-- no blank at the ends, and no character that lower-casing would change -/
structure NormalId (id : String) : Prop where
  trimmed : Text.Trimmed id.toList
  settled : ∀ c ∈ id.toList, Text.Settled c

theorem normalId_normalizeId (id : String) : NormalId (normalizeId id) := by
  constructor
  · rw [toList_normalizeId]
    exact Text.trimmed_lower (Text.trim_ends id.toList)
  · rw [toList_normalizeId]
    exact Text.settled_of_mem_lower (Text.trim id.toList)

theorem NormalId.normalizeId_eq {id : String} (h : NormalId id) : normalizeId id = id := by
  have htrim : Text.trim id.toList = id.toList := Text.trim_of_ends id.toList h.trimmed
  have hlower : Text.lower id.toList = id.toList := Text.lowerFrom_of_settled false h.settled
  rw [normalizeId, htrim, hlower, String.ofList_toList]

theorem normalizeId_normalizeId (id : String) : normalizeId (normalizeId id) = normalizeId id :=
  (normalId_normalizeId id).normalizeId_eq

/-! ## safe ids -/

theorem ascii_of_isIdChar {c : Char} (h : isIdChar c = true) : c.toNat < 0x80 := by
  simp only [isIdChar, isIdStart, Bool.or_eq_true, beq_iff_eq] at h
  rcases h with ((hlower | hdigit) | rfl) | rfl
  · have hz : c.val ≤ 'z'.val := of_decide_eq_true (Bool.and_eq_true_iff.mp hlower).2
    exact Nat.lt_of_le_of_lt (UInt32.le_iff_toNat_le.mp hz) (by decide)
  · have h9 : c.val ≤ '9'.val := of_decide_eq_true (Bool.and_eq_true_iff.mp hdigit).2
    exact Nat.lt_of_le_of_lt (UInt32.le_iff_toNat_le.mp h9) (by decide)
  · decide
  · decide

theorem ascii_settled_of_isIdChar : ∀ n < 0x80, isIdChar (Char.ofNat n) = true →
    Text.Settled (Char.ofNat n) ∧ Text.isBlank (Char.ofNat n) = false := by
  decide +kernel

theorem settled_of_isIdChar {c : Char} (h : isIdChar c = true) :
    Text.Settled c ∧ Text.isBlank c = false := by
  have hc := ascii_settled_of_isIdChar c.toNat (ascii_of_isIdChar h)
  rw [Char.ofNat_toNat] at hc
  exact hc h

theorem isIdChar_of_isSafeId {id : String} (h : isSafeId id = true) :
    ∀ c ∈ id.toList, isIdChar c = true := by
  unfold isSafeId at h
  cases hid : id.toList with
  | nil => exact fun c hc => absurd hc List.not_mem_nil
  | cons first rest =>
    rw [hid] at h
    obtain ⟨hfirst, hrest⟩ := Bool.and_eq_true_iff.mp h
    refine List.forall_mem_cons.mpr ⟨?_, List.all_eq_true.mp hrest⟩
    rw [isIdChar, hfirst]
    rfl

theorem NormalId.of_isSafeId {id : String} (h : isSafeId id = true) : NormalId id := by
  have hchars : ∀ c ∈ id.toList, Text.Settled c ∧ Text.isBlank c = false :=
    fun c hc => settled_of_isIdChar (isIdChar_of_isSafeId h c hc)
  refine ⟨⟨?_, ?_⟩, fun c hc => (hchars c hc).1⟩
  · exact fun c hc => (hchars c (List.mem_of_mem_head? hc)).2
  · exact fun c hc => (hchars c (List.mem_of_getLast? hc)).2

theorem normalizeId_of_isSafeId {id : String} (h : isSafeId id = true) : normalizeId id = id :=
  (NormalId.of_isSafeId h).normalizeId_eq

/-- **Normalizing settles an id.**  Normalizing again changes nothing, a safe id is kept, and the
result neither begins nor ends with a blank.  What is kept is exactly what normalizing can make: the
ids without blanks at their ends, all of whose characters lower-casing keeps wherever they stand. -/
theorem normalizeId_settles (id : String) :
    normalizeId (normalizeId id) = normalizeId id ∧
      (isSafeId id = true → normalizeId id = id) ∧
      (∀ c, (normalizeId id).toList.head? = some c → Text.isBlank c = false) ∧
      (∀ c, (normalizeId id).toList.getLast? = some c → Text.isBlank c = false) ∧
      (normalizeId id = id ↔ NormalId id) := by
  obtain ⟨hfirst, hlast⟩ := (normalId_normalizeId id).trimmed
  refine ⟨normalizeId_normalizeId id, normalizeId_of_isSafeId, hfirst, hlast, ?_⟩
  constructor
  · intro hkept
    rw [← hkept]
    exact normalId_normalizeId id
  · exact NormalId.normalizeId_eq

/-- the sigma is a final one, for the blanks are gone by then -/
example : normalizeId "\u2003ΟΔΟΣ " = "οδος" := by decide +kernel

theorem normalizeId_settles_landingPage :
    isSafeId "landing-page_2" = true ∧ normalizeId "landing-page_2" = "landing-page_2" := by
  have hsafe : isSafeId "landing-page_2" = true := by decide +kernel
  exact ⟨hsafe, (normalizeId_settles "landing-page_2").2.1 hsafe⟩

/-! ## keys -/

theorem VariantKey.of_of (organId variantId : String) :
    VariantKey.of (VariantKey.of organId variantId).organ (VariantKey.of organId variantId).variant =
      VariantKey.of organId variantId := by
  show VariantKey.mk (normalizeId (normalizeId organId)) (normalizeId (normalizeId variantId)) = _
  rw [normalizeId_normalizeId, normalizeId_normalizeId]
  rfl

end Graft
