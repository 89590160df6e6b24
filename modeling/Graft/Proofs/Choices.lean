import Graft.Expander
import Graft.Proofs.Entries

/-!
# What a table of overrides remembers

A table of overrides is filled from a list of pairs and then changed step by step: a key is pointed at
a variant, or cleared.  The pairs count as steps as well, so a table has one history, whichever way it
was made, and all that is left of the history is its last step on every key and the order in which the
keys came for good.

* `Overrides.history`, `Overrides.made`   the steps behind a table, and the table;
* `Overrides.latest?`                     what the last step on a key says;
* `Overrides.Arrives`                     where a key comes in that stays to the end;
* `Overrides.Remembers`                   a table holds what its history says;
* `Overrides.remembers_made`              every table does;
* `Keyed.sameEntries_of_get?`, `Overrides.resolver_of_get?`  tables with the same answers are the same;
* `Overrides.made_forgets`                so nothing else of the history shows in an expansion.
-/

namespace Graft

namespace Keyed

universe u

variable {α : Type u}

/-- a list without repeated keys is told apart from another by its look-ups, but for the order -/
theorem sameEntries_of_get? [BEq α] [LawfulBEq α] {m n : Keyed α} (hm : Distinct m) (hn : Distinct n)
    (h : ∀ key, get? m key = get? n key) : sameEntries m n = true := by
  have hmem : ∀ key, key ∈ keys m ↔ key ∈ keys n := by
    intro key
    rw [← isSome_get?, ← isSome_get?, h]
  have hlength : m.length = n.length := by
    have hperm : (keys m).Perm (keys n) := (List.perm_ext_iff_of_nodup hm hn).mpr hmem
    have heq := hperm.length_eq
    unfold keys at heq
    rwa [List.length_map, List.length_map] at heq
  have hall : ∀ entry ∈ m, get? n entry.1 = some entry.2 := fun entry he =>
    (h entry.1).symm.trans (get?_of_mem hm he)
  unfold sameEntries
  rw [Bool.and_eq_true, List.all_eq_true, beq_iff_eq]
  exact ⟨hlength, fun entry he => beq_iff_eq.mpr (hall entry he)⟩

/-- what is put under a new key can be taken back -/
theorem erase_insert {m : Keyed α} {key : String} (h : get? m key = none) (value : α) :
    erase (insert m key value) key = m := by
  unfold insert
  induction m with
  | nil => simp only [update, erase, if_pos]
  | cons entry rest ih =>
    obtain ⟨k, old⟩ := entry
    have hk : k ≠ key := by
      intro hk
      rw [get?, if_pos hk] at h
      cases h
    rw [get?, if_neg hk] at h
    rw [update, if_neg hk, erase, if_neg hk, ih h]

end Keyed

namespace Overrides

/-! ## histories -/

inductive Step where
  | choose (key variantId : String)
  | clear (key : String)
deriving DecidableEq, Repr

def Step.key : Step → String
  | .choose key _ => key
  | .clear key => key

/-- the variant that the step leaves under its key -/
def Step.variant? : Step → Option String
  | .choose _ variantId => some variantId
  | .clear _ => none

def step (o : Overrides) : Step → Overrides
  | .choose key variantId => o.choose key variantId
  | .clear key => o.clear key

def run (o : Overrides) (steps : List Step) : Overrides := steps.foldl step o

/-- the table that is collected from `pairs` and then goes through `steps` -/
def made (pairs : List (String × String)) (steps : List Step) : Overrides := (ofList pairs).run steps

/-- the steps behind such a table -/
def history (pairs : List (String × String)) (steps : List Step) : List Step :=
  pairs.map (fun pair => .choose pair.1 pair.2) ++ steps

/-- the variant that the last step on `key` leaves, if there is such a step and it leaves one -/
def latest? (h : List Step) (key : String) : Option String :=
  (h.filter fun s => s.key = key).getLast?.bind Step.variant?

/-- the keys that hold a variant in the end -/
def liveKeys (h : List Step) : List String :=
  (h.map Step.key).eraseDups.filter fun key => (latest? h key).isSome

/-- step `i` of `h` chooses a variant for `key`, which had none, and `key` is not cleared afterwards -/
def Arrives (h : List Step) (key : String) (i : Nat) : Prop :=
  ∃ before variantId after, h = before ++ .choose key variantId :: after ∧ before.length = i ∧
    latest? before key = none ∧ .clear key ∉ after

theorem run_concat (o : Overrides) (h : List Step) (s : Step) :
    o.run (h ++ [s]) = (o.run h).step s := by
  unfold run
  rw [List.foldl_append]
  rfl

/-- collecting pairs is choosing one after the other -/
theorem made_eq_run (pairs : List (String × String)) (steps : List Step) :
    made pairs steps = empty.run (history pairs steps) := by
  have hpairs : ofList pairs = (pairs.map fun pair => Step.choose pair.1 pair.2).foldl step empty := by
    induction pairs using List.reverseRecOn with
    | nil => rfl
    | append_singleton pairs pair ih =>
      rw [List.map_append, List.foldl_append, ← ih]
      exact congrArg Overrides.mk (Keyed.ofList_concat pairs pair)
  unfold made run history
  rw [List.foldl_append, hpairs]

/-! ## the last step on a key -/

theorem latest?_concat (h : List Step) (s : Step) (key : String) :
    latest? (h ++ [s]) key = if s.key = key then s.variant? else latest? h key := by
  unfold latest?
  rw [List.filter_append]
  by_cases hs : s.key = key
  · simp [hs]
  · simp [hs]

/-- the last choice for a key stands unless the key is cleared afterwards -/
theorem latest?_eq_some_iff (h : List Step) (key variantId : String) :
    latest? h key = some variantId ↔
      ∃ before after, h = before ++ .choose key variantId :: after ∧ ∀ s ∈ after, s.key ≠ key := by
  have hkey : ∀ s : Step, s.key = key ∧ s.variant? = some variantId ↔ s = .choose key variantId := by
    intro s
    cases s <;> simp [Step.key, Step.variant?]
  unfold latest?
  rw [Option.bind_eq_some_iff]
  constructor
  · rintro ⟨s, hs, hv⟩
    obtain ⟨front, hfront⟩ := List.getLast?_eq_some_iff.mp hs
    obtain ⟨before, rest, hsplit, -, hrest⟩ := List.filter_eq_append_iff.mp hfront
    obtain ⟨skipped, after, hrest', -, hp, hnil⟩ := List.filter_eq_cons_iff.mp hrest
    have hs' : s = .choose key variantId := (hkey s).mp ⟨of_decide_eq_true hp, hv⟩
    refine ⟨before ++ skipped, after, ?_, fun t ht he => ?_⟩
    · rw [hsplit, hrest', hs', List.append_assoc]
    · have hmem : t ∈ after.filter fun s => decide (s.key = key) :=
        List.mem_filter.mpr ⟨ht, decide_eq_true he⟩
      rw [hnil] at hmem
      exact absurd hmem List.not_mem_nil
  · rintro ⟨before, after, rfl, hafter⟩
    refine ⟨.choose key variantId, ?_, rfl⟩
    have hnil : (after.filter fun s => decide (s.key = key)) = [] :=
      List.filter_eq_nil_iff.mpr fun s hs he => hafter s hs (of_decide_eq_true he)
    have hlast : ((Step.choose key variantId :: after).filter fun s => decide (s.key = key)) =
        [.choose key variantId] := by
      rw [List.filter_cons, hnil]
      exact if_pos (decide_eq_true rfl)
    rw [List.filter_append, hlast, List.getLast?_concat]

theorem mem_liveKeys (h : List Step) (key : String) :
    key ∈ liveKeys h ↔ (latest? h key).isSome := by
  unfold liveKeys
  rw [List.mem_filter, List.mem_eraseDups]
  refine ⟨And.right, fun hlive => ⟨?_, hlive⟩⟩
  obtain ⟨variantId, hv⟩ := Option.isSome_iff_exists.mp hlive
  obtain ⟨before, after, rfl, -⟩ := (latest?_eq_some_iff h key variantId).mp hv
  exact List.mem_map.mpr ⟨_, List.mem_append_right _ List.mem_cons_self, rfl⟩

/-! ## arrivals -/

theorem Arrives.lt {h : List Step} {key : String} {i : Nat} (ha : Arrives h key i) :
    i < h.length := by
  obtain ⟨before, variantId, after, rfl, rfl, -, -⟩ := ha
  rw [List.length_append, List.length_cons]
  omega

theorem not_arrives_nil (key : String) (i : Nat) : ¬ Arrives [] key i :=
  fun ha => absurd ha.lt (Nat.not_lt_zero i)

/-- one more step: an old arrival counts unless its key is cleared, and a key without a variant that
is given one arrives now -/
theorem arrives_concat (h : List Step) (s : Step) (key : String) (i : Nat) :
    Arrives (h ++ [s]) key i ↔
      (Arrives h key i ∧ s ≠ .clear key) ∨
        (i = h.length ∧ latest? h key = none ∧ ∃ variantId, s = .choose key variantId) := by
  constructor
  · rintro ⟨before, variantId, after, heq, hi, hnone, hclear⟩
    rcases List.eq_nil_or_concat after with rfl | ⟨after, t, rfl⟩
    · obtain ⟨rfl, hs⟩ := List.append_inj' heq rfl
      exact Or.inr ⟨hi.symm, hnone, variantId, List.head_eq_of_cons_eq hs⟩
    · rw [List.concat_eq_append] at heq hclear
      rw [← List.cons_append, ← List.append_assoc] at heq
      obtain ⟨rfl, hs⟩ := List.append_inj' heq rfl
      have ht : s = t := List.head_eq_of_cons_eq hs
      rw [List.mem_append, List.mem_singleton, not_or] at hclear
      exact Or.inl ⟨⟨before, variantId, after, rfl, hi, hnone, hclear.1⟩,
        fun e => hclear.2 (e.symm.trans ht)⟩
  · rintro (⟨⟨before, variantId, after, rfl, hi, hnone, hclear⟩, hs⟩ | ⟨rfl, hnone, variantId, rfl⟩)
    · refine ⟨before, variantId, after ++ [s], ?_, hi, hnone, ?_⟩
      · rw [List.append_assoc, List.cons_append]
      · rw [List.mem_append, List.mem_singleton, not_or]
        exact ⟨hclear, fun e => hs e.symm⟩
    · exact ⟨h, variantId, [], rfl, rfl, hnone, List.not_mem_nil⟩

theorem arrives_concat_of_ne (h : List Step) {s : Step} {key : String} (hs : s.key ≠ key) (i : Nat) :
    Arrives (h ++ [s]) key i ↔ Arrives h key i := by
  rw [arrives_concat]
  constructor
  · rintro (⟨ha, -⟩ | ⟨-, -, variantId, rfl⟩)
    · exact ha
    · exact absurd rfl hs
  · exact fun ha => Or.inl ⟨ha, fun e => hs (e ▸ rfl)⟩

/-- the keys that arrive are those that hold a variant in the end -/
theorem exists_arrives_iff (h : List Step) (key : String) :
    (∃ i, Arrives h key i) ↔ (latest? h key).isSome := by
  induction h using List.reverseRecOn with
  | nil =>
    refine ⟨fun ⟨i, ha⟩ => absurd ha (not_arrives_nil key i), fun hlive => absurd hlive ?_⟩
    exact Bool.false_ne_true
  | append_singleton h s ih =>
    rw [latest?_concat]
    by_cases hs : s.key = key
    · rw [if_pos hs]
      cases s with
      | choose k variantId =>
        obtain rfl : k = key := hs
        refine ⟨fun _ => rfl, fun _ => ?_⟩
        -- a key that holds a variant keeps its arrival, another arrives with this step
        by_cases hlive : (latest? h k).isSome
        · obtain ⟨i, ha⟩ := ih.mpr hlive
          exact ⟨i, (arrives_concat h _ k i).mpr (Or.inl ⟨ha, Step.noConfusion⟩)⟩
        · have hnone : latest? h k = none := Option.not_isSome_iff_eq_none.mp hlive
          exact ⟨h.length, (arrives_concat h _ k _).mpr (Or.inr ⟨rfl, hnone, variantId, rfl⟩)⟩
      | clear k =>
        obtain rfl : k = key := hs
        refine ⟨fun ⟨i, ha⟩ => ?_, fun hlive => absurd hlive Bool.false_ne_true⟩
        rcases (arrives_concat h _ k i).mp ha with ⟨-, hne⟩ | ⟨-, -, variantId, he⟩
        · exact absurd rfl hne
        · cases he
    · rw [if_neg hs, ← ih]
      exact exists_congr fun i => arrives_concat_of_ne h hs i

/-- a key that holds a variant already has come before the next step -/
theorem Arrives.before {h : List Step} {s : Step} {key : String} {i : Nat}
    (hlive : (latest? h key).isSome) (ha : Arrives (h ++ [s]) key i) : Arrives h key i := by
  rcases (arrives_concat h s key i).mp ha with ⟨hold, -⟩ | ⟨-, hnone, -⟩
  · exact hold
  · rw [hnone] at hlive
    exact absurd hlive Bool.false_ne_true

/-- a key arrives once -/
theorem Arrives.unique {h : List Step} {key : String} {i j : Nat} (hi : Arrives h key i)
    (hj : Arrives h key j) : i = j := by
  induction h using List.reverseRecOn with
  | nil => exact absurd hi (not_arrives_nil key i)
  | append_singleton h s ih =>
    by_cases hlive : (latest? h key).isSome
    · exact ih (hi.before hlive) (hj.before hlive)
    · have hlast : ∀ k, Arrives (h ++ [s]) key k → k = h.length := by
        intro k hk
        rcases (arrives_concat h s key k).mp hk with ⟨hold, -⟩ | ⟨hlen, -⟩
        · exact absurd ((exists_arrives_iff h key).mp ⟨k, hold⟩) hlive
        · exact hlen
      rw [hlast i hi, hlast j hj]

/-! ## a table and its history -/

/-- the table `o` holds what the history `h` says -/
structure Remembers (o : Overrides) (h : List Step) : Prop where
  get? : ∀ key, o.get? key = latest? h key
  distinct : Keyed.Distinct o.entries
  size : o.size = (liveKeys h).length
  /-- every key has come in at one step to stay -/
  arrived : ∀ key ∈ Keyed.keys o.entries, ∃! i, Arrives h key i
  /-- the keys stand in the order in which they have come -/
  ordered : (Keyed.keys o.entries).Pairwise fun k l =>
    ∀ i j, Arrives h k i → Arrives h l j → i < j

theorem get?_step (o : Overrides) (s : Step) (key : String) :
    (o.step s).get? key = if s.key = key then s.variant? else o.get? key := by
  cases s with
  | choose k variantId => exact get?_choose o k key variantId
  | clear k => exact get?_clear o k key

theorem distinct_step {o : Overrides} (s : Step) (h : Keyed.Distinct o.entries) :
    Keyed.Distinct (o.step s).entries := by
  cases s with
  | choose key variantId => exact Keyed.distinct_update o.entries key _ h
  | clear key => exact Keyed.distinct_erase o.entries key h

theorem get?_run (h : List Step) (key : String) : (empty.run h).get? key = latest? h key := by
  induction h using List.reverseRecOn with
  | nil => rfl
  | append_singleton h s ih => rw [run_concat, get?_step, latest?_concat, ih]

theorem distinct_run (h : List Step) : Keyed.Distinct (empty.run h).entries := by
  induction h using List.reverseRecOn with
  | nil => exact Keyed.distinct_nil
  | append_singleton h s ih =>
    rw [run_concat]
    exact distinct_step s ih

theorem mem_keys_run (h : List Step) (key : String) :
    key ∈ Keyed.keys (empty.run h).entries ↔ (latest? h key).isSome := by
  rw [← Keyed.isSome_get?, ← get?_run]
  rfl

theorem ordered_run (h : List Step) :
    (Keyed.keys (empty.run h).entries).Pairwise fun k l =>
      ∀ i j, Arrives h k i → Arrives h l j → i < j := by
  induction h using List.reverseRecOn with
  | nil => exact List.Pairwise.nil
  | append_singleton h s ih =>
    -- the keys that are there have come before the new step, so they stand in order after it as well
    have hold : ∀ k ∈ Keyed.keys (empty.run h).entries, ∀ i,
        Arrives (h ++ [s]) k i → Arrives h k i :=
      fun k hk i ha => ha.before ((mem_keys_run h k).mp hk)
    have hkept := ih.imp_of_mem fun {k l} hk hl hlt i j hi hj =>
      hlt i j (hold k hk i hi) (hold l hl j hj)
    rw [run_concat]
    cases s with
    | choose key variantId =>
      show (Keyed.keys (Keyed.update (empty.run h).entries key _)).Pairwise _
      by_cases hkey : key ∈ Keyed.keys (empty.run h).entries
      · rw [Keyed.keys_update_of_mem _ key _ hkey]
        exact hkept
      · rw [Keyed.keys_update_of_not_mem _ key _ hkey]
        refine List.pairwise_append.mpr ⟨hkept, List.pairwise_singleton _ _, ?_⟩
        intro k hk l hl i j hi hj
        obtain rfl : l = key := List.mem_singleton.mp hl
        have hlt : i < h.length := (hold k hk i hi).lt
        rcases (arrives_concat h _ l j).mp hj with ⟨hbefore, -⟩ | ⟨hlen, -⟩
        · have hlive := (exists_arrives_iff h l).mp ⟨j, hbefore⟩
          exact absurd ((mem_keys_run h l).mpr hlive) hkey
        · rw [hlen]
          exact hlt
    | clear key =>
      exact hkept.sublist ((Keyed.erase_sublist (empty.run h).entries key).map Prod.fst)

theorem length_liveKeys (h : List Step) : (empty.run h).size = (liveKeys h).length := by
  have hnodup : (liveKeys h).Nodup := (nodup_eraseDups _).filter _
  have hperm : (Keyed.keys (empty.run h).entries).Perm (liveKeys h) := by
    refine (List.perm_ext_iff_of_nodup (distinct_run h) hnodup).mpr fun key => ?_
    rw [mem_keys_run, mem_liveKeys]
  show (empty.run h).entries.length = _
  rw [← hperm.length_eq]
  exact (List.length_map _).symm

theorem remembers_run (h : List Step) : Remembers (empty.run h) h where
  get? := get?_run h
  distinct := distinct_run h
  size := length_liveKeys h
  arrived := by
    intro key hkey
    obtain ⟨i, hi⟩ := (exists_arrives_iff h key).mpr ((mem_keys_run h key).mp hkey)
    exact ⟨i, hi, fun j hj => hj.unique hi⟩
  ordered := ordered_run h

theorem remembers_made (pairs : List (String × String)) (steps : List Step) :
    Remembers (made pairs steps) (history pairs steps) := by
  rw [made_eq_run]
  exact remembers_run _

/-! ## what is forgotten -/

/-- a table shows in an expansion by its look-ups only -/
theorem resolver_of_get? {o m : Overrides} (h : ∀ key, o.get? key = m.get? key) :
    o.resolver = m.resolver := by
  have hget : o.get? = m.get? := funext h
  funext p
  show (o.variant? p).getD p.variantOrDefault = (m.variant? p).getD p.variantOrDefault
  unfold variant?
  rw [hget]

/-- **Expansion forgets how the overrides were made.**  A table holds what its history says, with the
keys in the order of their arrival.  Two histories that end with the same variants under the same keys
make equal tables, with as many entries as there are such keys, and the same of every list of nodes;
and a choice under a new key is undone by clearing the key. -/
theorem made_forgets (pairs : List (String × String)) (steps : List Step) :
    Remembers (made pairs steps) (history pairs steps) ∧
      (∀ pairs' steps',
        (∀ key, latest? (history pairs steps) key = latest? (history pairs' steps') key) →
          (made pairs steps).same (made pairs' steps') = true ∧
            (made pairs steps).size = (made pairs' steps').size ∧
            ∀ lookup options nodes,
              (Expander.mk lookup (made pairs steps).resolver options).expand nodes =
                (Expander.mk lookup (made pairs' steps').resolver options).expand nodes) ∧
      ∀ (m : Overrides) (key variantId : String), m.get? key = none →
        (m.choose key variantId).clear key = m := by
  have hfirst := remembers_made pairs steps
  refine ⟨hfirst, ?_, ?_⟩
  · intro pairs' steps' hlatest
    have hsecond := remembers_made pairs' steps'
    have hget : ∀ key, (made pairs steps).get? key = (made pairs' steps').get? key := by
      intro key
      rw [hfirst.get?, hsecond.get?, hlatest]
    have hsame : (made pairs steps).same (made pairs' steps') = true :=
      Keyed.sameEntries_of_get? hfirst.distinct hsecond.distinct hget
    refine ⟨hsame, ?_, fun lookup options nodes => ?_⟩
    · exact beq_iff_eq.mp (Bool.and_eq_true_iff.mp hsame).1
    · rw [resolver_of_get? hget]
  · intro m key variantId hnone
    show Overrides.mk (Keyed.erase (Keyed.insert m.entries key variantId) key) = m
    rw [Keyed.erase_insert hnone]

/-- two ways to choose `tall` for the hero and `dark` for `k1`: the hero comes last in one table and
first in the other, and no expansion tells them apart -/
theorem made_forgets_detour :
    let pairs := [("hero", "split"), ("k1", "dark"), ("hero", "wide")]
    let detour : List Step := [.clear "hero", .choose "hero" "tall"]
    let direct : List Step := [.choose "hero" "tall", .choose "k1" "dark"]
    (∀ key, latest? (history pairs detour) key = latest? (history [] direct) key) ∧
      Keyed.keys (made pairs detour).entries = ["k1", "hero"] ∧
      Keyed.keys (made [] direct).entries = ["hero", "k1"] ∧
      Remembers (made pairs detour) (history pairs detour) ∧
      ((made pairs detour).same (made [] direct) = true ∧
        (made pairs detour).size = (made [] direct).size ∧
        ∀ lookup options nodes,
          (Expander.mk lookup (made pairs detour).resolver options).expand nodes =
            (Expander.mk lookup (made [] direct).resolver options).expand nodes) ∧
      (made [] direct).get? "k2" = none ∧
      ((made [] direct).choose "k2" "wide").clear "k2" = made [] direct := by
  intro pairs detour direct
  have hlatest : ∀ key, latest? (history pairs detour) key = latest? (history [] direct) key := by
    intro key
    show latest? ([.choose "hero" "split", .choose "k1" "dark", .choose "hero" "wide",
      .clear "hero"] ++ [.choose "hero" "tall"]) key =
        latest? ([.choose "hero" "tall"] ++ [.choose "k1" "dark"]) key
    by_cases hhero : "hero" = key
    · subst hhero
      rfl
    · by_cases hk1 : "k1" = key
      · subst hk1
        rfl
      · simp [latest?, Step.key, hhero, hk1]
  obtain ⟨hremembers, hforgets, hundone⟩ := made_forgets pairs detour
  have hnew : (made [] direct).get? "k2" = none := by decide
  exact ⟨hlatest, by decide, by decide, hremembers, hforgets [] direct hlatest, hnew,
    hundone (made [] direct) "k2" "wide" hnew⟩

end Overrides

end Graft
