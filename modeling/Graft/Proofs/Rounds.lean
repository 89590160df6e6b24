import Graft.Proofs.Encounters
import Mathlib.Data.List.Chain

/-!
# A reported cycle is one

The organs that are open are a path: the tree of each leads to the placeholder of the next, as an alias
or below its root.  A placeholder that is refused for a cycle stands at the end of that path, and what is
reported is the part of it since the first visit of its key.

* `Expander.Refers`        from key to key, where the tree of one placeholder leads to the other;
* `Meets.isChain_refers`   the open organs are a path, which the placeholder itself continues;
* `exists_dropWhile_ne`    what is dropped before a key ends where it first occurs;
* `Expander.round_of_cycleDetected`   a reported cycle goes round along references.
-/

namespace Graft

open Node

namespace Expander

/-! ## references -/

/-- two placeholders with the keys `k` and `l` are met, and the tree of the one leads to the other -/
def Refers (x : Expander) (nodes : List Json) (k l : VariantKey) : Prop :=
  ∃ p q, x.Encounters nodes p ∧ x.Encounters nodes q ∧ x.keyOf p = k ∧ x.keyOf q = l ∧ x.LeadsTo p q

variable {x : Expander} {nodes : List Json}

/-! ## the path of the open organs -/

theorem Meets.isChain_refers {left : Nat} {stack : List VariantKey} {fields : Keyed Json}
    (h : x.Meets nodes left stack fields) {q : Placeholder}
    (hq : Placeholder.ofFields? fields = some q) :
    (stack ++ [x.keyOf q]).IsChain (x.Refers nodes) := by
  induction h generalizing q with
  | exposed hm => exact List.isChain_singleton _
  | @inside left stack fields p tree inner above entry hm ih =>
    refine (ih entry.view).append (List.isChain_singleton _) fun k hk l hl => ?_
    -- the path so far ends with the organ that was opened last
    obtain rfl : x.keyOf p = k := by simpa using hk
    obtain rfl : x.keyOf q = l := by simpa using hl
    exact ⟨p, q, above.encounters entry.view, (above.inside entry hm).encounters hq, rfl, rfl,
      leadsTo_of_entry entry hm hq⟩

theorem exists_dropWhile_ne {stack : List VariantKey} {key : VariantKey} (h : key ∈ stack) :
    ∃ before rest, stack = before ++ key :: rest ∧ stack.dropWhile (· ≠ key) = key :: rest := by
  induction stack with
  | nil => exact absurd h List.not_mem_nil
  | cons k stack ih =>
    by_cases hk : k = key
    · refine ⟨[], stack, by rw [hk, List.nil_append], ?_⟩
      rw [List.dropWhile_cons_of_neg (by simpa using hk), hk]
    · obtain ⟨before, rest, hstack, hdrop⟩ := ih ((List.mem_cons.mp h).resolve_left (Ne.symm hk))
      refine ⟨k :: before, rest, by rw [hstack, List.cons_append], ?_⟩
      rw [List.dropWhile_cons_of_pos (by simpa using hk), hdrop]

/-! ## cycles -/

/-- **A reported cycle is one.**  It returns to the key that it starts with; until then no key comes
twice, and there are no more of them than organs may nest.  Each key is that of a placeholder which the
expansion comes to, and the tree loaded for a placeholder with the one key leads to a placeholder with
the next. -/
theorem round_of_cycleDetected {cycle : List VariantKey}
    (h : .cycleDetected cycle ∈ (x.expand nodes).diagnostics) :
    ∃ first rest, cycle = first :: rest ++ [first] ∧ (first :: rest).Nodup ∧
      (first :: rest).length ≤ x.options.maxDepth ∧ cycle.IsChain (x.Refers nodes) ∧
      ∀ k ∈ cycle, ∃ p, x.Encounters nodes p ∧ k = x.keyOf p ∧
        k.render = normalizeId p.organId ++ ":" ++ normalizeId (x.resolver p) := by
  obtain ⟨left, stack, fields, hmeets, hrefused⟩ := mem_diagnostics_iff_refused.mp h
  cases hrefused with
  | @cycle _ _ _ p hp hs =>
    obtain ⟨before, rest, hstack, hdrop⟩ := exists_dropWhile_ne hs
    have hcycle : cycleOf stack (x.keyOf p) = x.keyOf p :: rest ++ [x.keyOf p] := by
      rw [cycleOf, hdrop]
    have hsuffix : x.keyOf p :: rest <:+ stack := ⟨before, hstack.symm⟩
    have hpath : (x.keyOf p :: rest ++ [x.keyOf p]).IsChain (x.Refers nodes) := by
      refine (hmeets.isChain_refers hp).suffix ⟨before, ?_⟩
      rw [← List.append_assoc, ← hstack]
    refine ⟨x.keyOf p, rest, hcycle, hmeets.nodup.sublist hsuffix.sublist, ?_, hcycle ▸ hpath, ?_⟩
    · have := hmeets.spent
      have := hsuffix.length_le
      omega
    · intro k hk
      rw [hcycle, List.mem_append, List.mem_singleton] at hk
      have hmet : ∃ q, x.Encounters nodes q ∧ x.keyOf q = k := by
        rcases hk with hk | rfl
        · exact hmeets.of_mem_stack k (hsuffix.subset hk)
        · exact ⟨p, hmeets.encounters hp, rfl⟩
      obtain ⟨q, hq, rfl⟩ := hmet
      exact ⟨q, hq, rfl, rfl⟩

/-- a tour shows a hero, which is an alias of a card, which shows a hero again -/
def tourExpander : Expander where
  lookup := .ofTable [
    ⟨"tour", none, .object [("children", .array [.object [("type", .string "organ"),
      ("organId", .string "hero")]])]⟩,
    ⟨"hero", none, .object [("type", .string "organ"), ("organId", .string "card")]⟩,
    ⟨"card", none, .object [("children", .array [.object [("children", .array [
      .object [("type", .string "organ"), ("organId", .string " HERO ")]])]])]⟩]
  options := { maxDepth := 3 }

def tourNodes : List Json := [.object [("type", .string "organ"), ("organId", .string "tour")]]

/-- the tour is open as well, but no part of the cycle -/
def tourCycle : List VariantKey := [⟨"hero", "default"⟩, ⟨"card", "default"⟩, ⟨"hero", "default"⟩]

theorem round_of_cycleDetected_tour :
    .cycleDetected tourCycle ∈ (tourExpander.expand tourNodes).diagnostics ∧
      ∃ first rest, tourCycle = first :: rest ++ [first] ∧ (first :: rest).Nodup ∧
        (first :: rest).length ≤ 3 ∧ tourCycle.IsChain (tourExpander.Refers tourNodes) ∧
        ∀ k ∈ tourCycle, ∃ p, tourExpander.Encounters tourNodes p ∧ k = tourExpander.keyOf p ∧
          k.render = normalizeId p.organId ++ ":" ++ normalizeId (tourExpander.resolver p) := by
  have h : .cycleDetected tourCycle ∈ (tourExpander.expand tourNodes).diagnostics := by
    decide +kernel
  exact ⟨h, round_of_cycleDetected h⟩

end Expander

end Graft
