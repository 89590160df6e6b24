import Graft.Proofs.CycleGuard
import Mathlib.Data.Finset.Prod

/-!
# How deep organs can nest

A key is an organ and a variant of it.  An expansion comes to no organ but those that the nodes and the
registered trees name, and it chooses no variant but the default, those that they author and those of
the overrides.  So there are no more keys than pairs of the two, however the trees refer to one another.

* `candidates`              the variants that a placeholder may get, and `resolveVariant_mem_candidates`;
* `Registry.organPool`, `Registry.variantPool`   the normalized ids of both kinds;
* `Registry.keyOf_mem_pairs`   every key that is met is a pair of them;
* `Registry.maxDepthExceeded_not_reported`   with a level for every pair no depth is reported.
-/

namespace Graft

open Node Expander

/-! ## the variant that is chosen -/

/-- the variants that the overrides, the placeholders and the default name -/
def candidates (overrides : Option Overrides) (ps : List Placeholder) : List String :=
  defaultVariant :: ps.filterMap Placeholder.variant ++
    (overrides.map fun o => o.entries.map Prod.snd).getD []

theorem Overrides.mem_of_variant? {o : Overrides} {p : Placeholder} {variantId : String}
    (h : o.variant? p = some variantId) : variantId ∈ o.entries.map Prod.snd := by
  rcases Option.or_eq_some_iff.mp h with h | ⟨_, h⟩
  · obtain ⟨key, _, hv⟩ := Option.bind_eq_some_iff.mp h
    exact List.mem_map_of_mem (Keyed.mem_of_get? hv)
  · exact List.mem_map_of_mem (Keyed.mem_of_get? h)

/-- a placeholder may say its variant as another one does -/
theorem resolveVariant_mem_candidates (overrides : Option Overrides) {ps : List Placeholder}
    {p t : Placeholder} (ht : t ∈ ps) (hv : p.variant = t.variant) :
    resolveVariant overrides p ∈ candidates overrides ps := by
  unfold resolveVariant candidates
  cases ho : overrides.bind fun o => o.variant? p with
  | some variantId =>
    obtain ⟨o, rfl, hvariant⟩ := Option.bind_eq_some_iff.mp ho
    exact List.mem_append_right _ (Overrides.mem_of_variant? hvariant)
  | none =>
    refine List.mem_append_left _ ?_
    rw [Option.getD_none, Placeholder.variantOrDefault, hv]
    cases hvariant : t.variant with
    | none => exact List.mem_cons_self
    | some variantId => exact List.mem_cons_of_mem _ (List.mem_filterMap.mpr ⟨t, ht, hvariant⟩)

namespace Registry

variable (r : Registry) (overrides : Option Overrides) (options : ExpandOptions) (nodes : List Json)

theorem lookup_withOverrides :
    ((r.expander options).withOverrides overrides).lookup = r.toLookup := by
  cases overrides <;> rfl

theorem options_withOverrides :
    ((r.expander options).withOverrides overrides).options = options := by
  cases overrides <;> rfl

theorem resolver_withOverrides (p : Placeholder) :
    ((r.expander options).withOverrides overrides).resolver p = resolveVariant overrides p := by
  cases overrides <;> rfl

/-! ## organs and variants -/

/-- the organs that placeholders of the nodes and of the registered trees name -/
def organPool : Finset String :=
  ((placeholders (nodes ++ r.trees)).map fun p => normalizeId p.organId).toFinset

def variantPool : Finset String :=
  ((candidates overrides (placeholders (nodes ++ r.trees))).map normalizeId).toFinset

/-- the keys of all organs in all variants -/
def pairs : Finset VariantKey :=
  (r.organPool nodes ×ˢ r.variantPool overrides nodes).image fun pair => ⟨pair.1, pair.2⟩

theorem card_pairs :
    (r.pairs overrides nodes).card ≤
      (r.organPool nodes).card * (r.variantPool overrides nodes).card := by
  rw [← Finset.card_product]
  exact Finset.card_image_le

theorem keyOf_mem_pairs {p : Placeholder}
    (h : ((r.expander options).withOverrides overrides).Encounters nodes p) :
    ((r.expander options).withOverrides overrides).keyOf p ∈ r.pairs overrides nodes := by
  obtain ⟨t, ht, horgan, hvariant⟩ := source_of_encounters (r.lookup_withOverrides _ _) h
  have ho : normalizeId p.organId ∈ r.organPool nodes :=
    List.mem_toFinset.mpr (List.mem_map.mpr ⟨t, ht, by rw [horgan]⟩)
  have hv : normalizeId (resolveVariant overrides p) ∈ r.variantPool overrides nodes :=
    List.mem_toFinset.mpr (List.mem_map_of_mem (resolveVariant_mem_candidates _ ht hvariant))
  refine Finset.mem_image.mpr ⟨⟨_, _⟩, Finset.mem_product.mpr ⟨ho, hv⟩, ?_⟩
  rw [keyOf, resolver_withOverrides]
  rfl

/-! ## the guard against depth -/

/-- **The guard against cycles bounds the nesting.**  If organs may nest as deep as there are organs
times variants, the guard against depth never acts, whatever the trees refer to. -/
theorem maxDepthExceeded_not_reported
    (h : (r.organPool nodes).card * (r.variantPool overrides nodes).card ≤ options.maxDepth)
    (n : Nat) : .maxDepthExceeded n ∉
      (((r.expander options).withOverrides overrides).expand nodes).diagnostics := by
  refine depth_not_reported_of_known
    (fun p hp => r.keyOf_mem_pairs overrides options nodes hp) ?_ n
  rw [options_withOverrides]
  exact (r.card_pairs overrides nodes).trans h

/-- cards and heroes, plain and wide, where each shows the next: the plain card the plain hero, that one
the wide card, that one the hero which the overrides make wide, and the wide hero the plain card again -/
def ringRegistry : Registry :=
  let showing (organ : Keyed Json) : Json := .object [("children", .array [.object organ])]
  (((Registry.empty.registerVariant "card" "default"
    (showing [("type", .string "organ"), ("organId", .string "Hero")])).registerVariant
    "hero" "default" (showing [("type", .string "organ"), ("organId", .string "card"),
      ("variant", .string "wide")])).registerVariant
    "card" "wide" (showing [("type", .string "organ"), ("organId", .string "hero"),
      ("id", .string "top")])).registerVariant
    "hero" "wide" (showing [("type", .string "organ"), ("organId", .string "card")])

def ringOverrides : Overrides := .ofList [("top", " WIDE ")]

def ringPage : List Json := [.object [("type", .string "organ"), ("organId", .string "card")]]

/-- two organs in two variants, and all four of them open when the fifth placeholder is met -/
theorem maxDepthExceeded_not_reported_ring :
    (ringRegistry.organPool ringPage).card *
        (ringRegistry.variantPool (some ringOverrides) ringPage).card ≤ 4 ∧
      ∀ n, .maxDepthExceeded n ∉ (((ringRegistry.expander { maxDepth := 4 }).withOverrides
        (some ringOverrides)).expand ringPage).diagnostics := by
  have h : (ringRegistry.organPool ringPage).card *
      (ringRegistry.variantPool (some ringOverrides) ringPage).card ≤ 4 := by decide +kernel
  exact ⟨h, ringRegistry.maxDepthExceeded_not_reported _ { maxDepth := 4 } ringPage h⟩

/-- one level less is not enough -/
example : (((ringRegistry.expander { maxDepth := 3 }).withOverrides
    (some ringOverrides)).expand ringPage).diagnostics = [.maxDepthExceeded 3] := by decide +kernel

end Registry

end Graft
