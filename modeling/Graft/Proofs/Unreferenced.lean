import Graft.Proofs.Agreement
import Graft.Proofs.CycleGuard
import Graft.Proofs.Entries
import Graft.Registry.Change

/-!
# Organs that nothing refers to

A registration for an organ changes what a registry answers about this organ, in any spelling of its id,
and about no other.  An expansion asks a registry about the organs that a scan of its nodes and of the
registered trees collects.  So nothing that is registered for any other organ is felt, whatever trees it
brings along: they are not loaded.

* `mem_organIds_iff`             what a scan collects are the organs of the placeholders it finds;
* `Registry.AgreeOff`            two registries that hold the same under all organs but one;
* `Registry.Change.For`          a registration for an organ;
* `Registry.agreeOff_apply`, `Registry.agreeOff_run`   one of them and any number of them;
* `Expander.expand_unreferenced` an expansion does not feel them.
-/

namespace Graft

open Node

/-! ## the organs that are collected -/

/-- every organ once, as they are first named -/
theorem organIds_eq (nodes : List Json) :
    organIds nodes = ((placeholders nodes).map Placeholder.organId).eraseDups := by
  unfold organIds
  generalize placeholders nodes = ps
  induction ps using List.reverseRecOn with
  | nil => rfl
  | append_singleton ps p ih =>
    rw [List.foldl_append, List.map_append, List.map_singleton, eraseDups_concat, ih]
    simp only [List.foldl_cons, List.foldl_nil, List.mem_eraseDups]

theorem mem_organIds_iff {nodes : List Json} {id : String} :
    id ∈ organIds nodes ↔ ∃ p ∈ placeholders nodes, p.organId = id := by
  rw [organIds_eq, List.mem_eraseDups, List.mem_map]

/-! ## registries that differ under one organ -/

namespace Registry

/-- `s` holds under every organ but `id` what `r` holds; both are taken as normalized -/
structure AgreeOff (id : String) (r s : Registry) : Prop where
  organs : ∀ k, k ≠ id → Keyed.get? s.organs k = Keyed.get? r.organs k
  discovered : ∀ k, k ≠ id → Keyed.get? s.discovered k = Keyed.get? r.discovered k

namespace AgreeOff

variable {id : String} {r s t : Registry}

theorem refl (id : String) (r : Registry) : AgreeOff id r r := ⟨fun _ _ => rfl, fun _ _ => rfl⟩

theorem trans (h : AgreeOff id r s) (h' : AgreeOff id s t) : AgreeOff id r t where
  organs := fun k hk => (h'.organs k hk).trans (h.organs k hk)
  discovered := fun k hk => (h'.discovered k hk).trans (h.discovered k hk)

theorem lookup (h : AgreeOff id r s) {organId : String} (hid : normalizeId organId ≠ id)
    (variantId : String) : s.lookup organId variantId = r.lookup organId variantId := by
  have hstatic : s.staticTree? (.of organId variantId) = r.staticTree? (.of organId variantId) := by
    unfold staticTree?
    rw [h.organs (VariantKey.of organId variantId).organ hid]
  have hdiscovered : s.discoveredTree? (normalizeId organId) =
      r.discoveredTree? (normalizeId organId) := by
    unfold discoveredTree?
    rw [h.discovered _ hid]
  show (s.staticTree? (.of organId variantId)).or (s.discoveredTree? (normalizeId organId)) =
    (r.staticTree? (.of organId variantId)).or (r.discoveredTree? (normalizeId organId))
  rw [hstatic, hdiscovered]

theorem contains (h : AgreeOff id r s) {organId : String} (hid : normalizeId organId ≠ id) :
    s.contains organId = r.contains organId := by
  show (Keyed.contains s.organs (normalizeId organId) ||
      Keyed.contains s.discovered (normalizeId organId)) =
    (Keyed.contains r.organs (normalizeId organId) ||
      Keyed.contains r.discovered (normalizeId organId))
  unfold Keyed.contains
  rw [h.organs _ hid, h.discovered _ hid]

end AgreeOff

theorem agreeOff_setLabel (id : String) (r : Registry) (organId label : String) :
    AgreeOff id r (r.setLabel organId label) := ⟨fun _ _ => rfl, fun _ _ => rfl⟩

theorem agreeOff_putOrgan (r : Registry) (organId : String) (trees : List (String × Json)) :
    AgreeOff (normalizeId organId) r (r.putOrgan organId trees) where
  organs := fun k hk => by
    unfold putOrgan
    rw [Keyed.get?_update, if_neg (Ne.symm hk)]
  discovered := fun _ _ => rfl

theorem agreeOff_putDiscovered (r : Registry) (id : String) (tree : Json) :
    AgreeOff id r (r.putDiscovered id tree) where
  organs := fun _ _ => rfl
  discovered := fun k hk => by
    unfold putDiscovered
    rw [Keyed.get?_insert, if_neg (Ne.symm hk)]

/-! ## registrations for an organ -/

/-- a registration for the organ `organId`, in any spelling; a file is for the organ it stands for -/
def Change.For (organId : String) : Change → Prop
  | .registerVariant id _ _ => normalizeId id = normalizeId organId
  | .registerOrgan organ => normalizeId organ.id = normalizeId organId
  | .registerDiscovered name _ => discoveredId name = normalizeId organId
  | _ => False

instance (organId : String) (change : Change) : Decidable (change.For organId) :=
  match change with
  | .registerVariant id _ _ => inferInstanceAs (Decidable (normalizeId id = normalizeId organId))
  | .registerOrgan organ => inferInstanceAs (Decidable (normalizeId organ.id = normalizeId organId))
  | .registerDiscovered name _ =>
    inferInstanceAs (Decidable (discoveredId name = normalizeId organId))
  | .loadBundle _ | .discover _ | .setLabel _ _ => inferInstanceAs (Decidable False)

theorem agreeOff_apply {organId : String} {change : Change} (h : change.For organId) (r : Registry) :
    AgreeOff (normalizeId organId) r (r.apply change) := by
  cases change with
  | registerVariant id variantId tree =>
    have hid : normalizeId id = normalizeId organId := h
    rw [← hid]
    exact r.agreeOff_putOrgan id [(variantId, tree)]
  | registerOrgan organ =>
    have hid : normalizeId organ.id = normalizeId organId := h
    rw [← hid]
    show AgreeOff _ r (r.registerOrgan organ)
    unfold registerOrgan
    cases organ.label with
    | none => exact r.agreeOff_putOrgan organ.id organ.variants
    | some label =>
      exact (r.agreeOff_setLabel _ organ.id label).trans (agreeOff_putOrgan _ organ.id organ.variants)
  | registerDiscovered name tree =>
    have hid : discoveredId name = normalizeId organId := h
    rw [← hid]
    show AgreeOff _ r (r.registerDiscovered name tree).1
    unfold registerDiscovered
    by_cases hsafe : isSafeId (discoveredId name) = true
    · simp only [if_pos hsafe]
      exact r.agreeOff_putDiscovered (discoveredId name) tree
    · simp only [if_neg hsafe]
      exact .refl _ r
  | loadBundle bundle => exact absurd h not_false
  | discover directory => exact absurd h not_false
  | setLabel id label => exact absurd h not_false

theorem agreeOff_run {organId : String} {changes : List Change}
    (h : ∀ change ∈ changes, change.For organId) (r : Registry) :
    AgreeOff (normalizeId organId) r (r.run changes) := by
  induction changes generalizing r with
  | nil => exact .refl _ r
  | cons change changes ih =>
    obtain ⟨hchange, hrest⟩ := List.forall_mem_cons.mp h
    rw [run_cons]
    exact (agreeOff_apply hchange r).trans (ih hrest (r.apply change))

end Registry

/-! ## expansions -/

namespace Expander

/-- an expansion meets no organ but those that its nodes and the registered trees name -/
theorem organId_of_encounters {r : Registry} {x : Expander} (hx : x.lookup = r.toLookup)
    {nodes : List Json} {p : Placeholder} (h : x.Encounters nodes p) :
    p.organId ∈ organIds nodes ∨ ∃ tree ∈ r.trees, p.organId ∈ organIds [tree] := by
  obtain ⟨t, ht, horgan, _⟩ := Registry.source_of_encounters hx h
  rw [placeholders_append, List.mem_append] at ht
  rcases ht with ht | ht
  · exact .inl (mem_organIds_iff.mpr ⟨t, ht, horgan.symm⟩)
  · obtain ⟨tree, htree, ht⟩ := mem_placeholders.mp ht
    exact .inr ⟨tree, htree, mem_organIds_iff.mpr ⟨t, ht, horgan.symm⟩⟩

/-- **An expansion reads only what is referred to.**  If neither the nodes nor any registered tree names
an organ, in whatever spelling, then no registrations for it change the output or the diagnostics. -/
theorem expand_unreferenced (r : Registry) (resolver : Resolver) (options : ExpandOptions)
    (nodes : List Json) (organId : String) (changes : List Registry.Change)
    (hfor : ∀ change ∈ changes, change.For organId)
    (hnodes : ∀ id ∈ organIds nodes, normalizeId id ≠ normalizeId organId)
    (htrees : ∀ tree ∈ r.trees, ∀ id ∈ organIds [tree], normalizeId id ≠ normalizeId organId) :
    (Expander.mk (r.run changes).toLookup resolver options).expand nodes =
      (Expander.mk r.toLookup resolver options).expand nodes := by
  have hoff : Registry.AgreeOff (normalizeId organId) r (r.run changes) :=
    Registry.agreeOff_run hfor r
  refine expand_agree (x := ⟨r.toLookup, resolver, options⟩)
    (y := ⟨(r.run changes).toLookup, resolver, options⟩) rfl fun p hp => ?_
  have hid : normalizeId p.organId ≠ normalizeId organId := by
    rcases organId_of_encounters rfl hp with hid | ⟨tree, htree, hid⟩
    · exact hnodes _ hid
    · exact htrees tree htree _ hid
  exact ⟨rfl, hoff.lookup hid _, hoff.contains hid⟩

/-- `hero` is an alias of a card, a card shows a note that nobody has registered, and `faq` was found in
a file -/
def boardRegistry : Registry :=
  Registry.empty.run [
    .registerVariant "Hero" "default" (.object [("type", .string "organ"),
      ("organId", .string "CARD"), ("variant", .string "wide")]),
    .registerVariant "card" "default" (.object [("children", .array [
      .object [("type", .string "organ"), ("organId", .string " note")]])]),
    .registerDiscovered "faq.json" (.object [("type", .string "Text")])]

def boardPage : List Json := [
  .object [("type", .string "organ"), ("organId", .string "hero"), ("id", .string "h1")],
  .object [("children", .array [.object [("type", .string "organ"), ("organId", .string "FAQ")]])]]

/-- the same organ three ways; its trees refer to the hero and to itself -/
def promoChanges : List Registry.Change := [
  .registerVariant " PROMO" "wide" (.object [("type", .string "organ"), ("organId", .string "hero")]),
  .registerOrgan ⟨"Promo", some "Promotions", [("default", .null)]⟩,
  .registerDiscovered "promo.json" (.object [("children", .array [
    .object [("type", .string "organ"), ("organId", .string "promo")]])])]

theorem expand_unreferenced_boardPage :
    ((∀ change ∈ promoChanges, change.For "promo") ∧
        (∀ id ∈ organIds boardPage, normalizeId id ≠ normalizeId "promo") ∧
        ∀ tree ∈ boardRegistry.trees, ∀ id ∈ organIds [tree],
          normalizeId id ≠ normalizeId "promo") ∧
      boardRegistry.contains "promo" = false ∧
      (boardRegistry.run promoChanges).contains "promo" = true ∧
      (Expander.mk (boardRegistry.run promoChanges).toLookup .authored {}).expand boardPage =
        (Expander.mk boardRegistry.toLookup .authored {}).expand boardPage := by
  have hfor : ∀ change ∈ promoChanges, change.For "promo" := by decide +kernel
  have hnodes : ∀ id ∈ organIds boardPage, normalizeId id ≠ normalizeId "promo" := by
    decide +kernel
  have htrees : ∀ tree ∈ boardRegistry.trees, ∀ id ∈ organIds [tree],
      normalizeId id ≠ normalizeId "promo" := by decide +kernel
  exact ⟨⟨hfor, hnodes, htrees⟩, by decide +kernel, by decide +kernel,
    expand_unreferenced boardRegistry .authored {} boardPage "promo" promoChanges hfor hnodes htrees⟩

/-- a note is referred to by a card, and the expansion does feel it -/
example : (Expander.mk (boardRegistry.run [.registerDiscovered "Note" .null]).toLookup
    .authored {}).expand boardPage ≠
      (Expander.mk boardRegistry.toLookup .authored {}).expand boardPage := by decide +kernel

end Expander

end Graft
