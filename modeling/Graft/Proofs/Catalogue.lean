import Graft.Proofs.History

/-!
# What a registry lists

The queries of a registry normalize the ids that they are asked for.  The ids that a registry lists
are asked for as they are, so they must be normalized already; a discovered id is safe besides, and
the test of `discoveredTree?` turns away none of them.  Then what is listed is found.

* `Registry.mem_organIds`, `Registry.contains_iff`   what is listed and what is there;
* `Registry.contains_of_lookup`          what is found is there;
* `Registry.Normal`                      a registry that holds normalized ids only;
* `Registry.Normal.isSome_lookup`        the variants that it lists are found;
* `Registry.Normal.lookup_discovered`    an organ only discovered has one tree;
* `Registry.Reflects.normal`             a registry with a sound history is normal;
* `Registry.Catalogued`, `Registry.catalogued_run`   the queries agree, after any changes.
-/

namespace Graft

open Node

namespace Registry

/-! ## any registry -/

theorem mem_organIds (r : Registry) (id : String) :
    id ∈ r.organIds ↔ id ∈ Keyed.keys r.organs ∨ id ∈ Keyed.keys r.discovered := by
  rw [organIds, List.mem_append, List.mem_filter, Bool.not_eq_true', ← Bool.not_eq_true,
    Keyed.contains_iff]
  by_cases h : id ∈ Keyed.keys r.organs
  · simp only [h, true_or]
  · simp only [h, false_or, not_false_eq_true, and_true]

theorem contains_iff (r : Registry) (organId : String) :
    r.contains organId = true ↔ normalizeId organId ∈ r.organIds := by
  rw [mem_organIds, ← Keyed.contains_iff, ← Keyed.contains_iff, ← Bool.or_eq_true]
  rfl

theorem organIds_eq_nil (r : Registry) : r.organIds = [] ↔ r.isEmpty = true := by
  rw [isEmpty_iff]
  constructor
  · intro h
    obtain ⟨horgans, hdiscovered⟩ := List.append_eq_nil_iff.mp h
    rw [Keyed.keys, List.map_eq_nil_iff] at horgans
    rw [horgans, List.filter_eq_nil_iff] at hdiscovered
    have hkeys : Keyed.keys r.discovered = [] :=
      List.eq_nil_iff_forall_not_mem.mpr fun id hid => hdiscovered id hid rfl
    exact ⟨horgans, List.map_eq_nil_iff.mp hkeys⟩
  · rintro ⟨horgans, hdiscovered⟩
    rw [organIds, horgans, hdiscovered]
    rfl

/-- what is found is there -/
theorem contains_of_lookup {r : Registry} {organId variantId : String}
    (h : (r.lookup organId variantId).isSome = true) : r.contains organId = true := by
  rw [contains_iff, mem_organIds, ← Keyed.isSome_get?, ← Keyed.isSome_get?]
  obtain ⟨tree, htree⟩ := Option.isSome_iff_exists.mp h
  rcases Option.or_eq_some_iff.mp htree with hstatic | ⟨_, hdiscovered⟩
  · obtain ⟨variants, hvariants, _⟩ := Option.bind_eq_some_iff.mp hstatic
    exact .inl (Option.isSome_of_eq_some hvariants)
  · unfold discoveredTree? at hdiscovered
    by_cases hsafe : isSafeId (VariantKey.of organId variantId).organ = true
    · rw [if_pos hsafe] at hdiscovered
      exact .inr (Option.isSome_of_eq_some hdiscovered)
    · rw [if_neg hsafe] at hdiscovered
      exact absurd hdiscovered (Option.some_ne_none tree).symm

theorem variantIds_of_organ {r : Registry} {organId : String} {variants : Keyed Json}
    (h : Keyed.get? r.organs (normalizeId organId) = some variants) :
    r.variantIds organId = Keyed.keys variants := by
  simp only [variantIds, h]

/-! ## normalized ids -/

/-- all ids are normalized, and those discovered are safe -/
structure Normal (r : Registry) : Prop where
  organ : ∀ id ∈ Keyed.keys r.organs, normalizeId id = id
  variant : ∀ id variants, Keyed.get? r.organs id = some variants →
    ∀ v ∈ Keyed.keys variants, normalizeId v = v
  label : ∀ id ∈ Keyed.keys r.labels, normalizeId id = id
  safe : ∀ id ∈ Keyed.keys r.discovered, isSafeId id = true

namespace Normal

variable {r : Registry}

theorem organId (hr : r.Normal) {id : String} (hid : id ∈ r.organIds) : normalizeId id = id := by
  rcases (r.mem_organIds id).mp hid with horgan | hdiscovered
  · exact hr.organ id horgan
  · exact normalizeId_of_isSafeId (hr.safe id hdiscovered)

theorem discoveredTree? (hr : r.Normal) (id : String) :
    r.discoveredTree? id = Keyed.get? r.discovered id := by
  unfold Registry.discoveredTree?
  by_cases hid : id ∈ Keyed.keys r.discovered
  · rw [if_pos (hr.safe id hid)]
  · rw [(Keyed.get?_eq_none r.discovered id).mpr hid, ite_self]

theorem lookup_of_normalized (hr : r.Normal) {id : String} (hid : normalizeId id = id)
    (variantId : String) : r.lookup id variantId =
      (r.staticTree? ⟨id, normalizeId variantId⟩).or (Keyed.get? r.discovered id) := by
  show (r.staticTree? ⟨normalizeId id, normalizeId variantId⟩).or
    (r.discoveredTree? (normalizeId id)) = _
  rw [hid, hr.discoveredTree?]

/-- the variants that are listed are found -/
theorem isSome_lookup (hr : r.Normal) {id v : String} (hid : id ∈ r.organIds)
    (hv : v ∈ r.variantIds id) : (r.lookup id v).isSome = true := by
  have hnorm := hr.organId hid
  rw [hr.lookup_of_normalized hnorm]
  cases hvariants : Keyed.get? r.organs id with
  | some variants =>
    rw [variantIds_of_organ (hnorm.symm ▸ hvariants)] at hv
    have htree : (Keyed.get? variants v).isSome = true := (Keyed.isSome_get? variants v).mpr hv
    rw [hr.variant id variants hvariants v hv, staticTree?, hvariants, Option.bind_some,
      Option.isSome_or, Option.isSome_or, htree]
    rfl
  | none =>
    have hdiscovered : (Keyed.get? r.discovered id).isSome = true := by
      refine (Keyed.isSome_get? r.discovered id).mpr (((r.mem_organIds id).mp hid).resolve_left ?_)
      exact (Keyed.get?_eq_none r.organs id).mp hvariants
    rw [Option.isSome_or, hdiscovered, Bool.or_true]

/-- an organ that is only discovered has its tree under every variant -/
theorem lookup_discovered (hr : r.Normal) {id : String} {tree : Json}
    (htree : Keyed.get? r.discovered id = some tree) (hid : id ∉ Keyed.keys r.organs)
    (variantId : String) : r.lookup id variantId = some tree := by
  have hmem : id ∈ Keyed.keys r.discovered := by
    rw [← Keyed.isSome_get?, htree]
    rfl
  have hnorm : normalizeId id = id := normalizeId_of_isSafeId (hr.safe id hmem)
  have hstatic : r.staticTree? ⟨id, normalizeId variantId⟩ = none := by
    rw [staticTree?, (Keyed.get?_eq_none r.organs id).mpr hid]
    rfl
  rw [hr.lookup_of_normalized hnorm, hstatic, htree]
  rfl

end Normal

/-! ## registries with a history -/

namespace History

variable {h : History} {id : String}

theorem normalizeId_of_organs (hid : id ∈ h.organs) : normalizeId id = id := by
  obtain ⟨e, _, he⟩ := List.mem_filterMap.mp hid
  cases e with
  | variant organId variantId tree =>
    rw [← Option.some.inj he, normalizeId_normalizeId]
  | organ organId => rw [← Option.some.inj he, normalizeId_normalizeId]
  | _ => exact absurd he (Option.some_ne_none id).symm

theorem normalizeId_of_variants {v : String} (hv : v ∈ (h.variants id).map Prod.fst) :
    normalizeId v = v := by
  obtain ⟨entry, hentry, rfl⟩ := List.mem_map.mp hv
  obtain ⟨e, _, he⟩ := List.mem_filterMap.mp hentry
  cases e with
  | variant organId variantId tree =>
    by_cases horgan : normalizeId organId = id
    · rw [Record.variant?, if_pos horgan] at he
      rw [← Option.some.inj he, normalizeId_normalizeId]
    · rw [Record.variant?, if_neg horgan] at he
      exact absurd he (Option.some_ne_none entry).symm
  | _ => exact absurd he (Option.some_ne_none entry).symm

theorem normalizeId_of_labels (hid : id ∈ h.labels.map Prod.fst) : normalizeId id = id := by
  obtain ⟨entry, hentry, rfl⟩ := List.mem_map.mp hid
  obtain ⟨e, _, he⟩ := List.mem_filterMap.mp hentry
  cases e with
  | label organId text => rw [← Option.some.inj he, normalizeId_normalizeId]
  | _ => exact absurd he (Option.some_ne_none entry).symm

end History

namespace Reflects

variable {r : Registry} {h : History}

theorem normal (hr : r.Reflects h) (hsound : ∀ e ∈ h, e.Sound) : r.Normal where
  organ := fun id hid => History.normalizeId_of_organs (hr.mem_organs.mp hid)
  variant := fun id variants hvariants v hv => by
    rw [hr.variants id variants hvariants, Keyed.mem_keys_ofList] at hv
    exact History.normalizeId_of_variants hv
  label := fun id hid => by
    rw [hr.labels, Keyed.mem_keys_ofList] at hid
    exact History.normalizeId_of_labels hid
  safe := fun id hid => by
    rw [hr.discovered, Keyed.mem_keys_ofList] at hid
    exact History.isSafeId_of_discovered hsound hid

/-- the static organs as they first came, then those only discovered as they first came -/
theorem organIds (hr : r.Reflects h) :
    r.organIds = h.organs.eraseDups ++
      (h.discovered.map Prod.fst).eraseDups.filter fun id => id ∉ h.organs := by
  have hnew : ∀ id, (!Keyed.contains r.organs id) = decide (id ∉ h.organs) := by
    intro id
    rw [Bool.eq_iff_iff, Bool.not_eq_true', ← Bool.not_eq_true, Keyed.contains_iff, hr.mem_organs,
      decide_eq_true_iff]
  rw [Registry.organIds, hr.organs, hr.discovered, Keyed.keys_ofList]
  simp only [hnew]

theorem nodup_organIds (hr : r.Reflects h) : r.organIds.Nodup := by
  rw [hr.organIds]
  refine List.nodup_append.mpr ⟨nodup_eraseDups _, (nodup_eraseDups _).filter _, ?_⟩
  intro a ha b hb hab
  have hnew : b ∉ h.organs := of_decide_eq_true (List.mem_filter.mp hb).2
  exact hnew (hab ▸ List.mem_eraseDups.mp ha)

end Reflects

/-- The ids that a registry holds are normalized, and its queries agree on what there is: organs are
listed once, the static ones as they were first registered and then those only discovered, and what is
listed is found. -/
structure Catalogued (r : Registry) (h : History) : Prop where
  normal : r.Normal
  nodup : r.organIds.Nodup
  organIds : r.organIds = h.organs.eraseDups ++
    (h.discovered.map Prod.fst).eraseDups.filter fun id => id ∉ h.organs
  size : r.size = r.organIds.length
  isEmpty : r.isEmpty = true ↔ r.organIds = []
  contains : ∀ x, r.contains x = true ↔ normalizeId x ∈ r.organIds
  isSome_lookup : ∀ id ∈ r.organIds, ∀ v ∈ r.variantIds id, (r.lookup id v).isSome = true
  contains_of_lookup : ∀ x y, (r.lookup x y).isSome = true → r.contains x = true
  lookup_discovered : ∀ id tree, Keyed.get? r.discovered id = some tree →
    id ∉ Keyed.keys r.organs → ∀ y, r.lookup id y = some tree

/-- **A registry finds what it lists**, after any changes, also failing ones. -/
theorem catalogued_run (start : Start) (changes : List Change) :
    (start.registry.run changes).Catalogued (history start changes) := by
  have hr := reflects_run start changes
  have hnormal := hr.normal (history_sound start changes)
  exact {
    normal := hnormal
    nodup := hr.nodup_organIds
    organIds := hr.organIds
    size := rfl
    isEmpty := (organIds_eq_nil _).symm
    contains := contains_iff _
    isSome_lookup := fun id hid v hv => hnormal.isSome_lookup hid hv
    contains_of_lookup := fun x y => contains_of_lookup
    lookup_discovered := fun id tree htree hid => hnormal.lookup_discovered htree hid }

example : (Start.labelled.registry.run [.registerDiscovered "FAQ.json" .null,
    .registerVariant " Hero" "Wide" .null, .registerDiscovered "hero.json" .null]).organIds =
    ["hero", "faq"] := by decide +kernel

end Registry

end Graft
