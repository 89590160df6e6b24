import Graft.Proofs.History

/-!
# A bundle, organ by organ

A bundle is loaded variant by variant, an organ that is registered with all its variants at once.  Both
come to the same: the first variant makes the organ, the others find it there, and trees under one
normalized id replace one another in the order in which they are written.  Only an organ without
variants tells the two apart, since a bundle never gets to it.

* `Registry.bundled?`               the organ of a bundle's entry, if it has a variant;
* `registerVariants_of_ne_nil`      variants one by one, or all at once;
* `loadOrgans_append`               the first entries of a bundle, and then the others;
* `loadOrgans_beside`               labels and discovered organs stay;
* `Registry.loadBundle_by_organs`   bundles, also those that fail.
-/

namespace Graft.Registry

/-- the organ of a bundle's entry, if it has a variant -/
def bundled? : String × Json → Option Organ
  | (organId, .object (first :: rest)) => some ⟨organId, none, first :: rest⟩
  | _ => none

/-! ## one organ -/

/-- the first variant makes the organ, and the others come to it -/
theorem registerVariants_of_ne_nil (r : Registry) (organId : String) {variants : Keyed Json}
    (h : variants ≠ []) :
    r.registerVariants organId variants = r.registerOrgan ⟨organId, none, variants⟩ := by
  cases variants with
  | nil => exact absurd rfl h
  | cons first rest =>
    have hrest := r.foldl_variant organId [first] rest
    rw [List.foldl_map] at hrest
    exact hrest

theorem registerVariants_beside (r : Registry) (organId : String) (variants : Keyed Json) :
    (r.registerVariants organId variants).labels = r.labels ∧
      (r.registerVariants organId variants).discovered = r.discovered := by
  cases variants with
  | nil => exact ⟨rfl, rfl⟩
  | cons first rest =>
    rw [registerVariants_of_ne_nil _ _ (List.cons_ne_nil first rest)]
    exact ⟨rfl, rfl⟩

/-- an entry that is an object registers its organ, if there is one -/
theorem loadOrgans_cons (r : Registry) {entry : String × Json} (h : entry.2.kind = .object)
    (rest : List (String × Json)) :
    r.loadOrgans (entry :: rest) =
      ((bundled? entry).toList.foldl registerOrgan r).loadOrgans rest := by
  obtain ⟨organId, value⟩ := entry
  cases value with
  | object variants =>
    rw [loadOrgans]
    cases variants with
    | nil => rfl
    | cons first others =>
      rw [registerVariants_of_ne_nil _ _ (List.cons_ne_nil first others)]
      rfl
  | _ => exact nomatch h

/-- an entry that is no object is the end -/
theorem loadOrgans_cons_misfit (r : Registry) (organId : String) {value : Json}
    (h : value.kind ≠ .object) (rest : List (String × Json)) :
    r.loadOrgans ((organId, value) :: rest) = (r, .error (.variantsNotObject organId)) := by
  cases value with
  | object variants => exact absurd rfl h
  | _ => rfl

/-! ## all organs -/

/-- where the first entries are objects, their organs are registered before the others are looked at -/
theorem loadOrgans_append (r : Registry) (before rest : List (String × Json))
    (h : ∀ entry ∈ before, entry.2.kind = .object) :
    r.loadOrgans (before ++ rest) =
      ((before.filterMap bundled?).foldl registerOrgan r).loadOrgans rest := by
  induction before generalizing r with
  | nil => rfl
  | cons entry before ih =>
    have hfold : (entry :: before).filterMap bundled? =
        (bundled? entry).toList ++ before.filterMap bundled? := by
      cases hb : bundled? entry with
      | none => exact List.filterMap_cons_none hb
      | some organ => exact List.filterMap_cons_some hb
    rw [List.cons_append, loadOrgans_cons _ (h entry List.mem_cons_self),
      ih _ fun e he => h e (List.mem_cons_of_mem _ he), hfold, List.foldl_append]

theorem loadOrgans_of_objects (r : Registry) (organs : List (String × Json))
    (h : ∀ entry ∈ organs, entry.2.kind = .object) :
    r.loadOrgans organs = ((organs.filterMap bundled?).foldl registerOrgan r, .ok ()) := by
  have happend := r.loadOrgans_append organs [] h
  rwa [List.append_nil] at happend

theorem loadOrgans_ok_iff (r : Registry) (organs : List (String × Json)) :
    (r.loadOrgans organs).2 = .ok () ↔ ∀ entry ∈ organs, entry.2.kind = .object := by
  induction organs generalizing r with
  | nil => exact ⟨fun _ _ h => absurd h List.not_mem_nil, fun _ => rfl⟩
  | cons entry rest ih =>
    rw [List.forall_mem_cons]
    by_cases hkind : entry.2.kind = .object
    · rw [loadOrgans_cons _ hkind, ih, and_iff_right hkind]
    · rw [show entry = (entry.1, entry.2) from rfl, loadOrgans_cons_misfit _ _ hkind]
      exact ⟨fun h => (nomatch h), fun h => absurd h.1 hkind⟩

/-- labels and discovered organs stay, whatever becomes of the bundle -/
theorem loadOrgans_beside (r : Registry) (organs : List (String × Json)) :
    (r.loadOrgans organs).1.labels = r.labels ∧
      (r.loadOrgans organs).1.discovered = r.discovered := by
  induction organs generalizing r with
  | nil => exact ⟨rfl, rfl⟩
  | cons entry rest ih =>
    obtain ⟨organId, value⟩ := entry
    cases value with
    | object variants =>
      obtain ⟨hlabels, hdiscovered⟩ := r.registerVariants_beside organId variants
      obtain ⟨hlabels', hdiscovered'⟩ := ih (r.registerVariants organId variants)
      exact ⟨hlabels'.trans hlabels, hdiscovered'.trans hdiscovered⟩
    | _ => exact ⟨rfl, rfl⟩

/-- **A bundle is loaded organ by organ.**  It succeeds exactly when it is an object of objects, and
then its organs have been registered one after the other, those without variants passed over.  The
first entry that is no object is the error, and only the entries before it count.  A bundle that is no
object registers nothing, and none touches labels or discovered organs. -/
theorem loadBundle_by_organs (r : Registry) (bundle : Json) :
    ((r.loadBundle bundle).2 = .ok () ↔
        ∃ organs, bundle = .object organs ∧ ∀ entry ∈ organs, entry.2.kind = .object) ∧
      (∀ organs, bundle = .object organs → (∀ entry ∈ organs, entry.2.kind = .object) →
        (r.loadBundle bundle).1 = (organs.filterMap bundled?).foldl registerOrgan r) ∧
      (∀ before organId value after, bundle = .object (before ++ (organId, value) :: after) →
        (∀ entry ∈ before, entry.2.kind = .object) → value.kind ≠ .object →
        r.loadBundle bundle =
          ((r.loadBundle (.object before)).1, .error (.variantsNotObject organId))) ∧
      (bundle.kind ≠ .object → r.loadBundle bundle = (r, .error .bundleNotObject)) ∧
      (r.loadBundle bundle).1.labels = r.labels ∧
      (r.loadBundle bundle).1.discovered = r.discovered := by
  refine ⟨?_, ?_, ?_, ?_, ?_⟩
  · cases bundle with
    | object organs =>
      simp only [Json.object.injEq, exists_eq_left']
      exact r.loadOrgans_ok_iff organs
    | _ => simp [loadBundle]
  · rintro organs rfl h
    exact congrArg Prod.fst (r.loadOrgans_of_objects organs h)
  · rintro before organId value after rfl h hvalue
    show r.loadOrgans (before ++ (organId, value) :: after) = ((r.loadOrgans before).1, _)
    rw [r.loadOrgans_append before _ h, loadOrgans_cons_misfit _ _ hvalue,
      r.loadOrgans_of_objects before h]
  · intro h
    cases bundle with
    | object organs => exact absurd rfl h
    | _ => rfl
  · cases bundle with
    | object organs => exact r.loadOrgans_beside organs
    | _ => exact ⟨rfl, rfl⟩

/-- two spellings of one variant, an organ without variants, and one that is no object -/
theorem loadBundle_by_organs_footer :
    let r := Registry.empty.registerVariant "hero" "split" .null
    let before : List (String × Json) := [
      (" Hero", .object [("Wide", .bool true), ("wide ", .bool false)]), ("blank", .object [])]
    let bundle : Json := .object (before ++
      [("Footer", .array []), ("faq", .object [("default", .null)])])
    ((∀ entry ∈ before, entry.2.kind = .object) ∧ (Json.array []).kind ≠ .object) ∧
      (r.loadBundle bundle).2 = .error (.variantsNotObject "Footer") ∧
      (r.loadBundle bundle).1 =
        r.registerOrgan ⟨" Hero", none, [("Wide", .bool true), ("wide ", .bool false)]⟩ ∧
      (r.loadBundle bundle).1.organs = [("hero", [("split", .null), ("wide", .bool false)])] := by
  intro r before bundle
  have hbefore : ∀ entry ∈ before, entry.2.kind = .object := by decide
  have hfooter : (Json.array []).kind ≠ .object := by decide
  have hfail := (r.loadBundle_by_organs bundle).2.2.1 before "Footer" (.array [])
    [("faq", .object [("default", .null)])] rfl hbefore hfooter
  have hload := (r.loadBundle_by_organs (.object before)).2.1 before rfl hbefore
  have hleft : (r.loadBundle bundle).1 =
      r.registerOrgan ⟨" Hero", none, [("Wide", .bool true), ("wide ", .bool false)]⟩ := by
    rw [hfail, hload]
    rfl
  refine ⟨⟨hbefore, hfooter⟩, congrArg Prod.snd hfail, hleft, ?_⟩
  rw [hleft]
  decide +kernel

end Graft.Registry
