import Graft.Proofs.Inventory
import Graft.Proofs.Unreferenced

/-!
# The collectors read one list

A scan reports placeholders, each with the text of its place.  Followed from the nodes, the texts of the
entries lead to the well-formed placeholders again, in the same order.  Every collector goes through
these, takes some key from each, and lets the first placeholder under a key count; they differ in the key
alone.  So a table has the keys of the placeholders in the order of their first coming, and under each
the variant that the first placeholder authors, which is what it gets when nothing is overridden.

* `Keyed.ofFirsts`            a table in which the first entry under a key counts;
* `Keyed.keys_ofFirsts`, `Keyed.get?_ofFirsts`   its keys, and what they hold;
* `Keyed.get?_filterMap`      what the first member with a key gives;
* `reported`                  the well-formed placeholders that the entries of a scan lead to;
* `reported_eq`               they are those that the collectors go through;
* `Collected`                 what a table says of a list of placeholders by one of their keys;
* `keyedChoices`              the entries of which the tables are made;
* `collectors_agree`          all collectors speak of the placeholders that are reported.
-/

namespace Graft

/-! ## tables of firsts -/

namespace Keyed

universe u v

variable {α : Type u} {β : Type v}

/-- the first entry under a key counts -/
def ofFirsts (entries : List (String × α)) : Keyed α :=
  entries.foldl (fun m entry => insertNew m entry.1 entry.2) []

theorem ofFirsts_concat (entries : List (String × α)) (entry : String × α) :
    ofFirsts (entries ++ [entry]) = insertNew (ofFirsts entries) entry.1 entry.2 :=
  List.foldl_append

theorem keys_ofFirsts (entries : List (String × α)) :
    keys (ofFirsts entries) = (entries.map Prod.fst).eraseDups :=
  keys_foldl_update entries fun entry old => old.getD entry.2

theorem get?_ofFirsts (entries : List (String × α)) (key : String) :
    get? (ofFirsts entries) key = get? entries key := by
  induction entries using List.reverseRecOn with
  | nil => rfl
  | append_singleton entries entry ih =>
    obtain ⟨k, value⟩ := entry
    rw [ofFirsts_concat, insertNew, get?_update, get?_append, ih]
    by_cases hk : k = key
    · subst hk
      rw [if_pos rfl, ih, get?, if_pos rfl]
      cases get? entries k <;> rfl
    · rw [if_neg hk, get?, if_neg hk, get?, Option.or_none]

/-- the first member under a key gives the value -/
theorem get?_filterMap (members : List β) (key? : β → Option String) (value : β → α) (key : String) :
    get? (members.filterMap fun b => (key? b).map fun k => (k, value b)) key =
      (members.find? fun b => key? b = some key).map value := by
  induction members with
  | nil => rfl
  | cons b rest ih =>
    cases hb : key? b with
    | none =>
      rw [List.filterMap_cons_none (by rw [hb]; rfl), ih, List.find?_cons_of_neg (by simp [hb])]
    | some k =>
      rw [List.filterMap_cons_some (b := (k, value b)) (by rw [hb]; rfl), get?]
      by_cases hk : k = key
      · rw [if_pos hk, List.find?_cons_of_pos (by simp [hb, hk])]
        rfl
      · rw [if_neg hk, ih, List.find?_cons_of_neg (by simp [hb, hk])]

end Keyed

/-! ## what is reported -/

/-- the well-formed placeholders that the entries of a scan lead to, in the order of the entries -/
def reported (nodes : List Json) : List Placeholder :=
  (findUnresolved nodes).filterMap fun u =>
    ((Json.array nodes).follow? u.pointer.render).bind Placeholder.ofNode?

/-- a well-formed placeholder is a placeholder -/
theorem isOrgan_of_ofNode? {node : Json} {p : Placeholder} (h : Placeholder.ofNode? node = some p) :
    node.isOrgan = true := by
  cases node with
  | object fields => exact Placeholder.isOrgan_of_ofFields? h
  | _ => exact nomatch h

/-- to collect from the entries of a scan is to collect from the visits that they were made for -/
theorem filterMap_findUnresolved {α : Type} (nodes : List Json) (f : Unresolved → Option α)
    (g : Placeholder → Option α)
    (h : ∀ v ∈ visits nodes, v.node.isOrgan = true →
      f v.entry = (Placeholder.ofNode? v.node).bind g) :
    (findUnresolved nodes).filterMap f = (placeholders nodes).filterMap g := by
  have hall : ∀ vs ⊆ visits nodes,
      (vs.filter fun v => v.node.isOrgan).filterMap (f ∘ Visit.entry) =
        vs.filterMap fun v => (Placeholder.ofNode? v.node).bind g := by
    intro vs
    induction vs with
    | nil => exact fun _ => rfl
    | cons v vs ih =>
      intro hvs
      obtain ⟨hv, hvs⟩ := List.cons_subset.mp hvs
      cases ho : v.node.isOrgan with
      | true =>
        rw [List.filter_cons, if_pos ho, List.filterMap_cons, List.filterMap_cons, ih hvs,
          Function.comp_apply, h v hv ho]
      | false =>
        have hnone : Placeholder.ofNode? v.node = none := by
          cases hp : Placeholder.ofNode? v.node with
          | none => rfl
          | some p => rw [isOrgan_of_ofNode? hp] at ho; exact nomatch ho
        rw [List.filter_cons, if_neg (by simp [ho]), ih hvs,
          List.filterMap_cons_none (by rw [hnone]; rfl)]
  rw [findUnresolved_eq, List.filterMap_map, hall _ (List.Subset.refl _), placeholders,
    List.filterMap_filterMap]

/-- the entries lead to the placeholders that a scan collects -/
theorem reported_eq (nodes : List Json) : reported nodes = placeholders nodes := by
  have h := filterMap_findUnresolved nodes
    (fun u => ((Json.array nodes).follow? u.pointer.render).bind Placeholder.ofNode?) some
    fun v hv _ => by
      show ((Json.array nodes).follow? v.place.render).bind _ = _
      rw [follow?_of_reached (mem_visits_iff.mp hv), Option.bind_some, Option.bind_fun_some]
  rwa [List.filterMap_some] at h

/-! ## the collectors -/

/-- a table collected from placeholders by a key that each may have: every key once, in the order of its
first coming, with what the first placeholder that has it chooses -/
structure Collected (ps : List Placeholder) (key? : Placeholder → Option String)
    (table : Keyed String) : Prop where
  keys : Keyed.keys table = (ps.filterMap key?).eraseDups
  nodup : (Keyed.keys table).Nodup
  /-- the authored variant of the first, or the default -/
  get? : ∀ key, Keyed.get? table key =
    (ps.find? fun p => key? p = some key).map Placeholder.variantOrDefault
  /-- and that is what it gets without overrides -/
  resolved : ∀ entry ∈ table, ∃ p, ps.find? (fun p => key? p = some entry.1) = some p ∧
    entry.2 = p.variantOrDefault ∧ entry.2 = resolveVariant none p

/-- the variants of the placeholders that have a key, under it -/
def keyedChoices (key? : Placeholder → Option String) (ps : List Placeholder) :
    List (String × String) :=
  ps.filterMap fun p => (key? p).map fun key => (key, p.variantOrDefault)

theorem map_fst_keyedChoices (key? : Placeholder → Option String) (ps : List Placeholder) :
    (keyedChoices key? ps).map Prod.fst = ps.filterMap key? := by
  unfold keyedChoices
  rw [List.map_filterMap]
  congr 1
  funext p
  cases key? p <;> rfl

theorem collected_ofFirsts (key? : Placeholder → Option String) (ps : List Placeholder) :
    Collected ps key? (Keyed.ofFirsts (keyedChoices key? ps)) := by
  have hkeys : Keyed.keys (Keyed.ofFirsts (keyedChoices key? ps)) = (ps.filterMap key?).eraseDups := by
    rw [Keyed.keys_ofFirsts, map_fst_keyedChoices]
  have hget : ∀ key, Keyed.get? (Keyed.ofFirsts (keyedChoices key? ps)) key =
      (ps.find? fun p => key? p = some key).map Placeholder.variantOrDefault := fun key => by
    rw [Keyed.get?_ofFirsts, keyedChoices, Keyed.get?_filterMap]
  have hnodup : (Keyed.keys (Keyed.ofFirsts (keyedChoices key? ps))).Nodup := by
    rw [hkeys]
    exact nodup_eraseDups _
  refine ⟨hkeys, hnodup, hget, fun entry hentry => ?_⟩
  have hvalue : Keyed.get? _ entry.1 = some entry.2 := Keyed.get?_of_mem hnodup hentry
  rw [hget] at hvalue
  obtain ⟨p, hp, hv⟩ := Option.map_eq_some_iff.mp hvalue
  exact ⟨p, hp, hv.symm, hv.symm⟩

theorem variantsByInstance_eq (nodes : List Json) :
    variantsByInstance nodes =
      Keyed.ofFirsts (keyedChoices Placeholder.instanceKey (placeholders nodes)) := by
  rw [Keyed.ofFirsts, keyedChoices, List.foldl_filterMap]
  unfold variantsByInstance
  congr 1
  funext m p
  cases p.instanceKey <;> rfl

theorem variantsByOrgan_eq (nodes : List Json) :
    variantsByOrgan nodes =
      Keyed.ofFirsts (keyedChoices (fun p => some p.organId) (placeholders nodes)) := by
  rw [Keyed.ofFirsts, keyedChoices, List.foldl_filterMap]
  rfl

/-- **The collectors agree.**  They go through the well-formed placeholders that the entries of a scan
lead to: the entries name the organs and the instance keys of these, the organs are collected each once,
and the tables hold what the first placeholder under each key chooses. -/
theorem collectors_agree (nodes : List Json) :
    (findUnresolved nodes).filterMap Unresolved.organId = (reported nodes).map Placeholder.organId ∧
      (findUnresolved nodes).filterMap Unresolved.instanceKey =
        (reported nodes).filterMap Placeholder.instanceKey ∧
      organIds nodes = ((reported nodes).map Placeholder.organId).eraseDups ∧
      Keyed.keys (variantsByOrgan nodes) = organIds nodes ∧
      Collected (reported nodes) (fun p => some p.organId) (variantsByOrgan nodes) ∧
      Collected (reported nodes) Placeholder.instanceKey (variantsByInstance nodes) := by
  have horgan := collected_ofFirsts (fun p => some p.organId) (placeholders nodes)
  have hinstance := collected_ofFirsts Placeholder.instanceKey (placeholders nodes)
  rw [← variantsByOrgan_eq] at horgan
  rw [← variantsByInstance_eq] at hinstance
  have hkeys : Keyed.keys (variantsByOrgan nodes) = organIds nodes := by
    rw [organIds_eq, ← List.filterMap_eq_map]
    exact horgan.keys
  rw [reported_eq]
  refine ⟨?_, filterMap_findUnresolved nodes _ _ fun _ _ _ => rfl, organIds_eq nodes, hkeys, horgan,
    hinstance⟩
  rw [← List.filterMap_eq_map]
  refine filterMap_findUnresolved nodes _ _ fun v _ _ => ?_
  show (Placeholder.ofNode? v.node).map Placeholder.organId = _
  cases Placeholder.ofNode? v.node <;> rfl

end Graft
