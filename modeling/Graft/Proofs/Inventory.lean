import Graft.Proofs.Places
import Graft.Proofs.PointerText
import Mathlib.Data.List.Nodup

/-!
# A scan is an inventory

A scan goes depth first and keeps its place as it goes.  It visits what can be reached from the list by
going into arrays of children, and it visits it once: of two visits the earlier is either above the
later, or they part at a list of siblings and the earlier is at an earlier item.  All keys on the way are
the children's key, which is no position, so the places differ in their texts as well.

* `Reached`                  what is reached, and at which place;
* `mem_visits_iff`           it is what a scan visits;
* `Pointer.Before`           the order of places, depth first;
* `visits_ordered`           the visits stand in it;
* `clear_of_reached`         the keys on the way to a node are no positions;
* `Unresolved.Speaks`        what an entry says of the placeholder it was made for;
* `findUnresolved_inventory` the entries of a scan: every placeholder, once, in order.
-/

namespace Graft

open Node

/-! ## what is reached -/

/-- from `nodes`, by going into arrays of children -/
inductive Reached (nodes : List Json) : Pointer → Json → Prop where
  | top {i : Nat} {node : Json} (h : nodes[i]? = some node) : Reached nodes [.item i] node
  | child {place : Pointer} {node child : Json} {items : List Json} {i : Nat}
      (h : Reached nodes place node) (hc : node.children? = some items)
      (hi : items[i]? = some child) :
      Reached nodes (place ++ [.field childrenKey, .item i]) child

/-- a scan goes nowhere else: what it visits below a list is reached as soon as its items are -/
theorem reached_of_mem_visit (nodes : List Json) :
    (∀ node place, Reached nodes place node →
      ∀ v ∈ visitNode place node, Reached nodes v.place v.node) ∧
      ∀ items above index, (∀ i item, items[i]? = some item →
          Reached nodes (above ++ [.item (index + i)]) item) →
        ∀ v ∈ visitNodes above index items, Reached nodes v.place v.node := by
  refine Json.tree_rec ?_ ?_ ?_
  · intro node ih place hreached v hv
    cases hc : node.children? with
    | none =>
      rw [visitNode_childless place node hc, List.mem_singleton] at hv
      rwa [hv]
    | some items =>
      rw [visitNode_parent place node items hc, List.mem_cons] at hv
      rcases hv with rfl | hv
      · exact hreached
      · refine ih items hc _ 0 (fun i item hi => ?_) v hv
        rw [Nat.zero_add, List.append_assoc]
        exact hreached.child hc hi
  · intro above index _ v hv
    exact absurd hv List.not_mem_nil
  · intro node rest hn hr above index hitems v hv
    rw [visitNodes_cons, List.mem_append] at hv
    rcases hv with hv | hv
    · exact hn _ (hitems 0 node rfl) v hv
    · refine hr above (index + 1) (fun i item hi => ?_) v hv
      have hitem := hitems (i + 1) item hi
      rwa [← Nat.add_assoc, Nat.add_right_comm] at hitem

/-- below a list a scan visits every item and what is below it -/
theorem visitNode_subset {items : List Json} {i : Nat} {item : Json} (h : items[i]? = some item)
    (above : Pointer) (index : Nat) :
    visitNode (above ++ [.item (index + i)]) item ⊆ visitNodes above index items := by
  induction items generalizing i index with
  | nil => exact nomatch h
  | cons first rest ih =>
    rw [visitNodes_cons]
    cases i with
    | zero =>
      rw [List.getElem?_cons_zero, Option.some.injEq] at h
      rw [h, Nat.add_zero]
      exact List.subset_append_left _ _
    | succ i =>
      rw [List.getElem?_cons_succ] at h
      have hrest := ih h (index + 1)
      rw [Nat.add_right_comm] at hrest
      exact List.subset_append_of_subset_right _ hrest

/-- with a node a scan visits all that is below it -/
theorem visitNode_subset_of_mem :
    (∀ node place, ∀ v ∈ visitNode place node, visitNode v.place v.node ⊆ visitNode place node) ∧
      ∀ items above index, ∀ v ∈ visitNodes above index items,
        visitNode v.place v.node ⊆ visitNodes above index items := by
  refine Json.tree_rec ?_ ?_ ?_
  · intro node ih place v hv
    cases hc : node.children? with
    | none =>
      rw [visitNode_childless place node hc, List.mem_singleton] at hv
      rw [hv]
      exact List.Subset.refl _
    | some items =>
      rw [visitNode_parent place node items hc, List.mem_cons] at hv
      rcases hv with rfl | hv
      · exact List.Subset.refl _
      · rw [visitNode_parent place node items hc]
        exact List.subset_cons_of_subset _ (ih items hc _ 0 v hv)
  · intro above index v hv
    exact absurd hv List.not_mem_nil
  · intro node rest hn hr above index v hv
    rw [visitNodes_cons, List.mem_append] at hv
    rw [visitNodes_cons]
    rcases hv with hv | hv
    · exact List.subset_append_of_subset_left _ (hn _ v hv)
    · exact List.subset_append_of_subset_right _ (hr above (index + 1) v hv)

theorem mem_visits_of_reached {nodes : List Json} {place : Pointer} {node : Json}
    (h : Reached nodes place node) : ⟨place, node⟩ ∈ visits nodes := by
  induction h with
  | @top i node hi =>
    have hsub := visitNode_subset hi [] 0
    rw [Nat.zero_add] at hsub
    refine hsub ?_
    rw [visitNode_eq]
    exact List.mem_cons_self
  | @child place node child items i _ hc hi ih =>
    have hbelow := visitNode_subset_of_mem.2 nodes [] 0 _ ih
    refine hbelow ?_
    rw [visitNode_parent place node items hc]
    have hsub := visitNode_subset hi (place ++ [.field childrenKey]) 0
    rw [Nat.zero_add, List.append_assoc] at hsub
    refine List.mem_cons_of_mem _ (hsub ?_)
    rw [visitNode_eq]
    exact List.mem_cons_self

/-- a scan visits what is reached, where it is reached -/
theorem mem_visits_iff {nodes : List Json} {v : Visit} :
    v ∈ visits nodes ↔ Reached nodes v.place v.node := by
  refine ⟨fun hv => (reached_of_mem_visit nodes).2 nodes [] 0 (fun i item hi => ?_) v hv,
    mem_visits_of_reached⟩
  rw [Nat.zero_add]
  exact .top hi

/-! ## the order of places -/

namespace Pointer

/-- depth first: above the other, or apart from it at an earlier item of the same list -/
def Before (p q : Pointer) : Prop :=
  (p <+: q ∧ p ≠ q) ∨
    ∃ above i j, i < j ∧ above ++ [Step.item i] <+: p ∧ above ++ [Step.item j] <+: q

theorem before_irrefl (p : Pointer) : ¬ p.Before p := by
  rintro (⟨-, hne⟩ | ⟨above, i, j, hij, hi, hj⟩)
  · exact hne rfl
  · have hitem : i = j := item_eq_of_prefix hi hj
    omega

end Pointer

theorem visit_ordered :
    (∀ node place, (visitNode place node).Pairwise fun v w => v.place.Before w.place) ∧
      ∀ nodes above index,
        (visitNodes above index nodes).Pairwise fun v w => v.place.Before w.place := by
  refine Json.tree_rec ?_ ?_ ?_
  · intro node ih place
    cases hc : node.children? with
    | none =>
      rw [visitNode_childless place node hc]
      exact List.pairwise_singleton _ _
    | some items =>
      rw [visitNode_parent place node items hc, List.pairwise_cons]
      refine ⟨fun w hw => .inl ?_, ih items hc _ 0⟩
      obtain ⟨i, -, hbelow⟩ := place_of_mem_visit.2 items _ 0 w hw
      rw [List.append_assoc] at hbelow
      refine ⟨(List.prefix_append place _).trans hbelow, fun heq => ?_⟩
      have hplace : place = w.place := heq
      have hlen := hbelow.length_le
      rw [← hplace, List.length_append, List.length_append, List.length_singleton] at hlen
      omega
  · intro above index
    exact List.Pairwise.nil
  · intro node rest hn hr above index
    rw [visitNodes_cons, List.pairwise_append]
    refine ⟨hn _, hr above (index + 1), fun v hv w hw => .inr ?_⟩
    obtain ⟨j, hj, hlater⟩ := place_of_mem_visit.2 rest above (index + 1) w hw
    exact ⟨above, index, j, by omega, place_of_mem_visit.1 node _ v hv, hlater⟩

/-- a scan goes depth first -/
theorem visits_ordered (nodes : List Json) :
    (visits nodes).Pairwise fun v w => v.place.Before w.place := visit_ordered.2 nodes [] 0

/-! ## texts of places -/

/-- the only key on the way is that of the children -/
theorem clear_of_reached {nodes : List Json} {place : Pointer} {node : Json}
    (h : Reached nodes place node) : place.Clear := by
  induction h with
  | top _ =>
    intro key hkey
    rw [List.mem_singleton] at hkey
    exact nomatch hkey
  | child _ _ _ ih =>
    intro key hkey
    rcases List.mem_append.mp hkey with hkey | hkey
    · exact ih key hkey
    · rw [List.mem_cons, List.mem_singleton] at hkey
      rcases hkey with hkey | hkey
      · rw [Step.field.inj hkey]
        decide
      · exact nomatch hkey

/-- two nodes are reached at places with different texts, unless it is one place -/
theorem place_of_render {nodes : List Json} {p q : Pointer} {node node' : Json}
    (hp : Reached nodes p node) (hq : Reached nodes q node') (h : p.render = q.render) : p = q :=
  Pointer.render_inj (clear_of_reached hp) (clear_of_reached hq) h

theorem follow?_of_reached {nodes : List Json} {place : Pointer} {node : Json}
    (h : Reached nodes place node) : (Json.array nodes).follow? place.render = some node :=
  Json.follow?_render (at?_of_mem_visits (mem_visits_of_reached h))

/-! ## the entries -/

/-- an entry for the placeholder with these fields: it names the organ if the placeholder does, and
only then the instance -/
structure Unresolved.Speaks (u : Unresolved) (fields : Keyed Json) : Prop where
  isOrgan : Keyed.get? fields typeKey = some (.string organType)
  organId : u.organId = Placeholder.text? fields organIdKey
  nameless : u.organId = none → u.instanceKey = none
  named : u.organId ≠ none → u.instanceKey = Placeholder.text? fields idKey

theorem Visit.speaks_entry {v : Visit} {fields : Keyed Json} (hv : v.node = .object fields)
    (ho : isOrgan fields = true) : v.entry.Speaks fields := by
  have hnode : Placeholder.ofNode? v.node = Placeholder.ofFields? fields := by rw [hv]; rfl
  have hentry : v.entry = ⟨v.place, (Placeholder.ofFields? fields).map Placeholder.organId,
      (Placeholder.ofFields? fields).bind Placeholder.instanceKey⟩ := by rw [← hnode]; rfl
  have hfields : Placeholder.ofFields? fields =
      (Placeholder.text? fields organIdKey).map fun organId =>
        ⟨organId, Placeholder.text? fields variantKey, Placeholder.text? fields idKey, fields⟩ :=
    if_pos ho
  rw [hentry, hfields]
  cases hid : Placeholder.text? fields organIdKey with
  | none => exact ⟨of_decide_eq_true ho, hid.symm, fun _ => rfl, fun h => absurd rfl h⟩
  | some organId => exact ⟨of_decide_eq_true ho, hid.symm, fun h => (nomatch h), fun _ => rfl⟩

theorem mem_findUnresolved {nodes : List Json} {u : Unresolved} :
    u ∈ findUnresolved nodes ↔
      ∃ place fields, Reached nodes place (.object fields) ∧ isOrgan fields = true ∧
        u = Visit.entry ⟨place, .object fields⟩ := by
  rw [findUnresolved_eq, List.mem_map]
  constructor
  · rintro ⟨⟨place, node⟩, hv, rfl⟩
    obtain ⟨hv, ho⟩ := List.mem_filter.mp hv
    cases node with
    | object fields => exact ⟨place, fields, mem_visits_iff.mp hv, ho, rfl⟩
    | _ => exact nomatch ho
  · rintro ⟨place, fields, hreached, ho, rfl⟩
    exact ⟨_, List.mem_filter.mpr ⟨mem_visits_of_reached hreached, ho⟩, rfl⟩

/-- no placeholder is left out or counted twice, and every entry says where it is and what it is -/
structure Inventory (nodes : List Json) (found : List Unresolved) : Prop where
  /-- the text of an entry leads to the placeholder that it speaks of -/
  sound : ∀ u ∈ found, ∃ fields, Reached nodes u.pointer (.object fields) ∧
    (Json.array nodes).follow? u.pointer.render = some (.object fields) ∧ u.Speaks fields
  /-- a placeholder that is reached has an entry, and no other entry has its place -/
  complete : ∀ place fields, Reached nodes place (.object fields) → isOrgan fields = true →
    (∃ u ∈ found, u.pointer = place ∧ u.Speaks fields) ∧
      (found.map fun u => u.pointer.render).count place.render = 1
  distinct : (found.map fun u => u.pointer.render).Nodup
  ordered : found.Pairwise fun u w => u.pointer.Before w.pointer
  closed : isClosed nodes = true ↔ found = []

theorem findUnresolved_ordered (nodes : List Json) :
    (findUnresolved nodes).Pairwise fun u w => u.pointer.Before w.pointer := by
  rw [findUnresolved_eq, List.pairwise_map]
  exact (visits_ordered nodes).sublist List.filter_sublist

theorem nodup_texts (nodes : List Json) :
    ((findUnresolved nodes).map fun u => u.pointer.render).Nodup := by
  have hreached : ∀ u ∈ findUnresolved nodes, ∃ node, Reached nodes u.pointer node := by
    intro u hu
    obtain ⟨place, fields, h, -, rfl⟩ := mem_findUnresolved.mp hu
    exact ⟨_, h⟩
  refine List.pairwise_map.mpr ((findUnresolved_ordered nodes).imp_of_mem fun {u w} hu hw h heq => ?_)
  obtain ⟨node, hnode⟩ := hreached u hu
  obtain ⟨node', hnode'⟩ := hreached w hw
  rw [place_of_render hnode hnode' heq] at h
  exact Pointer.before_irrefl _ h

theorem findUnresolved_inventory (nodes : List Json) : Inventory nodes (findUnresolved nodes) where
  sound u hu := by
    obtain ⟨place, fields, hreached, ho, rfl⟩ := mem_findUnresolved.mp hu
    exact ⟨fields, hreached, follow?_of_reached hreached, Visit.speaks_entry rfl ho⟩
  complete place fields hreached ho := by
    have hmem : Visit.entry ⟨place, .object fields⟩ ∈ findUnresolved nodes :=
      mem_findUnresolved.mpr ⟨place, fields, hreached, ho, rfl⟩
    refine ⟨⟨_, hmem, rfl, Visit.speaks_entry rfl ho⟩, ?_⟩
    exact List.count_eq_one_of_mem (nodup_texts nodes)
      (List.mem_map.mpr ⟨_, hmem, rfl⟩)
  distinct := nodup_texts nodes
  ordered := findUnresolved_ordered nodes
  closed := isClosed_iff nodes

end Graft
