import Graft.Proofs.Exposed
import Graft.Survey

/-!
# The places of a survey

A survey visits a node before its children, and every visit carries the place of its node.

* `map_node_visit`           which nodes are visited does not depend on where they stand;
* `placeholders_append`, `mem_placeholders`   the well-formed placeholders, list by list, node by node;
* `at?_of_mem_visits`        from the list of nodes, the place of a visit leads to its node;
* `place_of_mem_visit`       what is visited below a node has a place that starts with the node's;
* `Pointer.inside`           one place is among the children of another, or deeper;
* `outermostUnresolved`      the placeholders that lie inside no other;
* `forall₂_outermost`        they are the exposed ones, in their order;
* `mem_placeholders_of_exposed`  a scan finds every exposed placeholder;
* `isClosed_iff_exposed`     where none is exposed there is none at all.
-/

namespace Graft

open Node

/-! ## visits by children -/

theorem visitNode_eq (place : Pointer) (node : Json) :
    visitNode place node =
      ⟨place, node⟩ ::
        (node.children?.map (visitNodes (place ++ [.field childrenKey]) 0)).getD [] := by
  cases node with
  | object fields =>
    rw [visitNode]
    refine congrArg (_ :: ·) ?_
    show _ = (((Keyed.get? fields childrenKey).bind Json.array?).map _).getD []
    cases hv : Keyed.get? fields childrenKey with
    | none => exact visitFields_no_children place fields hv
    | some value =>
      rw [visitFields_children place fields value hv]
      cases value <;> rfl
  | _ => rfl

theorem visitNode_childless (place : Pointer) (node : Json) (h : node.children? = none) :
    visitNode place node = [⟨place, node⟩] := by
  rw [visitNode_eq, h]
  rfl

theorem visitNode_parent (place : Pointer) (node : Json) (items : List Json)
    (h : node.children? = some items) :
    visitNode place node =
      ⟨place, node⟩ :: visitNodes (place ++ [.field childrenKey]) 0 items := by
  rw [visitNode_eq, h]
  rfl

/-! ## the nodes that are visited -/

/-- which nodes are visited does not depend on where they stand -/
theorem map_node_visit :
    (∀ node place place', (visitNode place node).map Visit.node =
      (visitNode place' node).map Visit.node) ∧
      ∀ nodes above above' index index', (visitNodes above index nodes).map Visit.node =
        (visitNodes above' index' nodes).map Visit.node := by
  refine Json.tree_rec ?_ ?_ ?_
  · intro node ih place place'
    cases hc : node.children? with
    | none => rw [visitNode_childless place node hc, visitNode_childless place' node hc]; rfl
    | some items =>
      rw [visitNode_parent place node items hc, visitNode_parent place' node items hc,
        List.map_cons, List.map_cons, ih items hc _ (place' ++ [.field childrenKey]) 0 0]
  · intro above above' index index'
    rfl
  · intro node rest hn hr above above' index index'
    rw [visitNodes_cons, visitNodes_cons, List.map_append, List.map_append,
      hn _ (above' ++ [.item index']), hr _ above' _ (index' + 1)]

theorem map_node_visits_append (xs ys : List Json) :
    (visits (xs ++ ys)).map Visit.node = (visits xs).map Visit.node ++ (visits ys).map Visit.node := by
  unfold visits
  rw [visitNodes_append, List.map_append, map_node_visit.2 ys [] [] (0 + xs.length) 0]

theorem placeholders_eq (nodes : List Json) :
    placeholders nodes = ((visits nodes).map Visit.node).filterMap Placeholder.ofNode? := by
  rw [List.filterMap_map]
  rfl

theorem placeholders_append (xs ys : List Json) :
    placeholders (xs ++ ys) = placeholders xs ++ placeholders ys := by
  simp only [placeholders_eq, map_node_visits_append, List.filterMap_append]

/-- a scan of a list is one of every node -/
theorem mem_placeholders {nodes : List Json} {p : Placeholder} :
    p ∈ placeholders nodes ↔ ∃ node ∈ nodes, p ∈ placeholders [node] := by
  induction nodes with
  | nil => simp [placeholders, visits, visitNodes_nil]
  | cons node rest ih =>
    rw [← List.singleton_append, placeholders_append, List.mem_append, ih, List.singleton_append,
      List.exists_mem_cons_iff]

/-! ## where a place leads -/

theorem at?_children (root node : Json) (place : Pointer) (items : List Json)
    (h : root.at? place = some node) (hc : node.children? = some items) :
    root.at? (place ++ [.field childrenKey]) = some (.array items) := by
  rw [Json.at?_append, h]
  cases node with
  | object fields =>
    show (Keyed.get? fields childrenKey).bind (fun part => part.at? []) = _
    rw [get?_of_children? hc]
    rfl
  | _ => exact nomatch hc

theorem at?_item (root : Json) (above : Pointer) (items : List Json) (index : Nat)
    (h : root.at? above = some (.array items)) :
    root.at? (above ++ [.item index]) = items[index]? := by
  rw [Json.at?_append, h]
  show (items[index]?).bind (fun part => part.at? []) = _
  cases items[index]? <;> rfl

theorem at?_of_mem_visit (root : Json) :
    (∀ node place, root.at? place = some node →
      ∀ v ∈ visitNode place node, root.at? v.place = some v.node) ∧
      ∀ nodes above before, root.at? above = some (.array (before ++ nodes)) →
        ∀ v ∈ visitNodes above before.length nodes, root.at? v.place = some v.node := by
  refine Json.tree_rec ?_ ?_ ?_
  · intro node ih place hp v hv
    cases hc : node.children? with
    | none =>
      rw [visitNode_childless place node hc, List.mem_singleton] at hv
      rwa [hv]
    | some items =>
      rw [visitNode_parent place node items hc, List.mem_cons] at hv
      rcases hv with rfl | hv
      · exact hp
      · exact ih items hc _ [] (at?_children root node place items hp hc) v hv
  · intro above before _ v hv
    exact absurd hv List.not_mem_nil
  · intro node rest hn hr above before ha v hv
    rw [visitNodes_cons, List.mem_append] at hv
    rcases hv with hv | hv
    · refine hn _ ?_ v hv
      rw [at?_item root above _ before.length ha, List.getElem?_append_right (Nat.le_refl _),
        Nat.sub_self]
      rfl
    · refine hr above (before ++ [node]) ?_ v ?_
      · rw [ha, List.append_assoc]
        rfl
      · rwa [List.length_append]

theorem at?_of_mem_visits {nodes : List Json} {v : Visit} (h : v ∈ visits nodes) :
    (Json.array nodes).at? v.place = some v.node :=
  (at?_of_mem_visit (.array nodes)).2 nodes [] [] rfl v h

/-! ## places below a node -/

theorem place_of_mem_visit :
    (∀ node place, ∀ v ∈ visitNode place node, place <+: v.place) ∧
      ∀ nodes above index, ∀ v ∈ visitNodes above index nodes,
        ∃ i, index ≤ i ∧ above ++ [.item i] <+: v.place := by
  refine Json.tree_rec ?_ ?_ ?_
  · intro node ih place v hv
    cases hc : node.children? with
    | none =>
      rw [visitNode_childless place node hc, List.mem_singleton] at hv
      exact hv ▸ List.prefix_refl place
    | some items =>
      rw [visitNode_parent place node items hc, List.mem_cons] at hv
      rcases hv with rfl | hv
      · exact List.prefix_refl _
      · obtain ⟨i, _, hp⟩ := ih items hc _ 0 v hv
        rw [List.append_assoc] at hp
        exact (List.prefix_append place _).trans hp
  · intro above index v hv
    exact absurd hv List.not_mem_nil
  · intro node rest hn hr above index v hv
    rw [visitNodes_cons, List.mem_append] at hv
    rcases hv with hv | hv
    · exact ⟨index, Nat.le_refl _, hn _ v hv⟩
    · obtain ⟨i, hi, hp⟩ := hr above (index + 1) v hv
      exact ⟨i, by omega, hp⟩

namespace Pointer

/-- among the children of what stands at `q`, or deeper -/
def inside (p q : Pointer) : Bool := (q ++ [Step.field childrenKey]).isPrefixOf p

theorem inside_iff (p q : Pointer) : p.inside q = true ↔ q ++ [Step.field childrenKey] <+: p :=
  List.isPrefixOf_iff_prefix

theorem length_lt_of_inside {p q : Pointer} (h : p.inside q = true) : q.length < p.length := by
  have hl := ((inside_iff p q).mp h).length_le
  rw [List.length_append, List.length_singleton] at hl
  omega

/-- below a list a place goes through one item -/
theorem item_eq_of_prefix {above p : Pointer} {i j : Nat} (hi : above ++ [.item i] <+: p)
    (hj : above ++ [.item j] <+: p) : i = j := by
  have hlen : (above ++ [Step.item i]).length = (above ++ [Step.item j]).length := by
    rw [List.length_append, List.length_append]
    rfl
  have he := List.append_cancel_left
    ((List.prefix_of_prefix_length_le hi hj (Nat.le_of_eq hlen)).eq_of_length hlen)
  exact Step.item.inj (List.singleton_inj.mp he)

/-- what lies under different items of one list lies apart -/
theorem not_inside_of_items {above p q : Pointer} {i j : Nat} (hij : i ≠ j)
    (hp : above ++ [.item i] <+: p) (hq : above ++ [.item j] <+: q) : p.inside q = false := by
  refine Bool.eq_false_iff.mpr fun h => hij ?_
  have hqp : q <+: p := (List.prefix_append q _).trans ((inside_iff p q).mp h)
  exact item_eq_of_prefix hp (hq.trans hqp)

end Pointer

/-! ## the outermost placeholders of a survey -/

/-- the entries that lie inside no other -/
def outermostUnresolved (nodes : List Json) : List Unresolved :=
  (findUnresolved nodes).filter fun u =>
    !(findUnresolved nodes).any fun w => u.pointer.inside w.pointer

/-- the visits to placeholders that lie inside no other -/
def outer (vs : List Visit) : List Visit :=
  vs.filter fun v => v.node.isOrgan && !vs.any fun w => w.node.isOrgan && v.place.inside w.place

theorem outer_append (vs ws : List Visit)
    (h : ∀ v ∈ vs, ∀ w ∈ ws, v.place.inside w.place = false ∧ w.place.inside v.place = false) :
    outer (vs ++ ws) = outer vs ++ outer ws := by
  have hvs : ∀ v ∈ vs, (ws.any fun w => w.node.isOrgan && v.place.inside w.place) = false := by
    intro v hv
    simp only [List.any_eq_false]
    intro w hw
    rw [(h v hv w hw).1, Bool.and_false]
    exact Bool.false_ne_true
  have hws : ∀ w ∈ ws, (vs.any fun v => v.node.isOrgan && w.place.inside v.place) = false := by
    intro w hw
    simp only [List.any_eq_false]
    intro v hv
    rw [(h v hv w hw).2, Bool.and_false]
    exact Bool.false_ne_true
  unfold outer
  rw [List.filter_append]
  congr 1
  · refine List.filter_congr fun v hv => ?_
    rw [List.any_append, hvs v hv, Bool.or_false]
  · refine List.filter_congr fun w hw => ?_
    rw [List.any_append, hws w hw, Bool.false_or]

/-- a visit to a node that is no placeholder neither counts nor hides another -/
theorem outer_cons_plain (v : Visit) (vs : List Visit) (h : v.node.isOrgan = false) :
    outer (v :: vs) = outer vs := by
  unfold outer
  rw [List.filter_cons_of_neg (by simp [h])]
  refine List.filter_congr fun w _ => ?_
  rw [List.any_cons, h, Bool.false_and, Bool.false_or]

/-- a placeholder hides all that lies inside it -/
theorem outer_cons_organ (v : Visit) (vs : List Visit) (h : v.node.isOrgan = true)
    (hvs : ∀ w ∈ vs, w.place.inside v.place = true) : outer (v :: vs) = [v] := by
  have hself : ((v :: vs).any fun w => w.node.isOrgan && v.place.inside w.place) = false := by
    simp only [List.any_eq_false]
    intro w hw hin
    have hvw := Pointer.length_lt_of_inside (Bool.and_eq_true_iff.mp hin).2
    rcases List.mem_cons.mp hw with rfl | hw
    · exact Nat.lt_irrefl _ hvw
    · exact Nat.lt_asymm hvw (Pointer.length_lt_of_inside (hvs w hw))
  unfold outer
  rw [List.filter_cons_of_pos (by rw [h, hself]; rfl)]
  refine congrArg (v :: ·) (List.filter_eq_nil_iff.mpr fun w hw => ?_)
  rw [List.any_cons, h, hvs w hw]
  simp

/-- the outermost visits are the visits to what is exposed -/
theorem outer_visit :
    (∀ node place, (outer (visitNode place node)).map Visit.node =
      (exposedNode node).map Json.object) ∧
      ∀ nodes above index, (outer (visitNodes above index nodes)).map Visit.node =
        (exposedNodes nodes).map Json.object := by
  refine exposed_rec ?_ ?_ ?_ ?_ ?_ ?_
  · intro j hj place
    have hc : j.children? = none := by
      cases j with
      | object fields => exact absurd rfl (hj fields)
      | _ => rfl
    have ho : j.isOrgan = false := by
      cases j with
      | object fields => exact absurd rfl (hj fields)
      | _ => rfl
    rw [visitNode_childless place j hc, outer_cons_plain _ _ ho, exposedNode_of_not_object j hj]
    rfl
  · intro fields ho place
    rw [exposedNode_organ fields ho]
    cases hc : (Json.object fields).children? with
    | none =>
      rw [visitNode_childless place _ hc, outer_cons_organ ⟨place, .object fields⟩ [] ho
        (fun _ h => absurd h List.not_mem_nil)]
      rfl
    | some items =>
      rw [visitNode_parent place _ items hc, outer_cons_organ ⟨place, .object fields⟩ _ ho]
      · rfl
      · intro w hw
        obtain ⟨i, _, hp⟩ := place_of_mem_visit.2 items _ 0 w hw
        exact (Pointer.inside_iff _ _).mpr ((List.prefix_append _ _).trans hp)
  · intro fields ho hc place
    rw [visitNode_childless place _ hc, outer_cons_plain ⟨place, .object fields⟩ _ ho,
      exposedNode_plain fields ho, hc]
    rfl
  · intro fields items ho hc ih place
    rw [visitNode_parent place _ items hc, outer_cons_plain ⟨place, .object fields⟩ _ ho,
      exposedNode_plain fields ho, hc]
    exact ih _ 0
  · intro above index
    rfl
  · intro node rest hn hr above index
    have apart : ∀ v ∈ visitNode (above ++ [.item index]) node,
        ∀ w ∈ visitNodes above (index + 1) rest,
          v.place.inside w.place = false ∧ w.place.inside v.place = false := by
      intro v hv w hw
      have hpv := place_of_mem_visit.1 node _ v hv
      obtain ⟨i, hi, hpw⟩ := place_of_mem_visit.2 rest above (index + 1) w hw
      exact ⟨Pointer.not_inside_of_items (by omega) hpv hpw,
        Pointer.not_inside_of_items (by omega) hpw hpv⟩
    rw [visitNodes_cons, outer_append _ _ apart, List.map_append, hn, hr, exposedNodes_cons,
      List.map_append]

/-- what is exposed is found by a scan, which looks into placeholders too -/
theorem mem_placeholders_of_exposed {nodes : List Json} {fields : Keyed Json} {p : Placeholder}
    (hf : fields ∈ exposedNodes nodes) (hp : Placeholder.ofFields? fields = some p) :
    p ∈ placeholders nodes := by
  have hv : Json.object fields ∈ (outer (visitNodes [] 0 nodes)).map Visit.node := by
    rw [outer_visit.2]
    exact List.mem_map_of_mem hf
  obtain ⟨v, hv, hnode⟩ := List.mem_map.mp hv
  refine List.mem_filterMap.mpr ⟨v, List.mem_of_mem_filter hv, ?_⟩
  rw [hnode]
  exact hp

/-! ## entries and visits -/

def Visit.entry (v : Visit) : Unresolved :=
  ⟨v.place, (Placeholder.ofNode? v.node).map Placeholder.organId,
    (Placeholder.ofNode? v.node).bind Placeholder.instanceKey⟩

theorem findUnresolved_eq (nodes : List Json) :
    findUnresolved nodes = ((visits nodes).filter fun v => v.node.isOrgan).map Visit.entry := by
  unfold findUnresolved
  induction visits nodes with
  | nil => rfl
  | cons v vs ih =>
    cases h : v.node.isOrgan with
    | true =>
      have hv : v.unresolved? = some v.entry := if_pos h
      rw [List.filterMap_cons_some hv, ih, List.filter_cons, if_pos h, List.map_cons]
    | false =>
      have hv : v.unresolved? = none := if_neg (by simp [h])
      rw [List.filterMap_cons_none hv, ih, List.filter_cons, if_neg (by simp [h])]

theorem outermostUnresolved_eq (nodes : List Json) :
    outermostUnresolved nodes = (outer (visits nodes)).map Visit.entry := by
  unfold outermostUnresolved outer
  rw [findUnresolved_eq, List.filter_map, List.filter_filter]
  refine congrArg (List.map Visit.entry) (List.filter_congr fun v _ => ?_)
  rw [Function.comp, List.any_map, List.any_filter, Bool.and_comm]
  rfl

/-- what relates the exposed placeholders to a list relates the outermost entries to it, each by the
node that its pointer leads to -/
theorem forall₂_outermost {α : Type*} {R : Json → α → Prop} {nodes : List Json} {ds : List α}
    (h : List.Forall₂ (fun fields d => R (.object fields) d) (exposedNodes nodes) ds) :
    List.Forall₂ (fun u d => ∃ node, (Json.array nodes).at? u.pointer = some node ∧ R node d)
      (outermostUnresolved nodes) ds := by
  have hv : List.Forall₂ (fun v d => R v.node d) (outer (visits nodes)) ds := by
    rw [← List.forall₂_map_left_iff (f := Visit.node) (R := R)]
    rw [show outer (visits nodes) = outer (visitNodes [] 0 nodes) from rfl, outer_visit.2,
      List.forall₂_map_left_iff]
    exact h
  rw [outermostUnresolved_eq, List.forall₂_map_left_iff]
  have hm : ∀ v ∈ outer (visits nodes), v ∈ visits nodes := fun v hv => List.mem_of_mem_filter hv
  exact ((List.forall₂_and_left _ _).mpr ⟨hm, hv⟩).imp fun v d hd =>
    ⟨v.node, at?_of_mem_visits hd.1, hd.2⟩

/-! ## closed lists -/

theorem visit_plain_iff :
    (∀ node place, (∀ v ∈ visitNode place node, v.node.isOrgan = false) ↔ exposedNode node = []) ∧
      ∀ nodes above index, (∀ v ∈ visitNodes above index nodes, v.node.isOrgan = false) ↔
        exposedNodes nodes = [] := by
  refine exposed_rec ?_ ?_ ?_ ?_ ?_ ?_
  · intro j hj place
    rw [exposedNode_of_not_object j hj]
    cases j with
    | object fields => exact absurd rfl (hj fields)
    | _ => simp [visitNode, Json.isOrgan]
  · intro fields ho place
    rw [exposedNode_organ fields ho, visitNode_eq]
    simp [Json.isOrgan, ho]
  · intro fields ho hc place
    rw [visitNode_childless place _ hc, exposedNode_plain fields ho, hc]
    simp [Json.isOrgan, ho]
  · intro fields items ho hc ih place
    rw [visitNode_parent place _ items hc, exposedNode_plain fields ho, hc, List.forall_mem_cons,
      ih _ 0]
    simp [Json.isOrgan, ho]
  · intro above index
    exact iff_of_true (fun _ h => absurd h List.not_mem_nil) rfl
  · intro node rest hn hr above index
    rw [visitNodes_cons, List.forall_mem_append, hn, hr, exposedNodes_cons, List.append_eq_nil_iff]

theorem isClosed_iff_exposed (nodes : List Json) :
    isClosed nodes = true ↔ exposedNodes nodes = [] := by
  rw [← visit_plain_iff.2 nodes [] 0]
  simp [isClosed, visits]

end Graft
