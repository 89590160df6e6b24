import Graft.Outermost
import Mathlib.Data.List.Forall2

/-!
# Exposed placeholders

A list of nodes exposes the placeholders that are reached from its roots, the roots included, through
the children of nodes that are no placeholders themselves.  They are the ones that `replaceNodes`
replaces, and all that a replacement does is said by what it does to them.

* `Json.tree_rec`        induction over a node and over the list of its children;
* `exposedNodes`         the fields of the exposed placeholders, in document order;
* `exposed_rec`          induction that stops at the exposed placeholders;
* `replace_congr`        two replacements that agree on the exposed placeholders agree;
* `replace_in_place`     where every one of them stays, so does the list;
* `diagnostics_replace`  what is reported, one exposed placeholder after the other;
* `exposed_replace`      what is exposed afterwards, likewise;
* `replace_twice`        what a second replacement makes of the output of a first.
-/

namespace Graft

open Node

/-! ## induction over a tree -/

/-- what passes from the children of a node to the node, and from nodes to their lists, holds of all -/
theorem Json.tree_rec {node : Json → Prop} {nodes : List Json → Prop}
    (step : ∀ j, (∀ items, j.children? = some items → nodes items) → node j)
    (nil : nodes []) (cons : ∀ j js, node j → nodes js → nodes (j :: js)) :
    (∀ j, node j) ∧ ∀ js, nodes js := by
  -- a value is a node, and it may be the array that a node keeps its children in
  have h := @Json.rec_all
    (fun j => node j ∧ ∀ items, j.array? = some items → nodes items) nodes
    (fun fields => ∀ items, (Json.object fields).children? = some items → nodes items)
    ⟨step _ (fun _ h => nomatch h), fun _ h => nomatch h⟩
    (fun _ => ⟨step _ (fun _ h => nomatch h), fun _ h => nomatch h⟩)
    (fun _ => ⟨step _ (fun _ h => nomatch h), fun _ h => nomatch h⟩)
    (fun _ => ⟨step _ (fun _ h => nomatch h), fun _ h => nomatch h⟩)
    (fun xs hxs => ⟨step _ (fun _ h => nomatch h), fun _ h => Option.some.inj h ▸ hxs⟩)
    (fun fields hfields => ⟨step _ hfields, fun _ h => nomatch h⟩)
    nil (fun j js hj hjs => cons j js hj.1 hjs) (fun _ h => nomatch h)
    (fun key value rest hvalue hrest items h => by
      by_cases hk : key = childrenKey
      · refine hvalue.2 items ?_
        simpa [Json.children?, Json.field?, Keyed.get?, hk] using h
      · refine hrest items ?_
        simpa [Json.children?, Json.field?, Keyed.get?, hk] using h)
  exact ⟨fun j => (h.1 j).1, h.2.1⟩

theorem get?_of_children? {fields : Keyed Json} {items : List Json}
    (h : (Json.object fields).children? = some items) :
    Keyed.get? fields childrenKey = some (.array items) := by
  obtain ⟨value, hv, ha⟩ := Option.bind_eq_some_iff.mp h
  have hv' : Keyed.get? fields childrenKey = some value := hv
  cases value with
  | array xs =>
    obtain rfl : xs = items := Option.some.inj ha
    exact hv'
  | _ => exact nomatch ha

theorem children?_insert (fields : Keyed Json) (items : List Json) :
    (Json.object (Keyed.insert fields childrenKey (.array items))).children? = some items := by
  simp [Json.children?, Json.field?, Keyed.get?_insert, Json.array?]

/-! ## the traversal in terms of children -/

section

variable (f : Keyed Json → Expanded Json)

theorem replaceFields_items (fields : Keyed Json) (items : List Json)
    (h : (Json.object fields).children? = some items) :
    replaceFields f fields =
      (replaceNodes f items).map fun items => Keyed.insert fields childrenKey (.array items) := by
  rw [replaceFields_children f fields _ (get?_of_children? h)]
  rfl

theorem replaceFields_no_items (fields : Keyed Json) (h : (Json.object fields).children? = none) :
    replaceFields f fields = .clean fields := by
  cases hv : Keyed.get? fields childrenKey with
  | none => exact replaceFields_no_children f fields hv
  | some value =>
    have hc : replaceChildren f value = .clean value := by
      cases value with
      | array xs => simp [Json.children?, Json.field?, hv, Json.array?] at h
      | _ => rfl
    rw [replaceFields_children f fields value hv, hc]
    exact congrArg Expanded.clean (Keyed.insert_of_get? hv)

theorem replaceNode_organ (fields : Keyed Json) (h : isOrgan fields = true) :
    replaceNode f (.object fields) = f fields := by
  rw [replaceNode, if_pos h]

theorem replaceNode_plain (fields : Keyed Json) (h : isOrgan fields = false) :
    replaceNode f (.object fields) = (replaceFields f fields).map .object := by
  rw [replaceNode, if_neg (by simp [h])]

theorem replaceNode_of_not_object (node : Json) (h : ∀ fields, node ≠ .object fields) :
    replaceNode f node = .clean node := by
  cases node with
  | object fields => exact absurd rfl (h fields)
  | _ => rfl

end

/-! ## what is exposed -/

mutual

/-- the fields of the placeholders that a node exposes -/
def exposedNode : Json → List (Keyed Json)
  | .object fields => if isOrgan fields then [fields] else exposedFields fields
  | _ => []

def exposedNodes : List Json → List (Keyed Json)
  | [] => []
  | node :: rest => exposedNode node ++ exposedNodes rest

def exposedChildren : Json → List (Keyed Json)
  | .array items => exposedNodes items
  | _ => []

def exposedFields : List (String × Json) → List (Keyed Json)
  | [] => []
  | (key, value) :: rest => if key = childrenKey then exposedChildren value else exposedFields rest

end

theorem exposedNodes_nil : exposedNodes [] = [] := rfl

theorem exposedNodes_cons (node : Json) (rest : List Json) :
    exposedNodes (node :: rest) = exposedNode node ++ exposedNodes rest := rfl

theorem exposedNodes_singleton (node : Json) : exposedNodes [node] = exposedNode node := by
  rw [exposedNodes_cons, exposedNodes_nil, List.append_nil]

theorem exposedFields_get? (fields : Keyed Json) :
    exposedFields fields = ((Keyed.get? fields childrenKey).map exposedChildren).getD [] := by
  induction fields with
  | nil => rfl
  | cons field rest ih =>
    obtain ⟨key, value⟩ := field
    by_cases hk : key = childrenKey
    · rw [exposedFields, if_pos hk, Keyed.get?, if_pos hk]
      rfl
    · rw [exposedFields, if_neg hk, Keyed.get?, if_neg hk, ih]

theorem exposedFields_items (fields : Keyed Json) :
    exposedFields fields = (((Json.object fields).children?).map exposedNodes).getD [] := by
  rw [exposedFields_get?]
  show _ = (((Keyed.get? fields childrenKey).bind Json.array?).map exposedNodes).getD []
  cases Keyed.get? fields childrenKey with
  | none => rfl
  | some value => cases value <;> rfl

theorem exposedNode_organ (fields : Keyed Json) (h : isOrgan fields = true) :
    exposedNode (.object fields) = [fields] := by
  rw [exposedNode, if_pos h]

theorem exposedNode_plain (fields : Keyed Json) (h : isOrgan fields = false) :
    exposedNode (.object fields) = (((Json.object fields).children?).map exposedNodes).getD [] := by
  rw [exposedNode, if_neg (by simp [h]), exposedFields_items]

theorem exposedNode_of_not_object (node : Json) (h : ∀ fields, node ≠ .object fields) :
    exposedNode node = [] := by
  cases node with
  | object fields => exact absurd rfl (h fields)
  | _ => rfl

/-- induction as deep as the exposed placeholders: they and what has no children are its leaves -/
theorem exposed_rec {node : Json → Prop} {nodes : List Json → Prop}
    (other : ∀ j, (∀ fields, j ≠ .object fields) → node j)
    (organ : ∀ fields, isOrgan fields = true → node (.object fields))
    (childless : ∀ fields, isOrgan fields = false → (Json.object fields).children? = none →
      node (.object fields))
    (parent : ∀ fields items, isOrgan fields = false →
      (Json.object fields).children? = some items → nodes items → node (.object fields))
    (nil : nodes []) (cons : ∀ j js, node j → nodes js → nodes (j :: js)) :
    (∀ j, node j) ∧ ∀ js, nodes js := by
  refine Json.tree_rec (fun j hj => ?_) nil cons
  by_cases ho : ∃ fields, j = .object fields
  · obtain ⟨fields, rfl⟩ := ho
    cases hf : isOrgan fields with
    | true => exact organ fields hf
    | false =>
      cases hc : (Json.object fields).children? with
      | none => exact childless fields hf hc
      | some items => exact parent fields items hf hc (hj items hc)
  · exact other j (fun fields h => ho ⟨fields, h⟩)

theorem isOrgan_of_mem_exposed :
    (∀ node, ∀ fields ∈ exposedNode node, isOrgan fields = true) ∧
      ∀ nodes, ∀ fields ∈ exposedNodes nodes, isOrgan fields = true := by
  refine exposed_rec ?_ ?_ ?_ ?_ ?_ ?_
  · intro j hj fields hm
    rw [exposedNode_of_not_object j hj] at hm
    exact absurd hm List.not_mem_nil
  · intro own ho fields hm
    rw [exposedNode_organ own ho, List.mem_singleton] at hm
    rwa [hm]
  · intro own ho hc fields hm
    rw [exposedNode_plain own ho, hc] at hm
    exact absurd hm List.not_mem_nil
  · intro own items ho hc ih fields hm
    rw [exposedNode_plain own ho, hc] at hm
    exact ih fields hm
  · intro fields hm
    exact absurd hm List.not_mem_nil
  · intro j js hj hjs fields hm
    rw [exposedNodes_cons, List.mem_append] at hm
    exact hm.elim (hj fields) (hjs fields)

/-! ## replacement at the exposed placeholders -/

theorem replace_congr (f g : Keyed Json → Expanded Json) :
    (∀ node, (∀ fields ∈ exposedNode node, f fields = g fields) →
      replaceNode f node = replaceNode g node) ∧
      ∀ nodes, (∀ fields ∈ exposedNodes nodes, f fields = g fields) →
        replaceNodes f nodes = replaceNodes g nodes := by
  refine exposed_rec ?_ ?_ ?_ ?_ ?_ ?_
  · intro j hj _
    rw [replaceNode_of_not_object f j hj, replaceNode_of_not_object g j hj]
  · intro own ho h
    rw [exposedNode_organ own ho] at h
    rw [replaceNode_organ f own ho, replaceNode_organ g own ho, h own (List.mem_singleton_self own)]
  · intro own ho hc _
    rw [replaceNode_plain f own ho, replaceNode_plain g own ho, replaceFields_no_items f own hc,
      replaceFields_no_items g own hc]
  · intro own items ho hc ih h
    rw [exposedNode_plain own ho, hc] at h
    rw [replaceNode_plain f own ho, replaceNode_plain g own ho, replaceFields_items f own items hc,
      replaceFields_items g own items hc, ih h]
  · intro _
    rfl
  · intro j js hj hjs h
    rw [exposedNodes_cons] at h
    rw [replaceNodes_cons, replaceNodes_cons, hj (fun fields hm => h fields (List.mem_append_left _ hm)),
      hjs (fun fields hm => h fields (List.mem_append_right _ hm))]

theorem replaceNodes_congr {f g : Keyed Json → Expanded Json} {nodes : List Json}
    (h : ∀ fields ∈ exposedNodes nodes, f fields = g fields) :
    replaceNodes f nodes = replaceNodes g nodes :=
  (replace_congr f g).2 nodes h

/-- where every exposed placeholder is left in its place, nothing changes -/
theorem replace_in_place (report : Keyed Json → List Diagnostic) :
    (∀ node, replaceNode (fun fields => ⟨.object fields, report fields⟩) node =
      ⟨node, (exposedNode node).flatMap report⟩) ∧
      ∀ nodes, replaceNodes (fun fields => ⟨.object fields, report fields⟩) nodes =
        ⟨nodes, (exposedNodes nodes).flatMap report⟩ := by
  refine exposed_rec ?_ ?_ ?_ ?_ ?_ ?_
  · intro j hj
    rw [replaceNode_of_not_object _ j hj, exposedNode_of_not_object j hj]
    rfl
  · intro own ho
    rw [replaceNode_organ _ own ho, exposedNode_organ own ho, List.flatMap_singleton]
  · intro own ho hc
    rw [replaceNode_plain _ own ho, replaceFields_no_items _ own hc, exposedNode_plain own ho, hc]
    rfl
  · intro own items ho hc ih
    rw [replaceNode_plain _ own ho, replaceFields_items _ own items hc, exposedNode_plain own ho, hc, ih]
    show (⟨.object (Keyed.insert own childrenKey (.array items)), _⟩ : Expanded Json) = _
    rw [Keyed.insert_of_get? (get?_of_children? hc)]
    rfl
  · rfl
  · intro j js hj hjs
    rw [replaceNodes_cons, hj, hjs, exposedNodes_cons, List.flatMap_append]
    rfl

theorem diagnostics_replace (f : Keyed Json → Expanded Json) :
    (∀ node, (replaceNode f node).diagnostics =
      (exposedNode node).flatMap fun fields => (f fields).diagnostics) ∧
      ∀ nodes, (replaceNodes f nodes).diagnostics =
        (exposedNodes nodes).flatMap fun fields => (f fields).diagnostics := by
  refine exposed_rec ?_ ?_ ?_ ?_ ?_ ?_
  · intro j hj
    rw [replaceNode_of_not_object f j hj, exposedNode_of_not_object j hj]
    rfl
  · intro own ho
    rw [replaceNode_organ f own ho, exposedNode_organ own ho, List.flatMap_singleton]
  · intro own ho hc
    rw [replaceNode_plain f own ho, replaceFields_no_items f own hc, exposedNode_plain own ho, hc]
    rfl
  · intro own items ho hc ih
    rw [replaceNode_plain f own ho, replaceFields_items f own items hc, exposedNode_plain own ho, hc]
    exact ih
  · rfl
  · intro j js hj hjs
    rw [replaceNodes_cons, Expanded.diagnostics_bind, Expanded.diagnostics_map, hj, hjs,
      exposedNodes_cons, List.flatMap_append]

/-- whatever is reported was reported in the place of an exposed placeholder -/
theorem mem_diagnostics_replace {f : Keyed Json → Expanded Json} {node : Json} {d : Diagnostic} :
    d ∈ (replaceNode f node).diagnostics ↔
      ∃ fields ∈ exposedNode node, d ∈ (f fields).diagnostics := by
  rw [(diagnostics_replace f).1, List.mem_flatMap]

theorem exposed_replace (f : Keyed Json → Expanded Json) :
    (∀ node, exposedNode (replaceNode f node).output =
      (exposedNode node).flatMap fun fields => exposedNode (f fields).output) ∧
      ∀ nodes, exposedNodes (replaceNodes f nodes).output =
        (exposedNodes nodes).flatMap fun fields => exposedNode (f fields).output := by
  refine exposed_rec ?_ ?_ ?_ ?_ ?_ ?_
  · intro j hj
    rw [replaceNode_of_not_object f j hj, Expanded.output_clean, exposedNode_of_not_object j hj]
    rfl
  · intro own ho
    rw [replaceNode_organ f own ho, exposedNode_organ own ho, List.flatMap_singleton]
  · intro own ho hc
    have h : exposedNode (.object own) = [] := by
      rw [exposedNode_plain own ho, hc]
      rfl
    rw [replaceNode_plain f own ho, replaceFields_no_items f own hc, Expanded.output_map,
      Expanded.output_clean, h]
    rfl
  · intro own items ho hc ih
    have ho' := isOrgan_replaceFields f own
    rw [replaceFields_items f own items hc, Expanded.output_map, ho] at ho'
    rw [replaceNode_plain f own ho, replaceFields_items f own items hc, Expanded.output_map,
      Expanded.output_map, exposedNode_plain _ ho', children?_insert, exposedNode_plain own ho, hc]
    exact ih
  · rfl
  · intro j js hj hjs
    rw [replaceNodes_cons, Expanded.output_bind, Expanded.output_map, exposedNodes_cons, hj, hjs,
      exposedNodes_cons, List.flatMap_append]

/-- two replacements one after the other are one, if they are so at every exposed placeholder -/
theorem replace_twice (f g h : Keyed Json → Expanded Json) :
    (∀ node, (∀ fields ∈ exposedNode node,
        (replaceNode g (f fields).output).output = (h fields).output) →
      (replaceNode g (replaceNode f node).output).output = (replaceNode h node).output) ∧
      ∀ nodes, (∀ fields ∈ exposedNodes nodes,
          (replaceNode g (f fields).output).output = (h fields).output) →
        (replaceNodes g (replaceNodes f nodes).output).output = (replaceNodes h nodes).output := by
  refine exposed_rec ?_ ?_ ?_ ?_ ?_ ?_
  · intro j hj _
    rw [replaceNode_of_not_object f j hj, replaceNode_of_not_object h j hj, Expanded.output_clean,
      replaceNode_of_not_object g j hj]
    rfl
  · intro own ho hstep
    rw [exposedNode_organ own ho] at hstep
    rw [replaceNode_organ f own ho, replaceNode_organ h own ho,
      hstep own (List.mem_singleton_self own)]
  · intro own ho hc _
    have hplain : ∀ k, (replaceNode k (.object own)).output = .object own := by
      intro k
      rw [replaceNode_plain k own ho, replaceFields_no_items k own hc]
      rfl
    rw [hplain f, hplain g, hplain h]
  · intro own items ho hc ih hstep
    rw [exposedNode_plain own ho, hc] at hstep
    have ho' := isOrgan_replaceFields f own
    rw [replaceFields_items f own items hc, Expanded.output_map, ho] at ho'
    have hc' := children?_insert own (replaceNodes f items).output
    rw [replaceNode_plain f own ho, replaceNode_plain h own ho, replaceFields_items f own items hc,
      replaceFields_items h own items hc]
    simp only [Expanded.output_map]
    rw [replaceNode_plain g _ ho', replaceFields_items g _ _ hc']
    simp only [Expanded.output_map]
    rw [Keyed.insert_insert, ih hstep]
  · intro _
    rfl
  · intro j js hj hjs hstep
    rw [exposedNodes_cons] at hstep
    have hnode := hj fun fields hm => hstep fields (List.mem_append_left _ hm)
    have hnodes := hjs fun fields hm => hstep fields (List.mem_append_right _ hm)
    simp only [replaceNodes_cons, Expanded.output_bind, Expanded.output_map, hnode, hnodes]

/-- the output says no more of the exposed placeholders than their own outputs do -/
theorem output_congr {f g : Keyed Json → Expanded Json} {node : Json}
    (h : ∀ fields ∈ exposedNode node, (f fields).output = (g fields).output) :
    (replaceNode f node).output = (replaceNode g node).output := by
  have hstay := (replace_twice (fun fields => ⟨.object fields, []⟩) f g).1 node
  rw [(replace_in_place _).1] at hstay
  refine hstay fun fields hm => ?_
  rw [replaceNode_organ f fields (isOrgan_of_mem_exposed.1 node fields hm)]
  exact h fields hm

/-- what relates each exposed placeholder's outcome to its reports relates the whole to all reports -/
theorem forall₂_replace {R : Keyed Json → Diagnostic → Prop} (f : Keyed Json → Expanded Json)
    (exposed : List (Keyed Json))
    (h : ∀ fields ∈ exposed, List.Forall₂ R (exposedNode (f fields).output) (f fields).diagnostics) :
    List.Forall₂ R (exposed.flatMap fun fields => exposedNode (f fields).output)
      (exposed.flatMap fun fields => (f fields).diagnostics) := by
  induction exposed with
  | nil => exact .nil
  | cons fields rest ih =>
    rw [List.flatMap_cons, List.flatMap_cons]
    exact List.rel_append (h fields List.mem_cons_self)
      (ih fun inner hm => h inner (List.mem_cons_of_mem _ hm))

end Graft
