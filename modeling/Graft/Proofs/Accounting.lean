import Graft.Proofs.Encounters
import Graft.Proofs.Leftover
import Mathlib.Algebra.Ring.Nat

/-!
# Leftovers, counted

A scan finds every placeholder that is left, also one among the children of another.  Expansion reports
a placeholder and leaves it as it stands; it does not look at what lies below.  So it reports as many as
a scan finds outside all others, and what lies inside a leftover is found but not reported.

Where neither the nodes nor the trees hold a placeholder inside another, no leftover does either, and a
scan finds as many as are reported.

* `nestedUnresolved`              the entries of a scan that lie inside another;
* `length_findUnresolved`         the entries, those outside all others and those inside another;
* `countP_visit`                  they are the exposed placeholders, and those found below each of them;
* `nestedUnresolved_eq_nil_iff`   none is nested if all that is exposed is bare;
* `Expander.bare_of_meets`        what is met is bare, if nodes and trees have none nested;
* `Expander.unresolved_count`     what a scan of an output finds, and what is reported.
-/

namespace Graft

open Node

/-! ## entries inside others -/

/-- the entries that lie inside another -/
def nestedUnresolved (nodes : List Json) : List Unresolved :=
  (findUnresolved nodes).filter fun u =>
    (findUnresolved nodes).any fun w => u.pointer.inside w.pointer

theorem length_findUnresolved (nodes : List Json) :
    (findUnresolved nodes).length =
      (outermostUnresolved nodes).length + (nestedUnresolved nodes).length := by
  have h := List.length_eq_length_filter_add (l := findUnresolved nodes)
    fun u => !(findUnresolved nodes).any fun w => u.pointer.inside w.pointer
  simp only [Bool.not_not] at h
  exact h

theorem length_outermostUnresolved (nodes : List Json) :
    (outermostUnresolved nodes).length = (exposedNodes nodes).length := by
  have h := congrArg List.length (outer_visit.2 nodes [] 0)
  rw [List.length_map, List.length_map] at h
  rw [outermostUnresolved_eq, List.length_map]
  exact h

/-! ## what is found below a placeholder -/

/-- the children of a node with these fields, if it has any -/
def itemsBelow (fields : Keyed Json) : List Json := ((Json.object fields).children?).getD []

theorem length_findUnresolved_eq (nodes : List Json) :
    (findUnresolved nodes).length = ((visits nodes).map Visit.node).countP Json.isOrgan := by
  rw [findUnresolved_eq, List.length_map, List.countP_map, List.countP_eq_length_filter]
  rfl

/-- a scan finds every exposed placeholder, and below it what a scan of its children finds -/
theorem countP_visit :
    (∀ node place, ((visitNode place node).map Visit.node).countP Json.isOrgan =
      ((exposedNode node).map fun fields => (findUnresolved (itemsBelow fields)).length + 1).sum) ∧
      ∀ nodes above index, ((visitNodes above index nodes).map Visit.node).countP Json.isOrgan =
        ((exposedNodes nodes).map fun fields =>
          (findUnresolved (itemsBelow fields)).length + 1).sum := by
  refine exposed_rec ?_ ?_ ?_ ?_ ?_ ?_
  · intro j hj place
    rw [exposedNode_of_not_object j hj]
    cases j with
    | object fields => exact absurd rfl (hj fields)
    | _ => rfl
  · intro fields ho place
    have horgan : (Json.object fields).isOrgan = true := ho
    have hbelow : ((visitNode place (.object fields)).map Visit.node).countP Json.isOrgan =
        ((visits (itemsBelow fields)).map Visit.node).countP Json.isOrgan + 1 := by
      rw [visitNode_eq, List.map_cons, List.countP_cons_of_pos horgan]
      unfold itemsBelow visits
      cases (Json.object fields).children? with
      | none => rfl
      | some items => rw [Option.map_some, Option.getD_some, map_node_visit.2 items _ [] 0 0]; rfl
    rw [hbelow, ← length_findUnresolved_eq, exposedNode_organ fields ho, List.map_singleton,
      List.sum_singleton]
  · intro fields ho hc place
    have horgan : ¬ (Json.object fields).isOrgan = true := by rw [Json.isOrgan_object, ho]; simp
    rw [visitNode_childless place _ hc, exposedNode_plain fields ho, hc, List.map_singleton,
      List.countP_cons_of_neg horgan]
    rfl
  · intro fields items ho hc ih place
    have horgan : ¬ (Json.object fields).isOrgan = true := by rw [Json.isOrgan_object, ho]; simp
    rw [visitNode_parent place _ items hc, exposedNode_plain fields ho, hc, List.map_cons,
      List.countP_cons_of_neg horgan]
    exact ih _ 0
  · intro above index
    rfl
  · intro node rest hn hr above index
    rw [visitNodes_cons, List.map_append, List.countP_append, hn, hr, exposedNodes_cons,
      List.map_append, List.sum_append]

theorem length_nestedUnresolved (nodes : List Json) :
    (nestedUnresolved nodes).length =
      ((exposedNodes nodes).map fun fields => (findUnresolved (itemsBelow fields)).length).sum := by
  have hsum : ∀ exposed : List (Keyed Json),
      (exposed.map fun fields => (findUnresolved (itemsBelow fields)).length + 1).sum =
        exposed.length +
          (exposed.map fun fields => (findUnresolved (itemsBelow fields)).length).sum := by
    intro exposed
    induction exposed with
    | nil => rfl
    | cons fields rest ih =>
      rw [List.map_cons, List.map_cons, List.sum_cons, List.sum_cons, List.length_cons, ih]
      omega
  have hall : (findUnresolved nodes).length = _ :=
    (length_findUnresolved_eq nodes).trans (countP_visit.2 nodes [] 0)
  rw [hsum, length_findUnresolved, length_outermostUnresolved] at hall
  omega

/-- no placeholder is found below one with these fields -/
def Bare (fields : Keyed Json) : Prop := isClosed (itemsBelow fields) = true

theorem nestedUnresolved_eq_nil_iff (nodes : List Json) :
    nestedUnresolved nodes = [] ↔ ∀ fields ∈ exposedNodes nodes, Bare fields := by
  have hbare : ∀ fields, Bare fields ↔ (findUnresolved (itemsBelow fields)).length = 0 := by
    intro fields
    rw [Bare, isClosed_iff, List.length_eq_zero_iff]
  rw [← List.length_eq_zero_iff, length_nestedUnresolved, List.sum_eq_zero_iff_forall_eq_nat]
  simp only [List.mem_map, forall_exists_index, and_imp, forall_apply_eq_imp_iff₂, hbare]

/-! ## what expansion leaves -/

/-- the children of a loaded root are those of the tree -/
theorem itemsBelow_graft (p : Placeholder) (tree : Keyed Json) :
    itemsBelow (p.graft tree) = itemsBelow tree := by
  show ((Keyed.get? (p.graft tree) childrenKey).bind Json.array?).getD [] = _
  rw [p.get?_graft_other tree childrenKey (by decide) (by decide)]
  rfl

namespace Expander

variable {x : Expander} {nodes : List Json}

/-- where neither the nodes nor the trees have a placeholder inside another, all that is met is bare -/
theorem bare_of_meets (hnodes : nestedUnresolved nodes = [])
    (htrees : ∀ organId w tree, x.lookup.load organId w = some tree → nestedUnresolved [tree] = [])
    {left : Nat} {stack : List VariantKey} {fields : Keyed Json}
    (h : x.Meets nodes left stack fields) : Bare fields := by
  refine h.keeps ((nestedUnresolved_eq_nil_iff nodes).mp hnodes) ?_
  intro stack fields p tree _ entry inner hm
  have htree : ∀ inner ∈ exposedNode (.object tree), Bare inner := by
    rw [← exposedNodes_singleton]
    exact (nestedUnresolved_eq_nil_iff _).mp (htrees _ _ _ entry.load)
  cases ho : isOrgan tree with
  | true =>
    rw [x.exposedNode_rootOver_alias p tree ho, List.mem_singleton] at hm
    have hown : Bare tree := htree tree (by
      rw [exposedNode_organ tree ho]
      exact List.mem_singleton_self tree)
    rw [hm, Bare, itemsBelow_graft]
    exact hown
  | false =>
    rw [x.exposedNode_rootOver_plain p tree ho] at hm
    exact htree inner hm

theorem length_diagnostics_expand :
    (x.expand nodes).diagnostics.length = (outermostUnresolved (x.expand nodes).output).length := by
  rw [length_outermostUnresolved]
  exact (x.refused_expand nodes).length_eq.symm

variable (x nodes)

/-- **What is left, counted.**  A scan of an output finds a placeholder for every diagnostic, and besides
those that lie inside another one that was left.  If no placeholder of the nodes or of a tree lies inside
another, it finds as many as there are diagnostics. -/
theorem unresolved_count :
    (findUnresolved (x.expand nodes).output).length =
        (x.expand nodes).diagnostics.length + (nestedUnresolved (x.expand nodes).output).length ∧
      (nestedUnresolved nodes = [] →
        (∀ organId w tree, x.lookup.load organId w = some tree → nestedUnresolved [tree] = []) →
        (findUnresolved (x.expand nodes).output).length = (x.expand nodes).diagnostics.length) := by
  have hcount : (findUnresolved (x.expand nodes).output).length =
      (x.expand nodes).diagnostics.length + (nestedUnresolved (x.expand nodes).output).length := by
    rw [length_findUnresolved, length_diagnostics_expand]
  refine ⟨hcount, fun hnodes htrees => ?_⟩
  have hnone : nestedUnresolved (x.expand nodes).output = [] := by
    refine (nestedUnresolved_eq_nil_iff _).mpr fun fields hm => ?_
    obtain ⟨left, stack, hmeets⟩ := meets_of_exposed_output hm
    exact bare_of_meets hnodes htrees hmeets
  rw [hcount, hnone, List.length_nil, Nat.add_zero]

/-- `hero` is an alias of a card, and a card shows a note, which has no tree, and the hero -/
def shelfTable : List Lookup.Row := [
  ⟨"hero", none, .object [("type", .string "organ"), ("organId", .string "card"),
    ("children", .array [.string "text"])]⟩,
  ⟨"card", none, .object [("type", .string "Stack"), ("children", .array [
    .object [("type", .string "organ"), ("organId", .string "note")],
    .object [("type", .string "organ"), ("organId", .string "hero"), ("children", .array [.null])]])]⟩]

/-- a hero, and below another node a placeholder without an organ that has a child -/
def shelfPage : List Json := [
  .object [("type", .string "organ"), ("organId", .string "hero"), ("id", .string "h1")],
  .object [("children", .array [
    .object [("type", .string "organ"), ("children", .array [.object [("type", .string "Text")]])]])]]

theorem unresolved_count_shelfPage :
    let x : Expander := ⟨.ofTable shelfTable, .authored, {}⟩
    (nestedUnresolved shelfPage = [] ∧
        ∀ organId w tree, x.lookup.load organId w = some tree → nestedUnresolved [tree] = []) ∧
      (x.expand shelfPage).diagnostics.length = 3 ∧
      (findUnresolved (x.expand shelfPage).output).length =
        (x.expand shelfPage).diagnostics.length := by
  intro x
  have hnodes : nestedUnresolved shelfPage = [] := by decide
  have htrees : ∀ organId w tree, x.lookup.load organId w = some tree →
      nestedUnresolved [tree] = [] := by
    intro organId w tree ht
    obtain ⟨row, hrow, rfl⟩ := Lookup.load_ofTable ht
    have hrows : ∀ row ∈ shelfTable, nestedUnresolved [row.tree] = [] := by decide
    exact hrows row hrow
  exact ⟨⟨hnodes, htrees⟩, by decide +kernel, (x.unresolved_count shelfPage).2 hnodes htrees⟩

/-- **A leftover hides what it holds.**  A placeholder of an unknown organ has another one among its
children.  Both are left where they stand, and the outer one alone is reported. -/
theorem leftover_inside_leftover :
    let x : Expander := ⟨.ofTable [], .authored, {}⟩
    let nodes : List Json := [.object [("type", .string "organ"), ("organId", .string "lost"),
      ("children", .array [.object [("type", .string "organ"), ("organId", .string "gone")]])]]
    x.expand nodes = ⟨nodes, [.unknownOrgan "lost"]⟩ ∧
      (findUnresolved (x.expand nodes).output).map Unresolved.organId = [some "lost", some "gone"] ∧
      (findUnresolved (x.expand nodes).output).length ≠ (x.expand nodes).diagnostics.length := by
  decide +kernel

end Expander

end Graft
