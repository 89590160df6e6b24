import Graft.Proofs.Exposed
import Graft.Expander

/-!
# Siblings do not see each other

An expansion may also be done by one walk over the nodes with one state, which goes from each node to
the next: the organs that are open, put on a stack and taken off again, and what has been reported so
far.  How deep organs nest is limited by the stack alone.  `walkOrgan` has a bound of its own, and does
not return where it is used up; that it always returns, because the stack inside an organ is longer by
that organ and no more, is part of what is proved.

* `ExpansionState`, `Walk`    the state, and what runs with it;
* `Expander.walk`             the walk;
* `Walk.Yields`               from this stack, whatever was reported, it returns with the stack as it was;
* `Walk.Yields.bind`, `Walk.Yields.inside`   one part after the other, and one between push and pop;
* `Expander.walkOrgan_yields`   the walk through a placeholder is its expansion;
* `Expander.siblings_apart`   so every node is expanded as if it were alone.
-/

namespace Graft

open Node

/-! ## the state of a walk -/

structure ExpansionState where
  /-- the organs that are open, outermost first -/
  stack : List VariantKey := []
  diagnostics : List Diagnostic := []
deriving DecidableEq, Repr

/-- what runs with a state, and may fail to return -/
abbrev Walk (α : Type) : Type := StateT ExpansionState Option α

namespace Walk

def opened : Walk (List VariantKey) := return (← get).stack

def push (key : VariantKey) : Walk Unit := modify fun s => { s with stack := s.stack ++ [key] }

/-- takes the organ that was opened last off the stack -/
def pop : Walk Unit := modify fun s => { s with stack := s.stack.dropLast }

/-- left in place and reported -/
def leave (fields : Keyed Json) (d : Diagnostic) : Walk Json := do
  modify fun s => { s with diagnostics := s.diagnostics ++ [d] }
  return .object fields

end Walk

/-! ## the walk -/

theorem sizeOf_children {fields : Keyed Json} {items : List Json}
    (h : (Json.object fields).children? = some items) : sizeOf items < sizeOf (Json.object fields) := by
  have hmem := List.sizeOf_lt_of_mem (Keyed.mem_of_get? (get?_of_children? h))
  rw [Prod.mk.sizeOf_spec, Json.array.sizeOf_spec] at hmem
  rw [Json.object.sizeOf_spec]
  omega

section

variable (organ : Keyed Json → Walk Json)

mutual

/-- one node; what `organ` returns takes the place of a placeholder -/
def walkNode : Json → Walk Json
  | .object fields =>
    if isOrgan fields then organ fields
    else
      match _ : (Json.object fields).children? with
      | none => return .object fields
      | some items => do
        let items ← walkNodes items
        return .object (Keyed.insert fields childrenKey (.array items))
  | node => return node
termination_by node => sizeOf node
decreasing_by exact sizeOf_children ‹_›

/-- sibling nodes, in order -/
def walkNodes : List Json → Walk (List Json)
  | [] => return []
  | node :: rest => do
    let node ← walkNode node
    let rest ← walkNodes rest
    return node :: rest
termination_by nodes => sizeOf nodes

end

end

namespace Expander

/-- a placeholder inside the organs that are open, with fewer than `bound` organs to be opened inside one
another; it is opened itself for an alias and for children -/
def walkOrgan (x : Expander) : Nat → Keyed Json → Walk Json
  | 0, _ => failure
  | bound + 1, fields => do
    let stack ← Walk.opened
    match x.choice? stack fields with
    | .error d => Walk.leave fields d
    | .ok c =>
      if x.options.maxDepth ≤ stack.length then
        Walk.leave fields (.maxDepthExceeded x.options.maxDepth)
      else
        match x.root? c with
        | .error d => Walk.leave fields d
        | .ok root =>
          if isOrgan root then do
            Walk.push c.key
            let node ← walkNode (x.walkOrgan bound) (.object root)
            Walk.pop
            return node
          else
            let root := x.stamp c.variantId root
            match (Json.object root).children? with
            | none => return .object root
            | some items => do
              Walk.push c.key
              let items ← walkNodes (x.walkOrgan bound) items
              Walk.pop
              return .object (Keyed.insert root childrenKey (.array items))

/-- a node, with a bound that is never used up -/
def walkOne (x : Expander) (node : Json) : Walk Json :=
  walkNode (x.walkOrgan (x.options.maxDepth + 1)) node

def walk (x : Expander) (nodes : List Json) : Walk (List Json) :=
  walkNodes (x.walkOrgan (x.options.maxDepth + 1)) nodes

end Expander

/-! ## what a walk yields -/

namespace Walk

variable {α β : Type}

/-- with the organs of `stack` open, `w` returns the output of `e` and appends its diagnostics to what
was reported before, whatever that was; the stack is as it was -/
def Yields (w : Walk α) (stack : List VariantKey) (e : Expanded α) : Prop :=
  ∀ ds, w ⟨stack, ds⟩ = some (e.output, ⟨stack, ds ++ e.diagnostics⟩)

theorem bind_apply (w : Walk α) (f : α → Walk β) (s : ExpansionState) :
    (w >>= f) s = (w s).bind fun r => f r.1 r.2 := rfl

namespace Yields

variable {w : Walk α} {stack : List VariantKey} {e : Expanded α}

theorem pure (a : α) (stack : List VariantKey) :
    Yields (Pure.pure a) stack (.clean a) := by
  intro ds
  rw [Expanded.output_clean, Expanded.diagnostics_clean, List.append_nil]
  rfl

theorem bind {f : α → Walk β} {g : α → Expanded β} (hw : Yields w stack e)
    (hf : Yields (f e.output) stack (g e.output)) : Yields (w >>= f) stack (e.bind g) := by
  intro ds
  rw [bind_apply, hw ds]
  show f e.output ⟨stack, ds ++ e.diagnostics⟩ = _
  rw [hf, List.append_assoc]
  rfl

theorem map (hw : Yields w stack e) (f : α → β) :
    Yields (w >>= fun a => Pure.pure (f a)) stack (e.map f) := by
  intro ds
  rw [bind_apply, hw ds]
  rfl

/-- a walk that looks at the stack first -/
theorem opened {f : List VariantKey → Walk α} (hf : Yields (f stack) stack e) :
    Yields (Walk.opened >>= f) stack e := by
  intro ds
  rw [← hf ds]
  rfl

theorem leave (fields : Keyed Json) (d : Diagnostic) (stack : List VariantKey) :
    Yields (Walk.leave fields d) stack (Expander.leave fields d) := by
  intro ds
  rfl

/-- what is pushed before is popped after, since nothing in between is left on the stack -/
theorem inside {key : VariantKey} (hw : Yields w (stack ++ [key]) e) (f : α → β) :
    Yields (do
      Walk.push key
      let a ← w
      Walk.pop
      return f a) stack (e.map f) := by
  intro ds
  have hpop : (stack ++ [key]).dropLast = stack := List.dropLast_concat
  show ((w ⟨stack ++ [key], ds⟩).bind fun r =>
    some (f r.1, { r.2 with stack := r.2.stack.dropLast })) = _
  rw [hw ds]
  show some (f e.output, (⟨(stack ++ [key]).dropLast, ds ++ e.diagnostics⟩ : ExpansionState)) = _
  rw [hpop]
  rfl

end Yields

end Walk

/-! ## the walk is the expansion -/

section

variable (organ : Keyed Json → Walk Json)

theorem walkNode_organ (own : Keyed Json) (ho : isOrgan own = true) :
    walkNode organ (.object own) = organ own := by
  rw [walkNode.eq_def]
  exact if_pos ho

theorem walkNode_of_not_object (j : Json) (hj : ∀ fields, j ≠ .object fields) :
    walkNode organ j = pure j := by
  rw [walkNode.eq_def]
  cases j with
  | object fields => exact absurd rfl (hj fields)
  | _ => rfl

theorem walkNode_childless (own : Keyed Json) (ho : isOrgan own = false)
    (hc : (Json.object own).children? = none) : walkNode organ (.object own) = pure (.object own) := by
  rw [walkNode.eq_def]
  dsimp only
  rw [if_neg (by simp [ho])]
  split
  · rfl
  · rename_i items hitems
    exact absurd (hitems.symm.trans hc) (Option.some_ne_none items)

theorem walkNode_parent (own : Keyed Json) (items : List Json) (ho : isOrgan own = false)
    (hc : (Json.object own).children? = some items) :
    walkNode organ (.object own) = do
      let items ← walkNodes organ items
      return .object (Keyed.insert own childrenKey (.array items)) := by
  rw [walkNode.eq_def]
  dsimp only
  rw [if_neg (by simp [ho])]
  split
  · rename_i hnone
    exact absurd (hc.symm.trans hnone) (Option.some_ne_none items)
  · rename_i items' hitems
    rw [Option.some.inj (hc.symm.trans hitems)]

theorem walkNodes_nil : walkNodes organ [] = pure [] := by
  rw [walkNodes.eq_def]

theorem walkNodes_cons (node : Json) (rest : List Json) :
    walkNodes organ (node :: rest) = do
      let node ← walkNode organ node
      let rest ← walkNodes organ rest
      return node :: rest := by
  rw [walkNodes.eq_def]

end

/-- between placeholders the walk replaces: what each yields goes in its place -/
theorem walk_yields {organ : Keyed Json → Walk Json} {f : Keyed Json → Expanded Json}
    {stack : List VariantKey} (hf : ∀ fields, Walk.Yields (organ fields) stack (f fields)) :
    (∀ node, Walk.Yields (walkNode organ node) stack (replaceNode f node)) ∧
      ∀ nodes, Walk.Yields (walkNodes organ nodes) stack (replaceNodes f nodes) := by
  refine exposed_rec ?_ ?_ ?_ ?_ ?_ ?_
  · intro j hj
    rw [replaceNode_of_not_object f j hj, walkNode_of_not_object organ j hj]
    exact .pure j stack
  · intro own ho
    rw [replaceNode_organ f own ho, walkNode_organ organ own ho]
    exact hf own
  · intro own ho hc
    rw [replaceNode_plain f own ho, replaceFields_no_items f own hc, walkNode_childless organ own ho hc]
    exact .pure _ stack
  · intro own items ho hc ih
    rw [replaceNode_plain f own ho, replaceFields_items f own items hc,
      walkNode_parent organ own items ho hc]
    exact ih.map fun items => Json.object (Keyed.insert own childrenKey (.array items))
  · rw [walkNodes_nil]
    exact .pure _ stack
  · intro j js hj hjs
    rw [replaceNodes_cons, walkNodes_cons]
    exact hj.bind (hjs.map fun rest => (replaceNode f j).output :: rest)

namespace Expander

open Walk

variable (x : Expander)

/-- the walk through a placeholder, where organs may nest `left` levels further -/
theorem walkOrgan_yields (left bound : Nat) (stack : List VariantKey) (fields : Keyed Json)
    (hl : x.options.maxDepth - stack.length = left) (hb : left < bound) :
    Yields (x.walkOrgan bound fields) stack (x.expandOrgan left stack fields) := by
  obtain ⟨bound, rfl⟩ := Nat.exists_eq_add_one_of_ne_zero (Nat.ne_zero_of_lt hb)
  induction left generalizing bound stack fields with
  | zero =>
    rw [walkOrgan, expandOrgan]
    refine .opened ?_
    cases x.choice? stack fields with
    | error d => exact .leave fields d stack
    | ok c =>
      dsimp only
      rw [if_pos (by omega)]
      exact .leave fields _ stack
  | succ left ih =>
    rw [walkOrgan, expandOrgan]
    refine .opened ?_
    cases x.choice? stack fields with
    | error d => exact .leave fields d stack
    | ok c =>
      dsimp only
      rw [if_neg (by omega)]
      -- one more organ is open inside, and one level less is left there
      have hin : ∀ fields, Yields (x.walkOrgan bound fields) (stack ++ [c.key])
          (x.expandOrgan left (stack ++ [c.key]) fields) := fun fields => by
        obtain ⟨bound, rfl⟩ := Nat.exists_eq_add_one_of_ne_zero (show bound ≠ 0 by omega)
        refine ih (stack ++ [c.key]) fields ?_ bound (by omega)
        rw [List.length_append, List.length_singleton]
        omega
      cases x.root? c with
      | error d => exact .leave fields d stack
      | ok root =>
        dsimp only
        cases ho : isOrgan root with
        | true =>
          have hw := (walk_yields hin).1 (.object root)
          rw [replaceNode_organ _ root ho] at hw
          rw [if_pos rfl, if_pos rfl]
          exact hw.inside id
        | false =>
          rw [if_neg (by simp), if_neg (by simp)]
          cases hc : (Json.object (x.stamp c.variantId root)).children? with
          | none =>
            rw [replaceFields_no_items _ _ hc]
            exact .pure _ stack
          | some items =>
            rw [replaceFields_items _ _ items hc]
            exact ((walk_yields hin).2 items).inside fun items =>
              Json.object (Keyed.insert (x.stamp c.variantId root) childrenKey (.array items))

/-- a node inside the organs of `stack` -/
def expandNodeInside (stack : List VariantKey) (node : Json) : Expanded Json :=
  replaceNode (x.expandOrgan (x.options.maxDepth - stack.length) stack) node

/-- sibling nodes inside the organs of `stack` -/
def expandInside (stack : List VariantKey) (nodes : List Json) : Expanded (List Json) :=
  replaceNodes (x.expandOrgan (x.options.maxDepth - stack.length) stack) nodes

theorem expandInside_nil (nodes : List Json) : x.expandInside [] nodes = x.expand nodes := rfl

/-- **Siblings do not see each other.**  From every state the walk returns, with the stack as it was;
what it returns and what it appends to the diagnostics depend on the stack alone.  Started from the
empty state it is the expansion.  So two lists of nodes are expanded side by side, and what stands at a
position in the output is the expansion of the node at that position by itself. -/
theorem siblings_apart (x : Expander) :
    (∀ nodes stack ds, x.walk nodes ⟨stack, ds⟩ =
        some ((x.expandInside stack nodes).output,
          ⟨stack, ds ++ (x.expandInside stack nodes).diagnostics⟩)) ∧
      (∀ node stack ds, x.walkOne node ⟨stack, ds⟩ =
        some ((x.expandNodeInside stack node).output,
          ⟨stack, ds ++ (x.expandNodeInside stack node).diagnostics⟩)) ∧
      (∀ nodes, x.walk nodes {} =
        some ((x.expand nodes).output, ⟨[], (x.expand nodes).diagnostics⟩)) ∧
      (∀ xs ys, (x.expand (xs ++ ys)).output = (x.expand xs).output ++ (x.expand ys).output ∧
        (x.expand (xs ++ ys)).diagnostics =
          (x.expand xs).diagnostics ++ (x.expand ys).diagnostics) ∧
      ∀ nodes, (x.expand nodes).output.map (fun out => [out]) =
        nodes.map fun node => (x.expand [node]).output := by
  have hwalk : ∀ stack fields, Yields (x.walkOrgan (x.options.maxDepth + 1) fields) stack
      (x.expandOrgan (x.options.maxDepth - stack.length) stack fields) := fun stack fields =>
    x.walkOrgan_yields _ _ stack fields rfl (Nat.lt_succ_of_le (Nat.sub_le _ _))
  have hnodes : ∀ nodes stack, Yields (x.walk nodes) stack (x.expandInside stack nodes) :=
    fun nodes stack => (walk_yields (hwalk stack)).2 nodes
  refine ⟨hnodes, fun node stack => (walk_yields (hwalk stack)).1 node, ?_, ?_, ?_⟩
  · intro nodes
    rw [← x.expandInside_nil]
    exact hnodes nodes [] []
  · intro xs ys
    rw [expand_append]
    exact ⟨rfl, rfl⟩
  · intro nodes
    simp only [expand, output_replaceNodes, List.map_map, List.map_cons, List.map_nil]
    rfl

end Expander

end Graft
