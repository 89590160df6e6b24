import Graft.Proofs.Root
import Graft.Proofs.Siblings
import Mathlib.Order.WellFounded

/-!
# The calls of an expansion

An expansion calls for nodes: for an ordinary one it goes on to its fields and from there to its
children, for a placeholder to the root that it loads, or to the children of that root.  A lookup may
give any tree, for ever new organs ever larger ones, so the nodes need not get smaller.  But what is
loaded is called for with one organ more on the stack, and only while fewer organs are open than may
nest; every other call keeps the stack and is for a part of what it comes from.  So the levels that are
left and the size, the levels first, go down with every call.

* `Json.size`                  how many values there are in a value;
* `Call`, `Expander.turn`      a call, and what it does itself: the calls that it makes, and what
                               becomes of their answers;
* `Expander.Invokes`           the four ways in which one call makes another;
* `Invokes.rank_lt`            each of them goes down;
* `Expander.run`               a call with all that it leads to, by recursion on the rank;
* `Expander.run_eq_meaning`    the run of a node is its expansion;
* `Expander.generation`        the calls that some calls lead to, and `calls_end`;
* `Expander.calls_descend`     all of this, for the calls that an expansion comes to.
-/

namespace Graft

open Node

/-! ## sizes -/

namespace Json

mutual

/-- how many values there are in a value, itself among them -/
def size : Json → Nat
  | .array items => 1 + sizeItems items
  | .object fields => 1 + sizeFields fields
  | _ => 1

def sizeItems : List Json → Nat
  | [] => 0
  | item :: rest => size item + sizeItems rest

def sizeFields : List (String × Json) → Nat
  | [] => 0
  | (_, value) :: rest => size value + sizeFields rest

end

theorem size_le_sizeItems {items : List Json} {item : Json} (h : item ∈ items) :
    item.size ≤ sizeItems items := by
  induction items with
  | nil => exact absurd h List.not_mem_nil
  | cons first rest ih =>
    rw [sizeItems]
    rcases List.mem_cons.mp h with rfl | h
    · exact Nat.le_add_right _ _
    · exact Nat.le_add_left_of_le (ih h)

theorem size_le_sizeFields {fields : Keyed Json} {key : String} {value : Json}
    (h : (key, value) ∈ fields) : value.size ≤ sizeFields fields := by
  induction fields with
  | nil => exact absurd h List.not_mem_nil
  | cons first rest ih =>
    rw [sizeFields]
    rcases List.mem_cons.mp h with rfl | h
    · exact Nat.le_add_right _ _
    · exact Nat.le_add_left_of_le (ih h)

theorem sizeFields_lt_size (fields : Keyed Json) : sizeFields fields < (Json.object fields).size := by
  rw [size]
  omega

theorem size_child {fields : Keyed Json} {items : List Json} {item : Json}
    (hitems : (Json.object fields).children? = some items) (h : item ∈ items) :
    item.size < sizeFields fields := by
  have hitem : item.size ≤ sizeItems items := size_le_sizeItems h
  have harray : (Json.array items).size ≤ sizeFields fields :=
    size_le_sizeFields (Keyed.mem_of_get? (get?_of_children? hitems))
  rw [size] at harray
  omega

end Json

/-! ## calls -/

/-- what is to be expanded -/
inductive Task where
  | node (node : Json)
  /-- the fields of an ordinary node -/
  | fields (fields : Keyed Json)
  /-- a placeholder with the view of it -/
  | placeholder (fields : Keyed Json) (p : Placeholder)
      (view : Placeholder.ofFields? fields = some p)

/-- the fields of a node are less than the node -/
def Task.size : Task → Nat
  | .node j => j.size
  | .fields own => Json.sizeFields own
  | .placeholder own _ _ => Json.sizeFields own

structure Call where
  /-- the organs that are open, outermost first -/
  stack : List VariantKey
  task : Task

/-- one after the other -/
def Expanded.all {α : Type} (es : List (Expanded α)) : Expanded (List α) :=
  ⟨es.map Expanded.output, es.flatMap Expanded.diagnostics⟩

/-- what a call does by itself -/
inductive Turn where
  | done (answer : Expanded Json)
  /-- the answer of one other call is its own -/
  | goOn (call : Call)
  /-- the answers of other calls become the children of a node -/
  | children (fields : Keyed Json) (calls : List Call)

namespace Turn

def calls : Turn → List Call
  | .done _ => []
  | .goOn call => [call]
  | .children _ calls => calls

/-- the answer, from those of the calls that are made -/
def answer (f : Call → Expanded Json) : Turn → Expanded Json
  | .done answer => answer
  | .goOn call => f call
  | .children fields calls =>
    (Expanded.all (calls.map f)).map fun items => .object (Keyed.insert fields childrenKey (.array items))

/-- an ordinary node: its children are called for -/
def below (stack : List VariantKey) (fields : Keyed Json) : Turn :=
  match (Json.object fields).children? with
  | none => .done (.clean (.object fields))
  | some items => .children fields (items.map fun item => ⟨stack, .node item⟩)

end Turn

namespace Expander

variable (x : Expander)

/-- the turn of a call; an organ is open for an alias root and for the children of any other root -/
def turn (call : Call) : Turn :=
  match call.task with
  | .node (.object fields) =>
    if isOrgan fields then
      match view : Placeholder.ofFields? fields with
      | some p => .goOn ⟨call.stack, .placeholder fields p view⟩
      | none => .done (leave fields .malformedPlaceholder)
    else .goOn ⟨call.stack, .fields fields⟩
  | .node node => .done (.clean node)
  | .fields fields => .below call.stack fields
  | .placeholder fields p _ =>
    if x.keyOf p ∈ call.stack then
      .done (leave fields (.cycleDetected (cycleOf call.stack (x.keyOf p))))
    else if x.options.maxDepth ≤ call.stack.length then
      .done (leave fields (.maxDepthExceeded x.options.maxDepth))
    else
      match x.root? ⟨p, x.resolver p⟩ with
      | .error d => .done (leave fields d)
      | .ok root =>
        if isOrgan root then .goOn ⟨call.stack ++ [x.keyOf p], .node (.object root)⟩
        else .below (call.stack ++ [x.keyOf p]) (x.stamp (x.resolver p) root)

/-- the calls that a call makes itself, in order -/
def calls (call : Call) : List Call := (x.turn call).calls

/-! ## the turn in each case -/

section

variable {stack : List VariantKey} {fields : Keyed Json}

theorem below_childless (h : (Json.object fields).children? = none) :
    Turn.below stack fields = .done (.clean (.object fields)) := by
  unfold Turn.below
  rw [h]

theorem below_parent {items : List Json} (h : (Json.object fields).children? = some items) :
    Turn.below stack fields = .children fields (items.map fun item => ⟨stack, .node item⟩) := by
  unfold Turn.below
  rw [h]

theorem turn_not_object {node : Json} (h : ∀ fields, node ≠ .object fields) :
    x.turn ⟨stack, .node node⟩ = .done (.clean node) := by
  cases node with
  | object fields => exact absurd rfl (h fields)
  | _ => rfl

theorem turn_ordinary (h : isOrgan fields = false) :
    x.turn ⟨stack, .node (.object fields)⟩ = .goOn ⟨stack, .fields fields⟩ := by
  simp only [turn, h, Bool.false_eq_true, if_false]

theorem turn_malformed (h : isOrgan fields = true) (hp : Placeholder.ofFields? fields = none) :
    x.turn ⟨stack, .node (.object fields)⟩ = .done (leave fields .malformedPlaceholder) := by
  simp only [turn, if_pos h]
  split
  · rename_i p view
    exact absurd (view.symm.trans hp) (Option.some_ne_none p)
  · rfl

variable {p : Placeholder} (view : Placeholder.ofFields? fields = some p)

theorem turn_view :
    x.turn ⟨stack, .node (.object fields)⟩ = .goOn ⟨stack, .placeholder fields p view⟩ := by
  simp only [turn, if_pos (Placeholder.isOrgan_of_ofFields? view)]
  split
  · rename_i q hq
    obtain rfl := Option.some.inj (hq.symm.trans view)
    rfl
  · rename_i hnone
    exact absurd (view.symm.trans hnone) (Option.some_ne_none p)

/-- the guards come in the order of the refusals, and what is refused calls for nothing -/
theorem turn_refused {d : Diagnostic}
    (h : x.Refusal (x.options.maxDepth - stack.length) stack fields d) :
    x.turn ⟨stack, .placeholder fields p view⟩ = .done (leave fields d) := by
  have hview : ∀ {q}, Placeholder.ofFields? fields = some q → q = p :=
    fun hq => Option.some.inj (hq.symm.trans view)
  generalize hleft : x.options.maxDepth - stack.length = left at h
  cases h with
  | malformed hq => exact absurd (view.symm.trans hq) (Option.some_ne_none p)
  | cycle hq hs =>
    obtain rfl := hview hq
    simp only [turn, if_pos hs]
  | depth hq hs =>
    obtain rfl := hview hq
    simp only [turn, if_neg hs, if_pos (Nat.le_of_sub_eq_zero hleft)]
  | organ hq hs hl hc =>
    obtain rfl := hview hq
    have hd : ¬ x.options.maxDepth ≤ stack.length := by omega
    simp only [turn, if_neg hs, if_neg hd, root?, hl, hc, Bool.false_eq_true, if_false]
  | variant hq hs hl hc =>
    obtain rfl := hview hq
    have hd : ¬ x.options.maxDepth ≤ stack.length := by omega
    simp only [turn, if_neg hs, if_neg hd, root?, hl, hc, if_true]
  | @tree _ _ _ _ value hq hs hl hv =>
    obtain rfl := hview hq
    have hd : ¬ x.options.maxDepth ≤ stack.length := by omega
    cases value with
    | object tree => exact absurd rfl (hv tree)
    | _ => simp only [turn, if_neg hs, if_neg hd, root?, hl]

/-- what is entered calls for its root, if that is an alias, and else for the children of the root -/
theorem turn_entered {tree : Keyed Json} (entry : x.Entry stack fields p tree)
    (hd : stack.length < x.options.maxDepth) :
    x.turn ⟨stack, .placeholder fields p view⟩ =
      if isOrgan (x.rootOver p tree) then
        .goOn ⟨stack ++ [x.keyOf p], .node (.object (x.rootOver p tree))⟩
      else .below (stack ++ [x.keyOf p]) (x.rootOver p tree) := by
  have hroot : x.root? ⟨p, x.resolver p⟩ = .ok (p.graft tree) := by
    simp only [root?, entry.load]
  simp only [turn, if_neg entry.fresh, if_neg (Nat.not_le_of_lt hd), hroot, isOrgan_rootOver,
    p.isOrgan_graft]
  cases ho : isOrgan tree with
  | true => rw [if_pos rfl, if_pos rfl, rootOver_alias x p tree ho]
  | false => rw [if_neg Bool.false_ne_true, if_neg Bool.false_ne_true, rootOver_plain x p tree ho]

/-- the two outcomes for a placeholder, in terms of the stack -/
theorem refusal_or_room (stack : List VariantKey) (fields : Keyed Json) :
    (∃ d, x.Refusal (x.options.maxDepth - stack.length) stack fields d) ∨
      ∃ p tree, stack.length < x.options.maxDepth ∧ x.Entry stack fields p tree := by
  rcases x.refusal_or_entry (x.options.maxDepth - stack.length) stack fields with
    h | ⟨below, p, tree, hleft, entry⟩
  · exact .inl h
  · exact .inr ⟨p, tree, by omega, entry⟩

end

/-! ## from call to call -/

/-- the ways in which one call makes another -/
inductive Invokes : Call → Call → Prop where
  | ordinary {stack : List VariantKey} {fields : Keyed Json} :
      isOrgan fields = false → Invokes ⟨stack, .node (.object fields)⟩ ⟨stack, .fields fields⟩
  | placeholder {stack : List VariantKey} {fields : Keyed Json} {p : Placeholder}
      (view : Placeholder.ofFields? fields = some p) :
      Invokes ⟨stack, .node (.object fields)⟩ ⟨stack, .placeholder fields p view⟩
  | child {stack : List VariantKey} {fields : Keyed Json} {items : List Json} {item : Json} :
      (Json.object fields).children? = some items → item ∈ items →
      Invokes ⟨stack, .fields fields⟩ ⟨stack, .node item⟩
  /-- for the root of an alias, or for a child of any other root; both guards have let it pass -/
  | loaded {stack : List VariantKey} {fields : Keyed Json} {p : Placeholder}
      {view : Placeholder.ofFields? fields = some p} {node : Json} :
      x.keyOf p ∉ stack → stack.length < x.options.maxDepth →
      Invokes ⟨stack, .placeholder fields p view⟩ ⟨stack ++ [x.keyOf p], .node node⟩

theorem mem_calls_below {stack : List VariantKey} {fields : Keyed Json} {inner : Call}
    (h : inner ∈ (Turn.below stack fields).calls) :
    ∃ items, (Json.object fields).children? = some items ∧
      ∃ item ∈ items, inner = ⟨stack, .node item⟩ := by
  cases hitems : (Json.object fields).children? with
  | none =>
    rw [below_childless hitems] at h
    exact absurd h List.not_mem_nil
  | some items =>
    rw [below_parent hitems] at h
    obtain ⟨item, hitem, rfl⟩ := List.mem_map.mp h
    exact ⟨items, rfl, item, hitem, rfl⟩

variable {x}

theorem invokes_of_mem_calls {call inner : Call} (h : inner ∈ x.calls call) :
    x.Invokes call inner := by
  obtain ⟨stack, task⟩ := call
  unfold calls at h
  cases task with
  | node node =>
    by_cases hobject : ∃ fields, node = .object fields
    · obtain ⟨fields, rfl⟩ := hobject
      cases ho : isOrgan fields with
      | false =>
        rw [turn_ordinary x ho] at h
        obtain rfl := List.mem_singleton.mp h
        exact .ordinary ho
      | true =>
        cases view : Placeholder.ofFields? fields with
        | none =>
          rw [turn_malformed x ho view] at h
          exact absurd h List.not_mem_nil
        | some p =>
          rw [turn_view x view] at h
          obtain rfl := List.mem_singleton.mp h
          exact .placeholder view
    · rw [turn_not_object x fun fields he => hobject ⟨fields, he⟩] at h
      exact absurd h List.not_mem_nil
  | fields fields =>
    obtain ⟨items, hitems, item, hitem, rfl⟩ := mem_calls_below h
    exact .child hitems hitem
  | placeholder fields p view =>
    rcases x.refusal_or_room stack fields with ⟨d, hd⟩ | ⟨q, tree, hroom, entry⟩
    · rw [turn_refused x view hd] at h
      exact absurd h List.not_mem_nil
    · obtain rfl := Option.some.inj (entry.view.symm.trans view)
      rw [turn_entered x view entry hroom] at h
      split at h
      · obtain rfl := List.mem_singleton.mp h
        exact .loaded entry.fresh hroom
      · obtain ⟨_, _, item, _, rfl⟩ := mem_calls_below h
        exact .loaded entry.fresh hroom

/-! ## the rank -/

/-- the levels that are left, and the size of what is to be expanded -/
def rank (x : Expander) (call : Call) : Nat × Nat :=
  (x.options.maxDepth - call.stack.length, call.task.size)

/-- one more organ is open, and one level less is left -/
theorem levels_push {stack : List VariantKey} (key : VariantKey)
    (hroom : stack.length < x.options.maxDepth) :
    x.options.maxDepth - stack.length = x.options.maxDepth - (stack ++ [key]).length + 1 := by
  rw [List.length_append, List.length_singleton]
  omega

theorem Invokes.rank_lt {call inner : Call} (h : x.Invokes call inner) :
    Prod.Lex (· < ·) (· < ·) (x.rank inner) (x.rank call) := by
  cases h with
  | ordinary _ => exact .right _ (Json.sizeFields_lt_size _)
  | placeholder _ => exact .right _ (Json.sizeFields_lt_size _)
  | child hitems hitem => exact .right _ (Json.size_child hitems hitem)
  | @loaded stack _ p _ _ _ hroom =>
    have hleft : x.options.maxDepth - (stack ++ [x.keyOf p]).length <
        x.options.maxDepth - stack.length := by
      rw [levels_push (x.keyOf p) hroom]
      exact Nat.lt_succ_self _
    exact .left _ _ hleft

/-- no call leads on without end -/
theorem wellFounded_calls (x : Expander) : WellFounded fun inner call => inner ∈ x.calls call :=
  Subrelation.wf (fun h => (invokes_of_mem_calls h).rank_lt)
    (InvImage.wf x.rank (Prod.lex Nat.lt_wfRel Nat.lt_wfRel).wf)

/-! ## runs -/

/-- the answer of a call -/
def run (x : Expander) (call : Call) : Expanded Json :=
  match _h : x.turn call with
  | .done answer => answer
  | .goOn inner => x.run inner
  | .children fields inners =>
    (Expanded.all (inners.attach.map fun inner => x.run inner.1)).map fun items =>
      .object (Keyed.insert fields childrenKey (.array items))
termination_by x.rank call
decreasing_by
  · exact (invokes_of_mem_calls (by rw [calls, _h]; exact List.mem_singleton_self _)).rank_lt
  · exact (invokes_of_mem_calls (by rw [calls, _h]; exact inner.2)).rank_lt

theorem run_eq (x : Expander) (call : Call) : x.run call = (x.turn call).answer x.run := by
  rw [run]
  split
  · rename_i h
    rw [h, Turn.answer]
  · rename_i h
    rw [h, Turn.answer]
  · rename_i inners h
    rw [h, Turn.answer, List.map_attach_eq_pmap, List.pmap_eq_map]

/-! ## a run is an expansion -/

theorem replaceNodes_eq_all (f : Keyed Json → Expanded Json) (nodes : List Json) :
    replaceNodes f nodes = .all (nodes.map (replaceNode f)) := by
  induction nodes with
  | nil => rfl
  | cons node rest ih =>
    rw [replaceNodes_cons, ih]
    rfl

/-- expansion inside the organs of a call's stack, with as many levels to go as that leaves -/
def meaning (x : Expander) (call : Call) : Expanded Json :=
  let organ := x.expandOrgan (x.options.maxDepth - call.stack.length) call.stack
  match call.task with
  | .node node => replaceNode organ node
  | .fields fields => (replaceFields organ fields).map .object
  | .placeholder fields _ _ => organ fields

theorem answer_below {stack : List VariantKey} {fields : Keyed Json} {answer : Call → Expanded Json}
    (h : ∀ inner ∈ (Turn.below stack fields).calls, answer inner = x.meaning inner) :
    (Turn.below stack fields).answer answer = x.meaning ⟨stack, .fields fields⟩ := by
  show _ = (replaceFields (x.expandOrgan (x.options.maxDepth - stack.length) stack)
    fields).map Json.object
  cases hitems : (Json.object fields).children? with
  | none =>
    rw [below_childless hitems, replaceFields_no_items _ fields hitems]
    rfl
  | some items =>
    rw [below_parent hitems] at h ⊢
    have hanswers : (items.map fun item => (⟨stack, .node item⟩ : Call)).map answer =
        items.map (replaceNode (x.expandOrgan (x.options.maxDepth - stack.length) stack)) := by
      refine (List.map_congr_left h).trans ?_
      rw [Turn.calls, List.map_map]
      rfl
    rw [replaceFields_items _ fields items hitems, replaceNodes_eq_all, Turn.answer, hanswers]
    rfl

section

variable {stack : List VariantKey} {answer : Call → Expanded Json}

theorem answer_node {node : Json}
    (h : ∀ inner ∈ x.calls ⟨stack, .node node⟩, answer inner = x.meaning inner) :
    (x.turn ⟨stack, .node node⟩).answer answer = x.meaning ⟨stack, .node node⟩ := by
  show _ = replaceNode (x.expandOrgan (x.options.maxDepth - stack.length) stack) node
  unfold calls at h
  by_cases hobject : ∃ fields, node = .object fields
  · obtain ⟨fields, rfl⟩ := hobject
    cases ho : isOrgan fields with
    | false =>
      rw [turn_ordinary x ho] at h ⊢
      rw [replaceNode_plain _ fields ho]
      exact h _ (List.mem_singleton_self _)
    | true =>
      rw [replaceNode_organ _ fields ho]
      cases view : Placeholder.ofFields? fields with
      | none =>
        rw [turn_malformed x ho view, x.expandOrgan_of_refusal (.malformed view)]
        rfl
      | some p =>
        rw [turn_view x view] at h ⊢
        exact h _ (List.mem_singleton_self _)
  · have hnot : ∀ fields, node ≠ .object fields := fun fields he => hobject ⟨fields, he⟩
    rw [turn_not_object x hnot, replaceNode_of_not_object _ node hnot]
    rfl

theorem answer_placeholder {fields : Keyed Json} {p : Placeholder}
    (view : Placeholder.ofFields? fields = some p)
    (h : ∀ inner ∈ x.calls ⟨stack, .placeholder fields p view⟩, answer inner = x.meaning inner) :
    (x.turn ⟨stack, .placeholder fields p view⟩).answer answer =
      x.meaning ⟨stack, .placeholder fields p view⟩ := by
  show _ = x.expandOrgan (x.options.maxDepth - stack.length) stack fields
  unfold calls at h
  rcases x.refusal_or_room stack fields with ⟨d, hd⟩ | ⟨q, tree, hroom, entry⟩
  · rw [turn_refused x view hd, x.expandOrgan_of_refusal hd]
    rfl
  · obtain rfl := Option.some.inj (entry.view.symm.trans view)
    rw [turn_entered x view entry hroom] at h ⊢
    rw [levels_push (x.keyOf q) hroom, x.expandOrgan_of_entry entry]
    cases ho : isOrgan (x.rootOver q tree) with
    | true =>
      rw [ho, if_pos rfl] at h
      rw [if_pos rfl]
      exact h _ (List.mem_singleton_self _)
    | false =>
      rw [ho, if_neg Bool.false_ne_true] at h
      rw [if_neg Bool.false_ne_true, answer_below h, replaceNode_plain _ _ ho]
      rfl

/-- one turn, once the calls that it makes are answered -/
theorem answer_turn {call : Call}
    (h : ∀ inner ∈ x.calls call, answer inner = x.meaning inner) :
    (x.turn call).answer answer = x.meaning call := by
  obtain ⟨stack, task⟩ := call
  cases task with
  | node node => exact answer_node h
  | fields fields => exact answer_below h
  | placeholder fields p view => exact answer_placeholder view h

end

/-- a run is an expansion -/
theorem run_eq_meaning (x : Expander) (call : Call) : x.run call = x.meaning call := by
  induction call using x.wellFounded_calls.induction with
  | _ call ih =>
    rw [run_eq]
    exact answer_turn ih

/-! ## the calls of an expansion -/

/-- the calls that an expansion begins with -/
def starts (nodes : List Json) : List Call := nodes.map fun node => ⟨[], .node node⟩

/-- the calls that some calls lead to after `n` more -/
def generation (x : Expander) : Nat → List Call → List Call
  | 0, first => first
  | n + 1, first => x.generation n (first.flatMap x.calls)

theorem Invokes.length_le {call inner : Call} (h : x.Invokes call inner)
    (hcall : call.stack.length ≤ x.options.maxDepth) :
    inner.stack.length ≤ x.options.maxDepth := by
  cases h with
  | @loaded stack _ p _ _ _ hroom =>
    have hlength : (stack ++ [x.keyOf p]).length = stack.length + 1 := List.length_append
    exact hlength ▸ hroom
  | _ => exact hcall

theorem length_le_of_mem_generation {n : Nat} {first : List Call}
    (hfirst : ∀ call ∈ first, call.stack.length ≤ x.options.maxDepth) :
    ∀ call ∈ x.generation n first, call.stack.length ≤ x.options.maxDepth := by
  induction n generalizing first with
  | zero => exact hfirst
  | succ n ih =>
    refine ih fun inner hinner => ?_
    obtain ⟨call, hcall, hinner⟩ := List.mem_flatMap.mp hinner
    exact (invokes_of_mem_calls hinner).length_le (hfirst call hcall)

theorem generation_nil (n : Nat) : x.generation n [] = [] := by
  induction n with
  | zero => rfl
  | succ n ih => exact ih

theorem generation_append (n : Nat) (first more : List Call) :
    x.generation n (first ++ more) = x.generation n first ++ x.generation n more := by
  induction n generalizing first more with
  | zero => rfl
  | succ n ih => rw [generation, List.flatMap_append, ih, generation, generation]

theorem generation_add (m n : Nat) (first : List Call) :
    x.generation (m + n) first = x.generation n (x.generation m first) := by
  induction m generalizing first with
  | zero => rw [Nat.zero_add, generation]
  | succ m ih => rw [Nat.succ_add, generation, ih, generation]

/-- where the calls of each come to an end, so do those of all -/
theorem exists_generation_nil {first : List Call} (h : ∀ call ∈ first, ∃ n, x.generation n [call] = []) :
    ∃ n, x.generation n first = [] := by
  induction first with
  | nil => exact ⟨0, rfl⟩
  | cons call rest ih =>
    obtain ⟨⟨n, hn⟩, hrest⟩ := List.forall_mem_cons.mp h
    obtain ⟨m, hm⟩ := ih hrest
    refine ⟨n + m, ?_⟩
    rw [← List.singleton_append, generation_append, generation_add, hn, generation_nil, Nat.add_comm,
      generation_add, hm, generation_nil, List.append_nil]

theorem calls_end (x : Expander) (first : List Call) : ∃ n, x.generation n first = [] := by
  have hcall : ∀ call, ∃ n, x.generation n [call] = [] := by
    intro call
    induction call using x.wellFounded_calls.induction with
    | _ call ih =>
      obtain ⟨n, hn⟩ := exists_generation_nil ih
      refine ⟨n + 1, ?_⟩
      rw [generation, List.flatMap_cons, List.flatMap_nil, List.append_nil, hn]
  exact exists_generation_nil fun call _ => hcall call

/-- from a node to the next: a part of it inside the same organs, or any node inside one more -/
theorem Invokes.next_node {stack : List VariantKey} {node : Json} {middle inner : Call}
    (h : x.Invokes ⟨stack, .node node⟩ middle) (h' : x.Invokes middle inner) :
    ∃ node', inner.task = .node node' ∧
      (inner.stack = stack ∧ node'.size < node.size ∨ ∃ key, inner.stack = stack ++ [key]) := by
  cases h with
  | @ordinary _ fields _ =>
    cases h' with
    | child hitems hitem =>
      have hsize := (Json.size_child hitems hitem).trans (Json.sizeFields_lt_size fields)
      exact ⟨_, rfl, .inl ⟨rfl, hsize⟩⟩
  | placeholder _ =>
    cases h' with
    | loaded _ _ => exact ⟨_, rfl, .inr ⟨_, rfl⟩⟩

/-- **Expansion ends, whatever the lookup gives.**  No call has more organs on its stack than may nest,
and every call that it makes has a lower rank.  So from a node to the next the node gets smaller or the
stack longer, and what a placeholder calls for, an alias root or children, has one organ more on the
stack, however large it is.  After finitely many calls there are no more.  What they answer, put
together turn by turn, is the expansion, and a walk that keeps one stack for all of them has it as it was
when it returns from a call. -/
theorem calls_descend (x : Expander) (nodes : List Json) :
    (∀ n, ∀ call ∈ x.generation n (starts nodes), call.stack.length ≤ x.options.maxDepth ∧
        ∀ inner ∈ x.calls call, Prod.Lex (· < ·) (· < ·) (x.rank inner) (x.rank call)) ∧
      (∀ stack node, ∀ middle ∈ x.calls ⟨stack, .node node⟩, ∀ inner ∈ x.calls middle,
        ∃ node', inner.task = .node node' ∧
          (inner.stack = stack ∧ node'.size < node.size ∨ ∃ key, inner.stack = stack ++ [key])) ∧
      (∀ stack fields p view, ∀ inner ∈ x.calls ⟨stack, .placeholder fields p view⟩,
        stack.length < x.options.maxDepth ∧ inner.stack = stack ++ [x.keyOf p]) ∧
      (∃ n, x.generation n (starts nodes) = []) ∧
      (∀ call, x.run call = (x.turn call).answer x.run) ∧
      x.expand nodes = .all ((starts nodes).map x.run) ∧
      ∀ stack node ds, x.walkOne node ⟨stack, ds⟩ =
        some ((x.run ⟨stack, .node node⟩).output,
          ⟨stack, ds ++ (x.run ⟨stack, .node node⟩).diagnostics⟩) := by
  refine ⟨fun n call hcall => ⟨?_, fun inner hinner => ?_⟩, ?_, ?_, x.calls_end _, x.run_eq, ?_, ?_⟩
  · refine length_le_of_mem_generation (fun start hstart => ?_) call hcall
    obtain ⟨node, _, rfl⟩ := List.mem_map.mp hstart
    exact Nat.zero_le _
  · exact (invokes_of_mem_calls hinner).rank_lt
  · intro stack node middle hmiddle inner hinner
    exact (invokes_of_mem_calls hmiddle).next_node (invokes_of_mem_calls hinner)
  · intro stack fields p view inner hinner
    cases invokes_of_mem_calls hinner with
    | loaded _ hroom => exact ⟨hroom, rfl⟩
  · have hruns : (starts nodes).map x.run =
        nodes.map (replaceNode (x.expandOrgan x.options.maxDepth [])) := by
      rw [starts, List.map_map]
      exact List.map_congr_left fun node _ => x.run_eq_meaning ⟨[], .node node⟩
    rw [hruns, expand, replaceNodes_eq_all]
  · intro stack node ds
    have hwalk : ∀ fields, (x.walkOrgan (x.options.maxDepth + 1) fields).Yields stack
        (x.expandOrgan (x.options.maxDepth - stack.length) stack fields) := fun fields =>
      x.walkOrgan_yields _ _ stack fields rfl (Nat.lt_succ_of_le (Nat.sub_le _ _))
    rw [x.run_eq_meaning ⟨stack, .node node⟩]
    exact (walk_yields hwalk).1 node ds

/-- every organ is an alias of one with a longer name, under a root that is larger, too -/
def endlessLookup : Lookup := .ofFunction fun organId _ =>
  some (.object [("type", .string "organ"), ("organId", .string (organId ++ "-")),
    ("rows", .array (List.replicate organId.length .null))])

def endlessExpander : Expander := ⟨endlessLookup, .authored, { maxDepth := 3 }⟩

def endlessPage : List Json := [.object [("type", .string "organ"), ("organId", .string "tower")]]

/-- the nodes grow from call to call, until no level is left -/
theorem calls_descend_endless :
    ([0, 2, 4, 6].flatMap fun n => (endlessExpander.generation n (starts endlessPage)).map
        endlessExpander.rank) = [(3, 3), (2, 9), (1, 10), (0, 11)] ∧
      (endlessExpander.expand endlessPage).diagnostics = [.maxDepthExceeded 3] ∧
      ∃ n, endlessExpander.generation n (starts endlessPage) = [] :=
  ⟨by decide +kernel, by decide +kernel, (calls_descend endlessExpander endlessPage).2.2.2.1⟩

end Expander

end Graft
