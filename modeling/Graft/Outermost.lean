import Graft.Expanded
import Graft.Node

/-!
# The outermost placeholders

`replaceNodes f nodes` puts `f` of its fields in the place of every outermost placeholder: the nodes
themselves and, through the children of other nodes, those below.  What lies below a placeholder is
for `f` to look at.  Diagnostics come in document order.

* `replaceNodes_append`, `output_replaceNodes`   siblings do not see each other;
* `replaceFields_children`     among the fields of a node only the children change;
* `replaceFields_no_children`  a node without children is kept.
-/

namespace Graft

open Node

mutual

/-- `f` of its fields in the place of every outermost placeholder -/
def replaceNode (f : Keyed Json → Expanded Json) : Json → Expanded Json
  | .object fields =>
    if isOrgan fields then f fields else (replaceFields f fields).map .object
  | node => .clean node

def replaceNodes (f : Keyed Json → Expanded Json) : List Json → Expanded (List Json)
  | [] => .clean []
  | node :: rest =>
    (replaceNode f node).bind fun node => (replaceNodes f rest).map fun rest => node :: rest

/-- what stands under the children's key: an array is gone through -/
def replaceChildren (f : Keyed Json → Expanded Json) : Json → Expanded Json
  | .array items => (replaceNodes f items).map .array
  | value => .clean value

/-- the other fields are kept -/
def replaceFields (f : Keyed Json → Expanded Json) : List (String × Json) → Expanded (Keyed Json)
  | [] => .clean []
  | (key, value) :: rest =>
    if key = childrenKey then (replaceChildren f value).map fun value => (key, value) :: rest
    else (replaceFields f rest).map fun rest => (key, value) :: rest

end

/-! ## siblings -/

section

variable (f : Keyed Json → Expanded Json)

theorem replaceNodes_nil : replaceNodes f [] = .clean [] := rfl

theorem replaceNodes_cons (node : Json) (rest : List Json) :
    replaceNodes f (node :: rest) =
      (replaceNode f node).bind fun node => (replaceNodes f rest).map fun rest => node :: rest := rfl

theorem replaceNodes_append (xs ys : List Json) :
    replaceNodes f (xs ++ ys) =
      ⟨(replaceNodes f xs).output ++ (replaceNodes f ys).output,
        (replaceNodes f xs).diagnostics ++ (replaceNodes f ys).diagnostics⟩ := by
  induction xs with
  | nil => rfl
  | cons x xs ih =>
    rw [List.cons_append, replaceNodes_cons, ih, replaceNodes_cons]
    simp only [Expanded.bind, Expanded.map, List.cons_append, List.append_assoc]

/-- every node by itself -/
theorem output_replaceNodes (nodes : List Json) :
    (replaceNodes f nodes).output = nodes.map fun node => (replaceNode f node).output := by
  induction nodes with
  | nil => rfl
  | cons node rest ih =>
    rw [replaceNodes_cons, Expanded.output_bind, Expanded.output_map, ih, List.map_cons]

/-! ## fields -/

theorem replaceFields_children (fields : Keyed Json) (value : Json)
    (h : Keyed.get? fields childrenKey = some value) :
    replaceFields f fields =
      (replaceChildren f value).map fun value => Keyed.insert fields childrenKey value := by
  induction fields with
  | nil => exact absurd h (by simp [Keyed.get?])
  | cons field rest ih =>
    obtain ⟨key, old⟩ := field
    by_cases hk : key = childrenKey
    · rw [Keyed.get?, if_pos hk] at h
      obtain rfl := Option.some.inj h
      rw [replaceFields, if_pos hk]
      simp only [Keyed.insert, Keyed.update, if_pos hk]
    · rw [Keyed.get?, if_neg hk] at h
      rw [replaceFields, if_neg hk, ih h]
      simp only [Expanded.map, Keyed.insert, Keyed.update, if_neg hk]

theorem replaceFields_no_children (fields : Keyed Json)
    (h : Keyed.get? fields childrenKey = none) : replaceFields f fields = .clean fields := by
  induction fields with
  | nil => rfl
  | cons field rest ih =>
    obtain ⟨key, value⟩ := field
    by_cases hk : key = childrenKey
    · rw [Keyed.get?, if_pos hk] at h
      exact absurd h (by simp)
    · rw [Keyed.get?, if_neg hk] at h
      rw [replaceFields, if_neg hk, ih h]
      rfl

/-- every other field is kept -/
theorem get?_replaceFields (fields : Keyed Json) (key : String) (hk : key ≠ childrenKey) :
    Keyed.get? (replaceFields f fields).output key = Keyed.get? fields key := by
  cases h : Keyed.get? fields childrenKey with
  | none => rw [replaceFields_no_children f fields h, Expanded.output_clean]
  | some value =>
    rw [replaceFields_children f fields value h, Expanded.output_map, Keyed.get?_insert,
      if_neg (Ne.symm hk)]

/-- the keys stay, in their order -/
theorem keys_replaceFields (fields : Keyed Json) :
    Keyed.keys (replaceFields f fields).output = Keyed.keys fields := by
  cases h : Keyed.get? fields childrenKey with
  | none => rw [replaceFields_no_children f fields h, Expanded.output_clean]
  | some value =>
    rw [replaceFields_children f fields value h, Expanded.output_map]
    refine Keyed.keys_update_of_mem fields childrenKey _ ?_
    rw [← Keyed.isSome_get?, h]
    rfl

theorem isOrgan_replaceFields (fields : Keyed Json) :
    isOrgan (replaceFields f fields).output = isOrgan fields := by
  unfold isOrgan
  rw [get?_replaceFields f fields typeKey (by decide)]

end

end Graft
