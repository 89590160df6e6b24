import Graft.Json.Pointer
import Graft.Overrides

/-!
# Surveys

Read-only scans of a list of nodes.  Every scan goes through the nodes in document order, each before
its children, and into the children of every object, placeholders included.

* `visits`               all nodes met, each with its pointer;
* `findUnresolved`       every placeholder that is there, well-formed or not;
* `isClosed`             whether there is none;
* `placeholders`         the well-formed ones;
* `variantsByInstance`, `organIds`, `variantsByOrgan`   what they say, where the first of several
                         with one key counts.
-/

namespace Graft

open Node

/-! ## the walk -/

structure Visit where
  place : Pointer
  node : Json
deriving DecidableEq, Repr

mutual

/-- a node at `place` and all below it -/
def visitNode (place : Pointer) : Json → List Visit
  | .object fields => ⟨place, .object fields⟩ :: visitFields place fields
  | node => [⟨place, node⟩]

/-- nodes at `above`, the first of them at position `index` -/
def visitNodes (above : Pointer) (index : Nat) : List Json → List Visit
  | [] => []
  | node :: rest => visitNode (above ++ [.item index]) node ++ visitNodes above (index + 1) rest

/-- what stands under the children's key of the node at `place` -/
def visitChildren (place : Pointer) : Json → List Visit
  | .array items => visitNodes (place ++ [.field childrenKey]) 0 items
  | _ => []

def visitFields (place : Pointer) : List (String × Json) → List Visit
  | [] => []
  | (key, value) :: rest =>
    if key = childrenKey then visitChildren place value else visitFields place rest

end

def visits (nodes : List Json) : List Visit := visitNodes [] 0 nodes

theorem visitNodes_nil (above : Pointer) (index : Nat) : visitNodes above index [] = [] := rfl

theorem visitNodes_cons (above : Pointer) (index : Nat) (node : Json) (rest : List Json) :
    visitNodes above index (node :: rest) =
      visitNode (above ++ [.item index]) node ++ visitNodes above (index + 1) rest := rfl

theorem visitNodes_append (above : Pointer) (index : Nat) (xs ys : List Json) :
    visitNodes above index (xs ++ ys) =
      visitNodes above index xs ++ visitNodes above (index + xs.length) ys := by
  induction xs generalizing index with
  | nil => rfl
  | cons x xs ih =>
    have h : index + 1 + xs.length = index + (x :: xs).length := by
      rw [List.length_cons]
      omega
    rw [List.cons_append, visitNodes_cons, visitNodes_cons, ih, h, List.append_assoc]

theorem visitFields_children (place : Pointer) (fields : Keyed Json) (value : Json)
    (h : Keyed.get? fields childrenKey = some value) :
    visitFields place fields = visitChildren place value := by
  induction fields with
  | nil => exact absurd h (by simp [Keyed.get?])
  | cons field rest ih =>
    obtain ⟨key, old⟩ := field
    by_cases hk : key = childrenKey
    · rw [Keyed.get?, if_pos hk] at h
      rw [visitFields, if_pos hk, Option.some.inj h]
    · rw [Keyed.get?, if_neg hk] at h
      rw [visitFields, if_neg hk, ih h]

theorem visitFields_no_children (place : Pointer) (fields : Keyed Json)
    (h : Keyed.get? fields childrenKey = none) : visitFields place fields = [] := by
  induction fields with
  | nil => rfl
  | cons field rest ih =>
    obtain ⟨key, value⟩ := field
    by_cases hk : key = childrenKey
    · rw [Keyed.get?, if_pos hk] at h
      exact absurd h (by simp)
    · rw [Keyed.get?, if_neg hk] at h
      rw [visitFields, if_neg hk, ih h]

/-! ## placeholders that are left -/

structure Unresolved where
  pointer : Pointer
  organId : Option String
  instanceKey : Option String
deriving DecidableEq, Repr

/-- the entry of a visit to a placeholder -/
def Visit.unresolved? (v : Visit) : Option Unresolved :=
  if v.node.isOrgan then
    let p := Placeholder.ofNode? v.node
    some ⟨v.place, p.map Placeholder.organId, p.bind Placeholder.instanceKey⟩
  else none

def findUnresolved (nodes : List Json) : List Unresolved := (visits nodes).filterMap Visit.unresolved?

/-- no node at any depth is a placeholder -/
def isClosed (nodes : List Json) : Bool := (visits nodes).all fun v => !v.node.isOrgan

theorem isClosed_iff (nodes : List Json) : isClosed nodes = true ↔ findUnresolved nodes = [] := by
  unfold isClosed findUnresolved
  induction visits nodes with
  | nil => simp
  | cons v vs ih =>
    rw [List.all_cons, Bool.and_eq_true, ih]
    cases h : v.node.isOrgan <;> simp [Visit.unresolved?, h]

/-! ## collectors -/

def placeholders (nodes : List Json) : List Placeholder :=
  (visits nodes).filterMap fun v => Placeholder.ofNode? v.node

/-- the variant that the document chooses for every instance key -/
def variantsByInstance (nodes : List Json) : Keyed String :=
  (placeholders nodes).foldl
    (fun m p =>
      match p.instanceKey with
      | some key => Keyed.insertNew m key p.variantOrDefault
      | none => m)
    []

/-- the organs that are named, each once -/
def organIds (nodes : List Json) : List String :=
  (placeholders nodes).foldl
    (fun ids p => if p.organId ∈ ids then ids else ids ++ [p.organId]) []

/-- the variant of the first placeholder of every organ -/
def variantsByOrgan (nodes : List Json) : Keyed String :=
  (placeholders nodes).foldl (fun m p => Keyed.insertNew m p.organId p.variantOrDefault) []

end Graft
