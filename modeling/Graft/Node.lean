import Graft.Json.Basic

/-!
# Nodes and placeholders

A node is a value; the fields of an object node that mean something have fixed keys.  An object whose
`type` is `"organ"` is a placeholder, to be replaced by a variant of the organ that it names.  It
should name it by a string `organId`; `Placeholder.ofNode?` is its view then.

* `isOrgan`                 whether the fields are those of a placeholder;
* `Json.isOrgan`, `Json.id?`, `Json.children?`   the same of a node, its id, its children;
* `Placeholder`             organ, authored variant and instance key of a well-formed placeholder.
-/

namespace Graft

/-! ## keys -/

namespace Node

abbrev typeKey : String := "type"
abbrev idKey : String := "id"
abbrev organIdKey : String := "organId"
abbrev variantKey : String := "variant"
abbrev childrenKey : String := "children"
abbrev paramsKey : String := "params"

/-- in `params`, the variant that a subtree came from -/
abbrev layoutIdKey : String := "internalLayoutId"

/-- the `type` of a placeholder -/
abbrev organType : String := "organ"

/-- the variant when nothing else chooses one -/
abbrev defaultVariant : String := "default"

/-- the fields of a placeholder that are laid over the variant, in this order -/
abbrev overrideKeys : List String := ["layout", "params", "content"]

end Node

open Node

/-! ## nodes -/

/-- the fields of a placeholder, well-formed or not -/
def isOrgan (fields : Keyed Json) : Bool :=
  Keyed.get? fields typeKey = some (.string organType)

namespace Json

def isOrgan : Json → Bool
  | .object fields => Graft.isOrgan fields
  | _ => false

/-- the id, if it is a string -/
def id? (node : Json) : Option String := (node.field? idKey).bind string?

def children? (node : Json) : Option (List Json) := (node.field? childrenKey).bind array?

theorem isOrgan_object (fields : Keyed Json) : isOrgan (.object fields) = Graft.isOrgan fields := rfl

end Json

/-! ## placeholders -/

/-- a placeholder that names its organ -/
structure Placeholder where
  organId : String
  /-- the authored variant -/
  variant : Option String
  /-- what an override may address this placeholder by -/
  instanceKey : Option String
  /-- all fields of the node -/
  fields : Keyed Json
deriving DecidableEq, Repr

namespace Placeholder

/-- the string under `key` -/
def text? (fields : Keyed Json) (key : String) : Option String :=
  (Keyed.get? fields key).bind Json.string?

def ofFields? (fields : Keyed Json) : Option Placeholder :=
  if isOrgan fields then
    (text? fields organIdKey).map fun organId =>
      ⟨organId, text? fields variantKey, text? fields idKey, fields⟩
  else none

def ofNode? : Json → Option Placeholder
  | .object fields => ofFields? fields
  | _ => none

def variantOrDefault (p : Placeholder) : String := p.variant.getD defaultVariant

def field? (p : Placeholder) (key : String) : Option Json := Keyed.get? p.fields key

theorem ofFields?_eq_some_iff {fields : Keyed Json} {p : Placeholder} :
    ofFields? fields = some p ↔
      isOrgan fields = true ∧ text? fields organIdKey = some p.organId ∧
        text? fields variantKey = p.variant ∧ text? fields idKey = p.instanceKey ∧
        fields = p.fields := by
  unfold ofFields?
  split
  · obtain ⟨organId, variant, instanceKey, own⟩ := p
    cases text? fields organIdKey <;> simp [*]
  · simp [*]

theorem fields_of_ofFields? {fields : Keyed Json} {p : Placeholder} (h : ofFields? fields = some p) :
    p.fields = fields := by
  unfold ofFields? at h
  split at h
  · obtain ⟨organId, _, rfl⟩ := Option.map_eq_some_iff.mp h
    rfl
  · exact absurd h (by simp)

theorem isOrgan_of_ofFields? {fields : Keyed Json} {p : Placeholder}
    (h : ofFields? fields = some p) : isOrgan fields = true := by
  unfold ofFields? at h
  split at h
  · assumption
  · exact absurd h (by simp)

end Placeholder

end Graft
