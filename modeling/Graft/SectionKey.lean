import Graft.Node

/-!
# Section keys

An override for one instance needs a key that stays the same.  `assignSectionKeys` gives every
top-level object that has no id the id `section-` followed by its position; an id that is there stays.
-/

namespace Graft

open Node

def sectionKeyPrefix : String := "section-"

def sectionKey (index : Nat) : String := sectionKeyPrefix ++ index.repr

/-- an absent id and a `null` are no id -/
def lacksId (fields : Keyed Json) : Bool :=
  match Keyed.get? fields idKey with
  | none | some .null => true
  | _ => false

def keyNode (index : Nat) : Json → Json
  | .object fields =>
    .object (if lacksId fields then Keyed.insert fields idKey (.string (sectionKey index)) else fields)
  | node => node

def assignSectionKeys (nodes : List Json) : List Json := nodes.mapIdx keyNode

theorem lacksId_keyed (fields : Keyed Json) (key : String) :
    lacksId (Keyed.insert fields idKey (.string key)) = false := by
  simp [lacksId, Keyed.get?_insert]

end Graft
