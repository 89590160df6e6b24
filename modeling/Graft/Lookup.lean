import Graft.Json.Basic

/-!
# Lookups

A lookup loads the tree of a variant.  It may also know which organs exist at all; one that does not
know says that none does.
-/

namespace Graft

structure Lookup where
  /-- the tree of an organ's variant -/
  load : String → String → Option Json
  /-- whether there is such an organ -/
  contains : String → Bool

namespace Lookup

def ofFunction (load : String → String → Option Json) : Lookup := ⟨load, fun _ => false⟩

/-- a tree for an organ and one of its variants, or all -/
structure Row where
  organId : String
  variantId : Option String
  tree : Json

def Row.fits (row : Row) (organId variantId : String) : Bool :=
  row.organId == organId && row.variantId.all (· == variantId)

/-- the first row that fits, ids compared as they are written -/
def ofTable (rows : List Row) : Lookup :=
  ofFunction fun organId variantId =>
    (rows.find? fun row => row.fits organId variantId).map Row.tree

theorem load_ofTable {rows : List Row} {organId variantId : String} {tree : Json}
    (h : (ofTable rows).load organId variantId = some tree) : ∃ row ∈ rows, row.tree = tree := by
  obtain ⟨row, hrow, htree⟩ := Option.map_eq_some_iff.mp h
  exact ⟨row, List.mem_of_find?_eq_some hrow, htree⟩

end Lookup

end Graft
