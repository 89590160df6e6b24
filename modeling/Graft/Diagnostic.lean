import Graft.Id
import Graft.Json.Basic

/-!
# Diagnostics

Why a placeholder was left in place, or a part of a document was not expanded.  Diagnostics come with
an output; they never replace it.  `Diagnostic.message` is the wording.
-/

namespace Graft

/-- a place of a document where an object or a list of nodes belongs -/
inductive DocumentPart where
  | document
  | nodes
  | regions
  | region (index : Nat)
  | regionNodes (index : Nat)
deriving DecidableEq, Repr

def DocumentPart.path : DocumentPart → String
  | .document => "document"
  | .nodes => "nodes"
  | .regions => "regions"
  | .region index => "regions[" ++ index.repr ++ "]"
  | .regionNodes index => "regions[" ++ index.repr ++ "].nodes"

inductive Diagnostic where
  | unknownOrgan (organId : String)
  /-- the organ is known, but neither this variant nor a default -/
  | unknownVariant (organId variantId : String)
  /-- the variant is not an object -/
  | malformedVariant (organId variantId : String)
  /-- the placeholder has no string `organId` -/
  | malformedPlaceholder
  | malformedDocument (part : DocumentPart)
  /-- the keys from the one that comes again to its return -/
  | cycleDetected (cycle : List VariantKey)
  | maxDepthExceeded (depth : Nat)
deriving DecidableEq, Repr

namespace Diagnostic

def message : Diagnostic → String
  | .unknownOrgan organId => "Unknown organ: " ++ organId
  | .unknownVariant organId variantId =>
    "Unknown variant '" ++ variantId ++ "' for organ " ++ organId ++ " (no default either)"
  | .malformedVariant organId variantId =>
    "Variant '" ++ variantId ++ "' of organ " ++ organId ++ " is not an object"
  | .malformedPlaceholder => "Organ placeholder has no string organId"
  | .malformedDocument part => "Document field '" ++ part.path ++ "' is not an array"
  | .cycleDetected cycle =>
    "Circular organ reference: " ++ " -> ".intercalate (cycle.map VariantKey.render)
  | .maxDepthExceeded depth => "Maximum organ nesting depth (" ++ depth.repr ++ ") exceeded"

end Diagnostic

/-- nodes were expected and something else was found -/
structure NotAnArray where
  found : Json.Kind
deriving DecidableEq, Repr

def NotAnArray.message (e : NotAnArray) : String :=
  "Expected an array of nodes, found " ++ e.found.name

end Graft
