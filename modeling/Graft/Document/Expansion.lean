import Graft.Document.Basic
import Graft.Expander

/-!
# Expanding a document

The top-level nodes are expanded first, then those of the regions in turn; everything else stays.

* `Expander.expandDocument`        a document;
* `Expander.expandDocumentValue`   a value that should be one: what does not fit is left as it is and
                                   reported.
-/

namespace Graft

namespace Expander

/-! ## typed documents -/

def expandRegions (x : Expander) : List Region → Expanded (List Region)
  | [] => .clean []
  | region :: rest =>
    (x.expand region.nodes).bind fun nodes =>
      (x.expandRegions rest).map fun rest => { region with nodes } :: rest

/-- what is absent stays absent -/
def optionally {α : Type} (expand : α → Expanded α) : Option α → Expanded (Option α)
  | none => .clean none
  | some value => (expand value).map some

def expandDocument (x : Expander) (doc : Document) : Expanded Document :=
  (optionally x.expand doc.nodes).bind fun nodes =>
    (optionally x.expandRegions doc.regions).map fun regions => { doc with nodes, regions }

/-! ## raw documents -/

/-- reports a part that does not fit -/
def misfit {α : Type} (part : DocumentPart) (value : α) : Expanded α :=
  ⟨value, [.malformedDocument part]⟩

/-- expands the array under `key`; any other value there is reported -/
def expandArrayField (expand : List Json → Expanded (List Json)) (key : String)
    (part : DocumentPart) (fields : Keyed Json) : Expanded (Keyed Json) :=
  match Keyed.get? fields key with
  | none => .clean fields
  | some (.array items) => (expand items).map fun items => Keyed.insert fields key (.array items)
  | some _ => misfit part fields

def expandRegionValue (x : Expander) (index : Nat) : Json → Expanded Json
  | .object fields =>
    (expandArrayField x.expand DocumentField.nodes (.regionNodes index) fields).map .object
  | other => misfit (.region index) other

/-- regions, the first of them at position `index` -/
def expandRegionValues (x : Expander) (index : Nat) : List Json → Expanded (List Json)
  | [] => .clean []
  | region :: rest =>
    (x.expandRegionValue index region).bind fun region =>
      (x.expandRegionValues (index + 1) rest).map fun rest => region :: rest

/-- the nodes come before the regions, in whatever order they are written -/
def expandDocumentValue (x : Expander) : Json → Expanded Json
  | .object fields =>
    (expandArrayField x.expand DocumentField.nodes .nodes fields).bind fun fields =>
      (expandArrayField (x.expandRegionValues 0) DocumentField.regions .regions fields).map .object
  | other => misfit .document other

end Expander

/-- a value that should be a document, without the diagnostics -/
def expandDocumentNodes (lookup : Lookup) (overrides : Option Overrides) (doc : Json) : Json :=
  ((Expander.mk lookup Resolver.authored {}).withOverrides overrides
    |>.expandDocumentValue doc).output

end Graft
