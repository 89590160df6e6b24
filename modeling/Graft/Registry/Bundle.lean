import Graft.Json.Reader
import Graft.Registry.Basic
import Graft.Registry.Error

/-!
# Bundles

A bundle is an object of organs, each an object of variant trees.  `loadBundle` registers them in the
order in which they are written and stops at the first organ that is no object; what it has
registered by then stays.  An organ without variants registers nothing.
-/

namespace Graft.Registry

/-- the variants of one organ, one registration after the other -/
def registerVariants (r : Registry) (organId : String) (variants : Keyed Json) : Registry :=
  variants.foldl (fun r entry => r.registerVariant organId entry.1 entry.2) r

/-- the organs of a bundle; the registry that is left comes with the outcome -/
def loadOrgans : Registry → List (String × Json) → Registry × Except RegistryError Unit
  | r, [] => (r, .ok ())
  | r, (organId, .object variants) :: rest => loadOrgans (r.registerVariants organId variants) rest
  | r, (organId, _) :: _ => (r, .error (.variantsNotObject organId))

def loadBundle (r : Registry) : Json → Registry × Except RegistryError Unit
  | .object organs => r.loadOrgans organs
  | _ => (r, .error .bundleNotObject)

/-- a registry of a bundle's organs, with the default labels -/
def ofBundle (bundle : Json) : Except RegistryError Registry :=
  let (r, outcome) := withDefaultLabels.loadBundle bundle
  outcome.map fun _ => r

/-- the same from the text of a bundle -/
def ofBundleText (text : String) : Except RegistryError Registry :=
  match Json.ofText? Json.depthLimit text with
  | some bundle => ofBundle bundle
  | none => .error .malformedJson

end Graft.Registry
