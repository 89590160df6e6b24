import Graft.Registry.Bundle
import Graft.Registry.Discovery

/-!
# Changes of a registry

The operations that change a registry, as values, so that whole histories can be spoken of.  A change
that fails may leave part of its work behind; `Registry.apply` is the registry that is left.
-/

namespace Graft

inductive Registry.Change where
  | registerVariant (organId variantId : String) (tree : Json)
  | registerOrgan (organ : Organ)
  | registerDiscovered (name : String) (tree : Json)
  | loadBundle (bundle : Json)
  | discover (directory : Directory)
  | setLabel (organId label : String)

namespace Registry

/-- the registry that a change leaves behind -/
def apply (r : Registry) : Change → Registry
  | .registerVariant organId variantId tree => r.registerVariant organId variantId tree
  | .registerOrgan organ => r.registerOrgan organ
  | .registerDiscovered name tree => (r.registerDiscovered name tree).1
  | .loadBundle bundle => (r.loadBundle bundle).1
  | .discover directory => (r.discover directory).1
  | .setLabel organId label => r.setLabel organId label

def run (r : Registry) (changes : List Change) : Registry := changes.foldl apply r

theorem run_cons (r : Registry) (change : Change) (changes : List Change) :
    r.run (change :: changes) = (r.apply change).run changes := rfl

end Registry

end Graft
