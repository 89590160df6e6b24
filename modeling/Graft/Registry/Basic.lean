import Graft.Id
import Graft.Lookup
import Graft.Node

/-!
# The registry of organs

A registry holds two sets of organs and a table of labels, all under normalized ids and in the order
of first registration: static organs, each with any number of variants, and discovered organs, each
with a single tree.

* `registerVariant`, `registerOrgan`, `setLabel`   put entries, the last one under a key wins;
* `lookup`       the variant asked for, else the organ's default, else its discovered tree;
* `contains`, `organIds`, `variantIds`, `label`, `size`, `isEmpty`   what is there;
* `toLookup`     the registry as a source of trees for expansion.
-/

namespace Graft

open Node

structure Registry where
  organs : Keyed (Keyed Json) := []
  discovered : Keyed Json := []
  labels : Keyed String := []
deriving DecidableEq, Repr

/-- an organ to be registered -/
structure Organ where
  id : String
  label : Option String
  variants : List (String × Json)

namespace Registry

def empty : Registry := {}

/-! ## registration -/

def setLabel (r : Registry) (organId label : String) : Registry :=
  { r with labels := Keyed.insert r.labels (normalizeId organId) label }

/-- puts trees under the normalized ids of their variants, one after the other -/
def putVariants (variants : Keyed Json) (trees : List (String × Json)) : Keyed Json :=
  trees.foldl (fun m entry => Keyed.insert m (normalizeId entry.1) entry.2) variants

/-- the organ is there afterwards, whether or not there are trees -/
def putOrgan (r : Registry) (organId : String) (trees : List (String × Json)) : Registry :=
  { r with
    organs := Keyed.update r.organs (normalizeId organId) fun old =>
      putVariants (old.getD []) trees }

def registerVariant (r : Registry) (organId variantId : String) (tree : Json) : Registry :=
  r.putOrgan organId [(variantId, tree)]

def registerOrgan (r : Registry) (organ : Organ) : Registry :=
  let labelled :=
    match organ.label with
    | some label => r.setLabel organ.id label
    | none => r
  labelled.putOrgan organ.id organ.variants

/-- labels of the organs that most pages have -/
def defaultLabels : List (String × String) :=
  [("header", "Header"), ("hero", "Hero"), ("features", "Features"),
    ("testimonials", "Testimonials"), ("pricing", "Pricing"), ("faq", "FAQ"),
    ("cta", "Call to Action"), ("gallery", "Gallery"), ("team", "Team"), ("stats", "Stats"),
    ("logos", "Logo Cloud"), ("newsletter", "Newsletter"), ("contact", "Contact"),
    ("footer", "Footer")]

/-- no organs, the default labels -/
def withDefaultLabels : Registry :=
  defaultLabels.foldl (fun r entry => r.setLabel entry.1 entry.2) empty

/-! ## queries -/

/-- the tree of a static organ: the variant asked for, else the default -/
def staticTree? (r : Registry) (key : VariantKey) : Option Json :=
  (Keyed.get? r.organs key.organ).bind fun variants =>
    (Keyed.get? variants key.variant).or (Keyed.get? variants defaultVariant)

/-- only a safe id can have been discovered -/
def discoveredTree? (r : Registry) (organId : String) : Option Json :=
  if isSafeId organId then Keyed.get? r.discovered organId else none

def lookup (r : Registry) (organId variantId : String) : Option Json :=
  let key := VariantKey.of organId variantId
  (r.staticTree? key).or (r.discoveredTree? key.organ)

def contains (r : Registry) (organId : String) : Bool :=
  let id := normalizeId organId
  Keyed.contains r.organs id || Keyed.contains r.discovered id

/-- the static organs, then those only discovered -/
def organIds (r : Registry) : List String :=
  Keyed.keys r.organs ++ (Keyed.keys r.discovered).filter fun id => !Keyed.contains r.organs id

/-- a discovered organ has the default variant alone -/
def variantIds (r : Registry) (organId : String) : List String :=
  let id := normalizeId organId
  match Keyed.get? r.organs id with
  | some variants => Keyed.keys variants
  | none => if Keyed.contains r.discovered id then [defaultVariant] else []

/-- an organ without a label is shown by its id as given -/
def label (r : Registry) (organId : String) : String :=
  (Keyed.get? r.labels (normalizeId organId)).getD organId

def size (r : Registry) : Nat := r.organIds.length

def isEmpty (r : Registry) : Bool := r.organs.isEmpty && r.discovered.isEmpty

def toLookup (r : Registry) : Lookup := ⟨r.lookup, r.contains⟩

/-! ## small laws -/

theorem discovered_putOrgan (r : Registry) (organId : String) (trees : List (String × Json)) :
    (r.putOrgan organId trees).discovered = r.discovered := rfl

theorem labels_putOrgan (r : Registry) (organId : String) (trees : List (String × Json)) :
    (r.putOrgan organId trees).labels = r.labels := rfl

theorem isEmpty_iff (r : Registry) : r.isEmpty = true ↔ r.organs = [] ∧ r.discovered = [] := by
  simp [isEmpty, List.isEmpty_iff]

end Registry

end Graft
