import Graft.Node

/-!
# Choosing a variant

A resolver chooses the variant of a placeholder.  `Resolver.authored` takes what the document says;
a table of overrides chooses by instance key first, then by organ, and falls back to the document.

* `Overrides.choose`   points a key at a variant, in a new table;
* `Overrides.clear`    forgets a key, in a new table;
* `Overrides.same`     equal tables, in whatever order they were filled;
* `resolveVariant`     the variant under a table, if there is one.
-/

namespace Graft

abbrev Resolver := Placeholder → String

def Resolver.authored : Resolver := Placeholder.variantOrDefault

def Resolver.constant (variantId : String) : Resolver := fun _ => variantId

/-- variants by instance key or organ id -/
structure Overrides where
  entries : Keyed String
deriving DecidableEq, Repr

namespace Overrides

def empty : Overrides := ⟨[]⟩

/-- a repeated key keeps its first place and its last variant -/
def ofList (entries : List (String × String)) : Overrides := ⟨Keyed.ofList entries⟩

def choose (o : Overrides) (key variantId : String) : Overrides :=
  ⟨Keyed.insert o.entries key variantId⟩

def clear (o : Overrides) (key : String) : Overrides := ⟨Keyed.erase o.entries key⟩

def get? (o : Overrides) (key : String) : Option String := Keyed.get? o.entries key

def size (o : Overrides) : Nat := o.entries.length

def isEmpty (o : Overrides) : Bool := o.entries.isEmpty

def same (o p : Overrides) : Bool := Keyed.sameEntries o.entries p.entries

theorem get?_choose (o : Overrides) (key k variantId : String) :
    (o.choose key variantId).get? k = if key = k then some variantId else o.get? k :=
  Keyed.get?_insert o.entries key k variantId

theorem get?_clear (o : Overrides) (key k : String) :
    (o.clear key).get? k = if key = k then none else o.get? k :=
  Keyed.get?_erase o.entries key k

/-- the override of a placeholder: by its instance key, else by its organ -/
def variant? (o : Overrides) (p : Placeholder) : Option String :=
  (p.instanceKey.bind o.get?).or (o.get? p.organId)

end Overrides

/-- the override, else the authored variant, else the default -/
def resolveVariant (overrides : Option Overrides) (p : Placeholder) : String :=
  ((overrides.bind fun o => o.variant? p)).getD p.variantOrDefault

def Overrides.resolver (o : Overrides) : Resolver := resolveVariant (some o)

end Graft
