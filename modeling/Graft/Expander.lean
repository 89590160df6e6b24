import Graft.Lookup
import Graft.Outermost
import Graft.Overlay
import Graft.Overrides

/-!
# Expansion

Expansion replaces every placeholder of a tree by the chosen variant of its organ.

* `Expander.expandOrgan`  one placeholder, inside the organs on a stack: it is left in place if it names
                          no organ, closes a cycle, stands too deep or has no tree; a tree whose root is
                          a placeholder again is expanded in turn;
* `Expander.expand`       a list of nodes.

Every load puts a key on the stack and takes one level off the depth that is left, so expansion ends
for every lookup.
-/

namespace Graft

/-- the deepest nesting of organs unless another is asked for -/
def maxExpansionDepth : Nat := 64

structure ExpandOptions where
  /-- how many organs may nest inside one another -/
  maxDepth : Nat := maxExpansionDepth
  /-- whether the chosen variant is recorded in `params` -/
  stampLayoutId : Bool := true
deriving DecidableEq, Repr

structure Expander where
  lookup : Lookup
  resolver : Resolver := Resolver.authored
  options : ExpandOptions := {}

/-- a placeholder with the variant chosen for it -/
structure Choice where
  placeholder : Placeholder
  variantId : String

def Choice.key (c : Choice) : VariantKey := .of c.placeholder.organId c.variantId

/-- the way from the first visit of `key` to its return -/
def cycleOf (stack : List VariantKey) (key : VariantKey) : List VariantKey :=
  stack.dropWhile (· ≠ key) ++ [key]

namespace Expander

/-- overrides, if there are any, choose the variants -/
def withOverrides (x : Expander) : Option Overrides → Expander
  | some overrides => { x with resolver := overrides.resolver }
  | none => x

/-- the choice for a placeholder inside the organs of `stack`, outermost first -/
def choice? (x : Expander) (stack : List VariantKey) (fields : Keyed Json) :
    Except Diagnostic Choice :=
  match Placeholder.ofFields? fields with
  | none => .error .malformedPlaceholder
  | some p =>
    let c : Choice := ⟨p, x.resolver p⟩
    if c.key ∈ stack then .error (.cycleDetected (cycleOf stack c.key)) else .ok c

/-- the chosen variant's tree under the placeholder's own fields -/
def root? (x : Expander) (c : Choice) : Except Diagnostic (Keyed Json) :=
  match x.lookup.load c.placeholder.organId c.variantId with
  | some (.object tree) => .ok (c.placeholder.graft tree)
  | some _ => .error (.malformedVariant c.placeholder.organId c.variantId)
  | none =>
    if x.lookup.contains c.placeholder.organId then
      .error (.unknownVariant c.placeholder.organId c.variantId)
    else .error (.unknownOrgan c.placeholder.organId)

def stamp (x : Expander) (variantId : String) (root : Keyed Json) : Keyed Json :=
  if x.options.stampLayoutId then Graft.stampLayoutId variantId root else root

/-- left in place and reported -/
def leave (fields : Keyed Json) (d : Diagnostic) : Expanded Json := ⟨.object fields, [d]⟩

/-- a placeholder inside the organs of `stack`, when organs may nest `left` levels further -/
def expandOrgan (x : Expander) (left : Nat) (stack : List VariantKey) (fields : Keyed Json) :
    Expanded Json :=
  match x.choice? stack fields with
  | .error d => leave fields d
  | .ok c =>
    match left with
    | 0 => leave fields (.maxDepthExceeded x.options.maxDepth)
    | left + 1 =>
      match x.root? c with
      | .error d => leave fields d
      | .ok root =>
        if isOrgan root then x.expandOrgan left (stack ++ [c.key]) root
        else
          (replaceFields (fun fields => x.expandOrgan left (stack ++ [c.key]) fields)
            (x.stamp c.variantId root)).map .object
termination_by structural left

/-- a list of sibling nodes -/
def expand (x : Expander) (nodes : List Json) : Expanded (List Json) :=
  replaceNodes (x.expandOrgan x.options.maxDepth []) nodes

/-- a value that must be a list of nodes -/
def expandArray (x : Expander) : Json → Except NotAnArray (Expanded (List Json))
  | .array nodes => .ok (x.expand nodes)
  | other => .error ⟨other.kind⟩

theorem expand_append (x : Expander) (xs ys : List Json) :
    x.expand (xs ++ ys) =
      ⟨(x.expand xs).output ++ (x.expand ys).output,
        (x.expand xs).diagnostics ++ (x.expand ys).diagnostics⟩ :=
  replaceNodes_append _ xs ys

end Expander

/-- sibling nodes, without the diagnostics -/
def expandNodes (lookup : Lookup) (overrides : Option Overrides) (nodes : List Json) : List Json :=
  ((Expander.mk lookup Resolver.authored {}).withOverrides overrides |>.expand nodes).output

end Graft
