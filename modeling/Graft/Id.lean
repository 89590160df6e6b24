import Graft.Text.Blank
import Graft.Text.Lower

/-!
# Ids

Organs and variants are looked up by their normalized ids: without blanks at the ends and in lower
case.  An organ that is named by a file must have a safe id: lower-case ASCII letters, digits,
hyphens and underscores, a letter or a digit first.
-/

namespace Graft

def normalizeId (id : String) : String := String.ofList (Text.lower (Text.trim id.toList))

/-! ## safe ids -/

def isIdStart (c : Char) : Bool := c.isLower || c.isDigit

def isIdChar (c : Char) : Bool := isIdStart c || c == '-' || c == '_'

def isSafeId (id : String) : Bool :=
  match id.toList with
  | [] => false
  | c :: rest => isIdStart c && rest.all isIdChar

/-! ## keys -/

/-- an organ and a variant of it, both normalized -/
structure VariantKey where
  organ : String
  variant : String
deriving DecidableEq, Repr

namespace VariantKey

def of (organId variantId : String) : VariantKey := ⟨normalizeId organId, normalizeId variantId⟩

def render (key : VariantKey) : String := key.organ ++ ":" ++ key.variant

end VariantKey

end Graft
