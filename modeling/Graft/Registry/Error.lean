import Graft.Text.Quoted

/-!
# Errors of a registry

Why a registration failed as a whole.  `RegistryError.message` is the wording.
-/

namespace Graft

/-- why files cannot be read -/
inductive ReadFault where
  | missing
  | notDirectory
  /-- the bytes of a file are no UTF-8 text -/
  | notText
deriving DecidableEq, Repr

def ReadFault.message : ReadFault → String
  | .missing => "No such file or directory (os error 2)"
  | .notDirectory => "Not a directory (os error 20)"
  | .notText => "stream did not contain valid UTF-8"

inductive RegistryError where
  /-- a file name that gives no safe id -/
  | invalidOrganId (name : String)
  | bundleNotObject
  | variantsNotObject (organId : String)
  | reading (fault : ReadFault)
  /-- a text that is not JSON -/
  | malformedJson
deriving DecidableEq, Repr

def RegistryError.message : RegistryError → String
  | .invalidOrganId name => "Invalid organ id: " ++ Text.quote name
  | .bundleNotObject => "Invalid variant bundle: bundle root must be an object"
  | .variantsNotObject organId =>
    "Invalid variant bundle: variants of organ '" ++ organId ++ "' must be an object"
  | .reading fault => "I/O error during discovery: " ++ fault.message
  | .malformedJson => "JSON error"

end Graft
