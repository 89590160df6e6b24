import Graft.Json.Reader
import Graft.Registry.Basic
import Graft.Registry.Error

/-!
# Discovery

A file names an organ by its own name: without a final `.json`, normalized, and only if that is a
safe id.  `discover` takes the `.json` files of a directory in the order of their names, passes over
those without a safe id unread, and registers the others up to the first that cannot be read.  What it
has registered by then stays.
-/

namespace Graft

/-- what stands under a name in a directory -/
inductive DirectoryEntry where
  | folder
  | file (bytes : ByteArray)

/-- what a path leads to -/
inductive Directory where
  | missing
  | notDirectory
  | listing (entries : List (String × DirectoryEntry))

namespace Registry

/-! ## names -/

def jsonSuffix : List Char := ['.', 'j', 's', 'o', 'n']

/-- one final `.json` is dropped -/
def stem (name : String) : String :=
  if jsonSuffix.isSuffixOf name.toList then
    String.ofList (name.toList.take (name.length - jsonSuffix.length))
  else name

/-- the id that a file name stands for, safe or not -/
def discoveredId (name : String) : String := normalizeId (stem name)

/-- a file that discovery looks at: some name before the final `.json` -/
def isJsonName (name : String) : Bool :=
  jsonSuffix.isSuffixOf name.toList && name.toList ≠ jsonSuffix

/-! ## files -/

def putDiscovered (r : Registry) (organId : String) (tree : Json) : Registry :=
  { r with discovered := Keyed.insert r.discovered organId tree }

/-- the tree under a file's name, and the id it got -/
def registerDiscovered (r : Registry) (name : String) (tree : Json) :
    Registry × Except RegistryError String :=
  let organId := discoveredId name
  if isSafeId organId then (r.putDiscovered organId tree, .ok organId)
  else (r, .error (.invalidOrganId name))

/-- the tree that a file holds -/
def readTree (bytes : ByteArray) : Except RegistryError Json :=
  match String.fromUTF8? bytes with
  | none => .error (.reading .notText)
  | some text =>
    match Json.ofText? Json.depthLimit text with
    | some tree => .ok tree
    | none => .error .malformedJson

/-- the `.json` files among the entries, by name -/
def jsonFiles (entries : List (String × DirectoryEntry)) : List (String × ByteArray) :=
  let files := entries.filterMap fun (name, entry) =>
    match entry with
    | .file bytes => if isJsonName name then some (name, bytes) else none
    | .folder => none
  files.mergeSort fun a b => a.1 ≤ b.1

/-- registers files one after the other; `count` of them came before -/
def registerFiles : Registry → Nat → List (String × ByteArray) → Registry × Except RegistryError Nat
  | r, count, [] => (r, .ok count)
  | r, count, (name, bytes) :: rest =>
    if isSafeId (discoveredId name) then
      match readTree bytes with
      | .ok tree => registerFiles (r.putDiscovered (discoveredId name) tree) (count + 1) rest
      | .error e => (r, .error e)
    else registerFiles r count rest

/-- the number of files registered -/
def discover (r : Registry) : Directory → Registry × Except RegistryError Nat
  | .missing => (r, .error (.reading .missing))
  | .notDirectory => (r, .error (.reading .notDirectory))
  | .listing entries => r.registerFiles 0 (jsonFiles entries)

end Registry

end Graft
