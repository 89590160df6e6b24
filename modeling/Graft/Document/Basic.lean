import Graft.Node
import Graft.Text.Quoted

/-!
# Documents

A document has nodes of its own and regions with nodes of theirs, and may carry anything besides.

* `Document.ofJson`, `Region.ofJson`   read a value, field by field in the order in which they are
                                       written; the first field that does not fit is the error;
* `Document.toJson`, `Region.toJson`   write one: `meta`, `nodes`, `regions` and then the rest, in a
                                       region `id`, `role`, `nodes` and then the rest;
* `Document.same`                      equality up to the order of fields.

At the top a `null` counts as absent and what is absent is not written.  A region must have an id and
a role, is missed for them only when all its fields have been read, and always shows its nodes.
-/

namespace Graft

namespace DocumentField

abbrev metadata : String := "meta"
abbrev nodes : String := "nodes"
abbrev regions : String := "regions"
abbrev id : String := "id"
abbrev role : String := "role"

end DocumentField

structure Region where
  id : String
  role : String
  nodes : List Json
  /-- fields of any other name -/
  extra : Keyed Json
deriving DecidableEq, Repr

structure Document where
  metadata : Option Json
  nodes : Option (List Json)
  regions : Option (List Region)
  /-- fields of any other name -/
  extra : Keyed Json
deriving DecidableEq, Repr

/-! ## errors -/

/-- what a place of a document asks for -/
inductive DocumentShape where
  | document | region | sequence | string
deriving DecidableEq, Repr

def DocumentShape.name : DocumentShape → String
  | .document => "struct Document"
  | .region => "struct Region"
  | .sequence => "a sequence"
  | .string => "a string"

inductive DocumentError where
  | missingField (name : String)
  | invalidType (found : Json) (expected : DocumentShape)
deriving DecidableEq, Repr

/-- a value as an error names it -/
def Json.describe : Json → String
  | .null => "null"
  | .bool true => "boolean `true`"
  | .bool false => "boolean `false`"
  | .number (.int n) => "integer `" ++ (Number.int n).render ++ "`"
  | .number (.double d) => "floating point `" ++ (Number.double d).render ++ "`"
  | .string s => "string " ++ Text.quote s
  | .array _ => "sequence"
  | .object _ => "map"

def DocumentError.message : DocumentError → String
  | .missingField name => "missing field `" ++ name ++ "`"
  | .invalidType found expected =>
    "invalid type: " ++ found.describe ++ ", expected " ++ expected.name

/-! ## reading -/

def readString : Json → Except DocumentError String
  | .string s => .ok s
  | other => .error (.invalidType other .string)

def readSequence : Json → Except DocumentError (List Json)
  | .array items => .ok items
  | other => .error (.invalidType other .sequence)

/-- a `null` counts as absent -/
def readOptional {α : Type} (read : Json → Except DocumentError α) :
    Json → Except DocumentError (Option α)
  | .null => .ok none
  | value => (read value).map some

namespace Region

/-- a region as far as its fields have been read -/
structure Draft where
  id : Option String := none
  role : Option String := none
  nodes : List Json := []
  extra : Keyed Json := []

def Draft.read (draft : Draft) (key : String) (value : Json) : Except DocumentError Draft :=
  if key = DocumentField.id then
    (readString value).map fun id => { draft with id := some id }
  else if key = DocumentField.role then
    (readString value).map fun role => { draft with role := some role }
  else if key = DocumentField.nodes then
    (readSequence value).map fun nodes => { draft with nodes }
  else .ok { draft with extra := draft.extra ++ [(key, value)] }

/-- takes the fields in as they are written -/
def Draft.readAll : Draft → Keyed Json → Except DocumentError Draft
  | draft, [] => .ok draft
  | draft, (key, value) :: rest => (draft.read key value).bind fun draft => draft.readAll rest

def Draft.finish (draft : Draft) : Except DocumentError Region :=
  match draft.id, draft.role with
  | none, _ => .error (.missingField DocumentField.id)
  | some _, none => .error (.missingField DocumentField.role)
  | some id, some role => .ok ⟨id, role, draft.nodes, draft.extra⟩

def ofJson : Json → Except DocumentError Region
  | .object fields => (Draft.readAll {} fields).bind Draft.finish
  | other => .error (.invalidType other .region)

end Region

namespace Document

def empty : Document := ⟨none, none, none, []⟩

/-- a document of top-level nodes only -/
def ofNodes (nodes : List Json) : Document := { empty with nodes := some nodes }

def readRegions (value : Json) : Except DocumentError (List Region) :=
  (readSequence value).bind fun items => items.mapM Region.ofJson

/-- takes one field in -/
def read (doc : Document) (key : String) (value : Json) : Except DocumentError Document :=
  if key = DocumentField.metadata then
    .ok { doc with metadata := if value = .null then none else some value }
  else if key = DocumentField.nodes then
    (readOptional readSequence value).map fun nodes => { doc with nodes }
  else if key = DocumentField.regions then
    (readOptional readRegions value).map fun regions => { doc with regions }
  else .ok { doc with extra := doc.extra ++ [(key, value)] }

/-- takes the fields in as they are written -/
def readAll : Document → Keyed Json → Except DocumentError Document
  | doc, [] => .ok doc
  | doc, (key, value) :: rest => (doc.read key value).bind fun doc => doc.readAll rest

def ofJson : Json → Except DocumentError Document
  | .object fields => empty.readAll fields
  | other => .error (.invalidType other .document)

end Document

/-! ## writing -/

def Region.toJson (r : Region) : Json :=
  .object ([(DocumentField.id, .string r.id), (DocumentField.role, .string r.role),
    (DocumentField.nodes, .array r.nodes)] ++ r.extra)

/-- a field that is not written when it is absent -/
def optionalField (key : String) (value : Option Json) : Keyed Json :=
  match value with
  | some value => [(key, value)]
  | none => []

def Document.toJson (doc : Document) : Json :=
  .object (optionalField DocumentField.metadata doc.metadata ++
    optionalField DocumentField.nodes (doc.nodes.map .array) ++
    optionalField DocumentField.regions (doc.regions.map fun rs => .array (rs.map Region.toJson)) ++
    doc.extra)

/-! ## sameness -/

/-- the same parts, where the fields of objects may stand in another order -/
def Region.same (a b : Region) : Bool :=
  a.id == b.id && a.role == b.role && Json.sameItems a.nodes b.nodes &&
    Json.same (.object a.extra) (.object b.extra)

def Document.same (a b : Document) : Bool :=
  (match a.metadata, b.metadata with
    | none, none => true
    | some x, some y => x.same y
    | _, _ => false) &&
  (match a.nodes, b.nodes with
    | none, none => true
    | some xs, some ys => Json.sameItems xs ys
    | _, _ => false) &&
  (match a.regions, b.regions with
    | none, none => true
    | some rs, some ss => rs.length == ss.length && (rs.zip ss).all fun (r, s) => r.same s
    | _, _ => false) &&
  Json.same (.object a.extra) (.object b.extra)

end Graft
