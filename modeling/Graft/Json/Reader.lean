import Graft.Json.Token

/-!
# Reading a value

The tokens of a text drive a stack of open arrays and objects.

* `Expect`            what may come next;
* `Reading.step`      one token;
* `Json.ofText? limit text`   the value that a text spells, if nesting stays within `limit`.

A key that comes twice in an object keeps its first place and its last value.
-/

namespace Graft

/-- an open container that waits for the value of an item or of a field -/
inductive Frame where
  /-- the items so far, the last one first -/
  | array (items : List Json)
  | object (fields : Keyed Json) (key : String)

inductive Expect where
  | value
  /-- an item of a new array, or its end -/
  | firstItem
  /-- a comma or the end of the array with these items, the last one first -/
  | afterItem (items : List Json)
  /-- a key of a new object, or its end -/
  | firstKey
  | key (fields : Keyed Json)
  | colon (fields : Keyed Json) (key : String)
  /-- a comma or the end of the object with these fields -/
  | afterField (fields : Keyed Json)
  | nothing (value : Json)

abbrev Reading := Expect × List Frame

namespace Reading

def start : Reading := (.value, [])

/-- a finished value goes to the container that waits for it -/
def give (value : Json) : List Frame → Reading
  | [] => (.nothing value, [])
  | .array items :: frames => (.afterItem (value :: items), frames)
  | .object fields key :: frames => (.afterField (Keyed.insert fields key value), frames)

/-- the first token of a value -/
def value? (limit : Nat) (frames : List Frame) : Token → Option Reading
  | .scalar value => some (give value frames)
  | .openArray => if frames.length < limit then some (.firstItem, frames) else none
  | .openObject => if frames.length < limit then some (.firstKey, frames) else none
  | _ => none

/-- one token -/
def step (limit : Nat) : Reading → Token → Option Reading
  | (.value, frames), token => value? limit frames token
  | (.firstItem, frames), .closeArray => some (give (.array []) frames)
  | (.firstItem, frames), token => value? limit (.array [] :: frames) token
  | (.afterItem items, frames), .comma => some (.value, .array items :: frames)
  | (.afterItem items, frames), .closeArray => some (give (.array items.reverse) frames)
  | (.firstKey, frames), .closeObject => some (give (.object []) frames)
  | (.firstKey, frames), .scalar (.string key) => some (.colon [] key, frames)
  | (.key fields, frames), .scalar (.string key) => some (.colon fields key, frames)
  | (.colon fields key, frames), .colon => some (.value, .object fields key :: frames)
  | (.afterField fields, frames), .comma => some (.key fields, frames)
  | (.afterField fields, frames), .closeObject => some (give (.object fields) frames)
  | _, _ => none

def finish : Reading → Option Json
  | (.nothing value, _) => some value
  | _ => none

end Reading

namespace Json

/-- the deepest nesting that is read from a file or a bundle -/
def depthLimit : Nat := 127

/-- the value that a text spells, with at most `limit` arrays and objects inside one another -/
def ofText? (limit : Nat) (text : String) : Option Json :=
  (Token.ofText? text).bind fun tokens =>
    (tokens.foldlM (Reading.step limit) Reading.start).bind Reading.finish

end Json

end Graft
