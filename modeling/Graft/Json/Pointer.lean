import Graft.Json.Basic

/-!
# Pointers

A pointer leads from a value to one of its parts, step by step: into an array by position, into an
object by key.  Its text has a slash before every step.

* `Pointer.render`   the text;
* `Json.at? v p`     the part of `v` that `p` leads to.
-/

namespace Graft

inductive Step where
  | item (index : Nat)
  | field (key : String)
deriving DecidableEq, Repr

abbrev Pointer := List Step

/-- in a key the tilde is written `~0` and the slash `~1` -/
def Step.escape (key : String) : String :=
  String.ofList (key.toList.flatMap fun c =>
    if c = '~' then ['~', '0'] else if c = '/' then ['~', '1'] else [c])

def Step.render : Step → String
  | .item index => index.repr
  | .field key => escape key

def Pointer.render (p : Pointer) : String := String.join (p.map fun step => "/" ++ step.render)

/-- one step into a value -/
def Json.step? : Json → Step → Option Json
  | .array items, .item index => items[index]?
  | .object fields, .field key => Keyed.get? fields key
  | _, _ => none

/-- the part that a pointer leads to -/
def Json.at? : Json → Pointer → Option Json
  | value, [] => some value
  | value, step :: rest => (value.step? step).bind fun part => part.at? rest

theorem Json.at?_cons (value : Json) (step : Step) (rest : Pointer) :
    value.at? (step :: rest) = (value.step? step).bind fun part => part.at? rest := rfl

theorem Json.at?_append (value : Json) (p q : Pointer) :
    value.at? (p ++ q) = (value.at? p).bind fun part => part.at? q := by
  induction p generalizing value with
  | nil => rfl
  | cons step p ih =>
    rw [List.cons_append, at?_cons, at?_cons]
    cases value.step? step with
    | none => rfl
    | some part => exact ih part

end Graft
