import Graft.Json.Basic

/-!
# Laying one value over another

`base.merge overlay` takes two objects field by field: an old key keeps its place and merges with
what it held, a new key goes last.  Anything else in the overlay, an array or `null` included,
replaces the base.
-/

namespace Graft.Json

mutual

/-- `overlay` laid over `base` -/
def merge : (base overlay : Json) → Json
  | .object fields, .object overlay => .object (mergeFields fields overlay)
  | _, overlay => overlay
termination_by structural _ overlay => overlay

/-- the overlay's fields are laid over the base one after the other -/
def mergeFields (fields : Keyed Json) : List (String × Json) → Keyed Json
  | [] => fields
  | (key, value) :: rest =>
    mergeFields
      (Keyed.update fields key fun
        | some old => merge old value
        | none => value)
      rest
termination_by structural overlay => overlay

end

/-- `overlay` laid over what may be there -/
def mergeInto (overlay : Json) : Option Json → Json
  | some old => old.merge overlay
  | none => overlay

theorem mergeFields_cons (fields : Keyed Json) (key : String) (value : Json) (rest : Keyed Json) :
    mergeFields fields ((key, value) :: rest) =
      mergeFields (Keyed.update fields key (mergeInto value)) rest := by
  have h : mergeInto value = fun
      | some old => merge old value
      | none => value := by
    funext old
    cases old <;> rfl
  rw [h, mergeFields]

theorem merge_object (fields overlay : Keyed Json) :
    merge (.object fields) (.object overlay) = .object (mergeFields fields overlay) := rfl

/-- an overlay that is no object replaces the base -/
theorem merge_of_not_object (base overlay : Json) (h : overlay.kind ≠ .object) :
    merge base overlay = overlay := by
  cases overlay <;> cases base <;> first | rfl | exact absurd rfl h

/-- a base that is no object is replaced -/
theorem merge_over_not_object (base overlay : Json) (h : base.kind ≠ .object) :
    merge base overlay = overlay := by
  cases base <;> cases overlay <;> first | rfl | exact absurd rfl h

end Graft.Json
