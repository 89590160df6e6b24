import Graft.Json.Number
import Graft.Keyed

/-!
# JSON values

An object keeps its fields in the order in which they were written.

* `Json.field?`        a field of an object by its key;
* `Json.Kind`          the six kinds, by name;
* `Json.same`          equality up to the order of the fields of objects;
* `Json.WellFormed`    no object has a key twice;
* `Json.rec_all`       induction over values, items and fields together.
-/

namespace Graft

inductive Json where
  | null
  | bool (value : Bool)
  | number (value : Number)
  | string (value : String)
  | array (items : List Json)
  | object (fields : List (String × Json))
deriving Repr, Inhabited

namespace Json

/-! ## induction -/

section

variable {value : Json → Prop} {items : List Json → Prop} {fields : Keyed Json → Prop}

/-- what holds of the leaves and passes from items and fields to arrays and objects holds of every
value, every list of items and every list of fields -/
theorem rec_all (null : value .null) (bool : ∀ b, value (.bool b)) (number : ∀ n, value (.number n))
    (string : ∀ s, value (.string s)) (array : ∀ xs, items xs → value (.array xs))
    (object : ∀ fs, fields fs → value (.object fs)) (items_nil : items [])
    (items_cons : ∀ x xs, value x → items xs → items (x :: xs)) (fields_nil : fields [])
    (fields_cons : ∀ k x fs, value x → fields fs → fields ((k, x) :: fs)) :
    (∀ j, value j) ∧ (∀ xs, items xs) ∧ ∀ fs, fields fs := by
  have v : ∀ j, value j := fun j =>
    @Json.rec value items fields (fun entry => value entry.2) null bool number string array object
      items_nil items_cons fields_nil (fun entry fs h => fields_cons entry.1 entry.2 fs h)
      (fun _ _ h => h) j
  refine ⟨v, fun xs => ?_, fun fs => ?_⟩
  · induction xs with
    | nil => exact items_nil
    | cons x xs ih => exact items_cons x xs (v x) ih
  · induction fs with
    | nil => exact fields_nil
    | cons entry fs ih => exact fields_cons entry.1 entry.2 fs (v entry.2) ih

end

/-! ## equality -/

mutual

def decEq : (a b : Json) → Decidable (a = b)
  | .null, .null => isTrue rfl
  | .bool a, .bool b => if h : a = b then isTrue (h ▸ rfl) else isFalse (by simp [h])
  | .number a, .number b => if h : a = b then isTrue (h ▸ rfl) else isFalse (by simp [h])
  | .string a, .string b => if h : a = b then isTrue (h ▸ rfl) else isFalse (by simp [h])
  | .array xs, .array ys =>
    match decEqItems xs ys with
    | isTrue h => isTrue (h ▸ rfl)
    | isFalse h => isFalse (by simp [h])
  | .object fs, .object gs =>
    match decEqFields fs gs with
    | isTrue h => isTrue (h ▸ rfl)
    | isFalse h => isFalse (by simp [h])
  | .null, .bool _ | .null, .number _ | .null, .string _ | .null, .array _ | .null, .object _
  | .bool _, .null | .bool _, .number _ | .bool _, .string _ | .bool _, .array _ | .bool _, .object _
  | .number _, .null | .number _, .bool _ | .number _, .string _ | .number _, .array _
  | .number _, .object _
  | .string _, .null | .string _, .bool _ | .string _, .number _ | .string _, .array _
  | .string _, .object _
  | .array _, .null | .array _, .bool _ | .array _, .number _ | .array _, .string _
  | .array _, .object _
  | .object _, .null | .object _, .bool _ | .object _, .number _ | .object _, .string _
  | .object _, .array _ => isFalse (by simp)

def decEqItems : (xs ys : List Json) → Decidable (xs = ys)
  | [], [] => isTrue rfl
  | [], _ :: _ => isFalse (by simp)
  | _ :: _, [] => isFalse (by simp)
  | x :: xs, y :: ys =>
    match decEq x y, decEqItems xs ys with
    | isTrue h, isTrue hs => isTrue (by rw [h, hs])
    | isFalse h, _ => isFalse (by simp [h])
    | _, isFalse hs => isFalse (by simp [hs])

def decEqFields : (fs gs : List (String × Json)) → Decidable (fs = gs)
  | [], [] => isTrue rfl
  | [], _ :: _ => isFalse (by simp)
  | _ :: _, [] => isFalse (by simp)
  | (k, x) :: fs, (l, y) :: gs =>
    if hk : k = l then
      match decEq x y, decEqFields fs gs with
      | isTrue h, isTrue hs => isTrue (by rw [hk, h, hs])
      | isFalse h, _ => isFalse (by simp [h])
      | _, isFalse hs => isFalse (by simp [hs])
    else isFalse (by simp [hk])

end

instance : DecidableEq Json := decEq

/-! ## parts -/

def string? : Json → Option String
  | .string s => some s
  | _ => none

def array? : Json → Option (List Json)
  | .array xs => some xs
  | _ => none

/-- the value under `key`, if this is an object that has it -/
def field? : Json → String → Option Json
  | .object fields, key => Keyed.get? fields key
  | _, _ => none

/-! ## kinds -/

inductive Kind where
  | null | boolean | number | string | array | object
deriving DecidableEq, Repr

def Kind.name : Kind → String
  | .null => "null"
  | .boolean => "boolean"
  | .number => "number"
  | .string => "string"
  | .array => "array"
  | .object => "object"

def kind : Json → Kind
  | .null => .null
  | .bool _ => .boolean
  | .number _ => .number
  | .string _ => .string
  | .array _ => .array
  | .object _ => .object

/-! ## sameness -/

mutual

/-- equality up to the order of the fields of objects -/
def same : Json → Json → Bool
  | .null, .null => true
  | .bool a, .bool b => a == b
  | .number a, .number b => a.same b
  | .string a, .string b => a == b
  | .array xs, .array ys => sameItems xs ys
  | .object fs, .object gs => fs.length == gs.length && sameFields fs gs
  | _, _ => false

def sameItems : List Json → List Json → Bool
  | [], [] => true
  | x :: xs, y :: ys => same x y && sameItems xs ys
  | _, _ => false

/-- every field has a counterpart of the same value -/
def sameFields : List (String × Json) → List (String × Json) → Bool
  | [], _ => true
  | (k, x) :: fs, gs =>
    (match Keyed.get? gs k with
      | some y => same x y
      | none => false) && sameFields fs gs

end

/-! ## well-formed values -/

mutual

/-- no object has a key twice -/
def WellFormed : Json → Prop
  | .array xs => WellFormedItems xs
  | .object fs => Keyed.Distinct fs ∧ WellFormedFields fs
  | _ => True

def WellFormedItems : List Json → Prop
  | [] => True
  | x :: xs => WellFormed x ∧ WellFormedItems xs

def WellFormedFields : List (String × Json) → Prop
  | [] => True
  | (_, x) :: fs => WellFormed x ∧ WellFormedFields fs

end

theorem wellFormedItems_iff (xs : List Json) : WellFormedItems xs ↔ ∀ x ∈ xs, WellFormed x := by
  induction xs with
  | nil => simp [WellFormedItems]
  | cons x xs ih => simp [WellFormedItems, ih]

theorem wellFormedFields_iff (fs : Keyed Json) :
    WellFormedFields fs ↔ ∀ entry ∈ fs, WellFormed entry.2 := by
  induction fs with
  | nil => simp [WellFormedFields]
  | cons entry fs ih => simp [WellFormedFields, ih]

end Json

end Graft
