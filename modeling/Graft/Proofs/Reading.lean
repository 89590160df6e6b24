import Graft.Document.Basic
import Mathlib.Data.List.Forall2

/-!
# What a document is read from

Fields are taken in as they are written, but each key has its own place to go to.  Where no key comes
twice, what has been read is said key by key.

* `mapM_eq_ok_iff`                 a list is read item by item;
* `Keyed.without`                  the fields of no known key;
* `readField`                      one place: what was there, or what is read under the key;
* `Draft.Gains`, `Document.Gains`  fields read into what has been read before, place by place;
* `Region.ofJson_eq_ok_iff`        a region, key by key;
* `Document.ofJson_eq_ok_iff`      a document, key by key.
-/

namespace Graft

/-! ## steps that may fail -/

section

variable {ε α β : Type}

theorem bind_eq_ok_iff {x : Except ε α} {f : α → Except ε β} {b : β} :
    x.bind f = .ok b ↔ ∃ a, x = .ok a ∧ f a = .ok b := by
  cases x <;> simp [Except.bind]

theorem map_eq_ok_iff {f : α → β} {x : Except ε α} {b : β} :
    x.map f = .ok b ↔ ∃ a, x = .ok a ∧ f a = b := by
  cases x <;> simp [Except.map]

theorem exists_map_eq_ok_iff {f : α → β} {x : Except ε α} {P : β → Prop} :
    (∃ b, x.map f = .ok b ∧ P b) ↔ ∃ a, x = .ok a ∧ P (f a) := by
  cases x <;> simp [Except.map]

theorem mapM_eq_ok_iff {f : α → Except ε β} {xs : List α} {ys : List β} :
    xs.mapM f = .ok ys ↔ List.Forall₂ (fun x y => f x = .ok y) xs ys := by
  induction xs generalizing ys with
  | nil => simp [pure, Except.pure, eq_comm]
  | cons x xs ih =>
    rw [List.mapM_cons, List.forall₂_cons_left_iff]
    show (f x).bind (fun y => (xs.mapM f).bind fun ys => .ok (y :: ys)) = .ok ys ↔ _
    rw [bind_eq_ok_iff]
    constructor
    · rintro ⟨y, hy, hys⟩
      obtain ⟨rest, hrest, hcons⟩ := bind_eq_ok_iff.mp hys
      exact ⟨y, rest, hy, ih.mp hrest, (Except.ok.inj hcons).symm⟩
    · rintro ⟨y, rest, hy, hrest, rfl⟩
      exact ⟨y, hy, bind_eq_ok_iff.mpr ⟨rest, ih.mpr hrest, rfl⟩⟩

end

/-! ## fields -/

namespace Keyed

universe u

variable {α : Type u}

/-- the entries under other keys, in their order -/
def without (m : Keyed α) (names : List String) : Keyed α := m.filter fun entry => entry.1 ∉ names

theorem without_nil (names : List String) : without ([] : Keyed α) names = [] := rfl

theorem without_cons_mem {names : List String} {key : String} (h : key ∈ names) (value : α)
    (rest : Keyed α) : without ((key, value) :: rest) names = without rest names := by
  simp [without, h]

theorem without_cons_not_mem {names : List String} {key : String} (h : key ∉ names) (value : α)
    (rest : Keyed α) :
    without ((key, value) :: rest) names = (key, value) :: without rest names := by
  simp [without, h]

/-- a known key may hold anything -/
theorem without_insert {names : List String} {key : String} (h : key ∈ names) (m : Keyed α)
    (value : α) : without (insert m key value) names = without m names := by
  unfold insert
  induction m with
  | nil => exact without_cons_mem h value []
  | cons entry rest ih =>
    obtain ⟨k, old⟩ := entry
    by_cases hk : k = key
    · rw [update, if_pos hk, without_cons_mem (hk ▸ h), without_cons_mem (hk ▸ h)]
    · rw [update, if_neg hk]
      by_cases hn : k ∈ names
      · rw [without_cons_mem hn, without_cons_mem hn, ih]
      · rw [without_cons_not_mem hn, without_cons_not_mem hn, ih]

theorem get?_cons_self (key : String) (value : α) (rest : Keyed α) :
    get? ((key, value) :: rest) key = some value := if_pos rfl

theorem get?_cons_ne {key k : String} (h : k ≠ key) (value : α) (rest : Keyed α) :
    get? ((k, value) :: rest) key = get? rest key := if_neg h

theorem Distinct.get?_rest {key : String} {value : α} {rest : Keyed α}
    (h : Distinct ((key, value) :: rest)) : get? rest key = none :=
  (get?_eq_none rest key).mpr (List.nodup_cons.mp h).1

theorem Distinct.rest {entry : String × α} {rest : Keyed α} (h : Distinct (entry :: rest)) :
    Distinct rest := (List.nodup_cons.mp h).2

end Keyed

namespace Json

theorem kind_eq_object_iff {value : Json} : value.kind = .object ↔ ∃ fields, value = .object fields := by
  cases value <;> simp [kind]

variable {fields : Keyed Json} {items : List Json}

theorem WellFormed.distinct (h : (Json.object fields).WellFormed) : fields.Distinct := by
  rw [WellFormed] at h
  exact h.1

theorem WellFormed.of_get? (h : (Json.object fields).WellFormed) {key : String} {value : Json}
    (hv : Keyed.get? fields key = some value) : value.WellFormed := by
  rw [WellFormed, wellFormedFields_iff] at h
  exact h.2 _ (Keyed.mem_of_get? hv)

theorem WellFormed.of_mem (h : (Json.array items).WellFormed) : ∀ item ∈ items, item.WellFormed := by
  rwa [WellFormed, wellFormedItems_iff] at h

end Json

section

variable {α : Type} (read : Json → Except DocumentError α) (old : α)

/-- what is read under a key takes the place of what was there -/
def readField : Option Json → Except DocumentError α
  | none => .ok old
  | some value => read value

theorem readField_none : readField read old none = .ok old := rfl

theorem readField_some (value : Json) : readField read old (some value) = read value := rfl

end

theorem readString_eq_ok_iff {value : Json} {s : String} :
    readString value = .ok s ↔ value = .string s := by
  cases value <;> simp [readString]

theorem readSequence_eq_ok_iff {value : Json} {items : List Json} :
    readSequence value = .ok items ↔ value = .array items := by
  cases value <;> simp [readSequence]

theorem readOptional_eq_ok_none {α : Type} {read : Json → Except DocumentError α} {value : Json} :
    readOptional read value = .ok none ↔ value = .null := by
  cases value <;> simp [readOptional, map_eq_ok_iff]

theorem readOptional_eq_ok_some {α : Type} {read : Json → Except DocumentError α} {value : Json}
    {a : α} : readOptional read value = .ok (some a) ↔ value ≠ .null ∧ read value = .ok a := by
  cases value <;> simp [readOptional, map_eq_ok_iff]

/-! ## regions -/

namespace Region

/-- the keys of a region that are not kept as they are -/
def fieldNames : List String := [DocumentField.id, DocumentField.role, DocumentField.nodes]

namespace Draft

variable (draft : Draft) (value : Json)

theorem read_id : draft.read DocumentField.id value =
    (readString value).map fun id => { draft with id := some id } := rfl

theorem read_role : draft.read DocumentField.role value =
    (readString value).map fun role => { draft with role := some role } := rfl

theorem read_nodes : draft.read DocumentField.nodes value =
    (readSequence value).map fun nodes => { draft with nodes } := rfl

theorem read_of_not_mem {key : String} (h : key ∉ fieldNames) :
    draft.read key value = .ok { draft with extra := draft.extra ++ [(key, value)] } := by
  simp only [fieldNames, List.mem_cons, not_or] at h
  rw [Draft.read, if_neg h.1, if_neg h.2.1, if_neg h.2.2.1]

/-- `draft'` is `draft` with `fields` read into it -/
@[mk_iff]
structure Gains (draft : Draft) (fields : Keyed Json) (draft' : Draft) : Prop where
  id : readField (fun value => (readString value).map some) draft.id
    (Keyed.get? fields DocumentField.id) = .ok draft'.id
  role : readField (fun value => (readString value).map some) draft.role
    (Keyed.get? fields DocumentField.role) = .ok draft'.role
  nodes : readField readSequence draft.nodes (Keyed.get? fields DocumentField.nodes) =
    .ok draft'.nodes
  extra : draft'.extra = draft.extra ++ fields.without fieldNames

theorem gains_nil (draft' : Draft) : draft.Gains [] draft' ↔ draft = draft' := by
  constructor
  · rintro ⟨hid, hrole, hnodes, hextra⟩
    cases draft
    cases draft'
    simp_all [readField, Keyed.get?, Keyed.without_nil]
  · rintro rfl
    exact ⟨rfl, rfl, rfl, (List.append_nil _).symm⟩

theorem gains_cons (key : String) (rest : Keyed Json) (draft' : Draft)
    (h : Keyed.get? rest key = none) :
    draft.Gains ((key, value) :: rest) draft' ↔
      ∃ next, draft.read key value = .ok next ∧ next.Gains rest draft' := by
  simp only [gains_iff]
  by_cases hk : key ∈ fieldNames
  · -- a known key has its own place, and the places of the other known keys wait for `rest`
    rw [Keyed.without_cons_mem hk]
    simp only [fieldNames, List.mem_cons, List.not_mem_nil, or_false] at hk
    obtain rfl | rfl | rfl := hk
    · rw [Keyed.get?_cons_self, Keyed.get?_cons_ne (by decide), Keyed.get?_cons_ne (by decide),
        read_id, exists_map_eq_ok_iff]
      simp only [h, readField_some, readField_none, map_eq_ok_iff, Except.ok.injEq]
      grind
    · rw [Keyed.get?_cons_self, Keyed.get?_cons_ne (by decide), Keyed.get?_cons_ne (by decide),
        read_role, exists_map_eq_ok_iff]
      simp only [h, readField_some, readField_none, map_eq_ok_iff, Except.ok.injEq]
      grind
    · rw [Keyed.get?_cons_self, Keyed.get?_cons_ne (by decide), Keyed.get?_cons_ne (by decide),
        read_nodes, exists_map_eq_ok_iff]
      simp only [h, readField_some, readField_none, Except.ok.injEq]
      grind
  · rw [read_of_not_mem draft value hk, Keyed.without_cons_not_mem hk]
    simp only [fieldNames, List.mem_cons, not_or] at hk
    rw [Keyed.get?_cons_ne hk.1, Keyed.get?_cons_ne hk.2.1, Keyed.get?_cons_ne hk.2.2.1]
    simp only [Except.ok.injEq, exists_eq_left', List.append_assoc, List.singleton_append]

theorem readAll_eq_ok_iff (fields : Keyed Json) (draft' : Draft) (h : fields.Distinct) :
    draft.readAll fields = .ok draft' ↔ draft.Gains fields draft' := by
  induction fields generalizing draft with
  | nil => rw [gains_nil, readAll, Except.ok.injEq]
  | cons field rest ih =>
    obtain ⟨key, value⟩ := field
    rw [readAll, bind_eq_ok_iff, draft.gains_cons value key rest draft' h.get?_rest]
    simp only [ih _ h.rest]

theorem finish_eq_ok_iff (region : Region) : draft.finish = .ok region ↔
    draft = ⟨some region.id, some region.role, region.nodes, region.extra⟩ := by
  obtain ⟨id, role, nodes, extra⟩ := draft
  cases id <;> cases role <;> cases region <;> simp [finish]

end Draft

/-- `region` is what `fields` say -/
structure ReadFrom (region : Region) (fields : Keyed Json) : Prop where
  id : Keyed.get? fields DocumentField.id = some (.string region.id)
  role : Keyed.get? fields DocumentField.role = some (.string region.role)
  nodes : readField readSequence [] (Keyed.get? fields DocumentField.nodes) = .ok region.nodes
  extra : region.extra = fields.without fieldNames

theorem ofJson_eq_ok_iff {fields : Keyed Json} {region : Region} (h : fields.Distinct) :
    ofJson (.object fields) = .ok region ↔ region.ReadFrom fields := by
  have name (field : Option Json) (s : String) :
      readField (fun value => (readString value).map some) none field = .ok (some s) ↔
        field = some (.string s) := by
    cases field <;> simp [readField, map_eq_ok_iff, readString_eq_ok_iff]
  rw [ofJson, bind_eq_ok_iff]
  simp only [Draft.readAll_eq_ok_iff _ fields _ h, Draft.finish_eq_ok_iff, exists_eq_right]
  constructor
  · rintro ⟨hid, hrole, hnodes, hextra⟩
    exact ⟨(name _ _).mp hid, (name _ _).mp hrole, hnodes, hextra⟩
  · rintro ⟨hid, hrole, hnodes, hextra⟩
    exact ⟨(name _ _).mpr hid, (name _ _).mpr hrole, hnodes, hextra⟩

theorem eq_object_of_ofJson {value : Json} {region : Region} (h : ofJson value = .ok region) :
    ∃ fields, value = .object fields := by
  cases value <;> simp [ofJson] at h ⊢

end Region

/-! ## documents -/

namespace Document

/-- the keys of a document that are not kept as they are -/
def fieldNames : List String :=
  [DocumentField.metadata, DocumentField.nodes, DocumentField.regions]

variable (doc : Document) (value : Json)

theorem read_metadata : doc.read DocumentField.metadata value =
    (readOptional .ok value).map fun metadata => { doc with metadata } := by
  cases value <;> rfl

theorem read_nodes : doc.read DocumentField.nodes value =
    (readOptional readSequence value).map fun nodes => { doc with nodes } := rfl

theorem read_regions : doc.read DocumentField.regions value =
    (readOptional readRegions value).map fun regions => { doc with regions } := rfl

theorem read_of_not_mem {key : String} (h : key ∉ fieldNames) :
    doc.read key value = .ok { doc with extra := doc.extra ++ [(key, value)] } := by
  simp only [fieldNames, List.mem_cons, not_or] at h
  rw [Document.read, if_neg h.1, if_neg h.2.1, if_neg h.2.2.1]

/-- `doc'` is `doc` with `fields` read into it -/
@[mk_iff]
structure Gains (doc : Document) (fields : Keyed Json) (doc' : Document) : Prop where
  metadata : readField (readOptional .ok) doc.metadata
    (Keyed.get? fields DocumentField.metadata) = .ok doc'.metadata
  nodes : readField (readOptional readSequence) doc.nodes
    (Keyed.get? fields DocumentField.nodes) = .ok doc'.nodes
  regions : readField (readOptional readRegions) doc.regions
    (Keyed.get? fields DocumentField.regions) = .ok doc'.regions
  extra : doc'.extra = doc.extra ++ fields.without fieldNames

theorem gains_nil (doc' : Document) : doc.Gains [] doc' ↔ doc = doc' := by
  constructor
  · rintro ⟨hmetadata, hnodes, hregions, hextra⟩
    cases doc
    cases doc'
    simp_all [readField, Keyed.get?, Keyed.without_nil]
  · rintro rfl
    exact ⟨rfl, rfl, rfl, (List.append_nil _).symm⟩

theorem gains_cons (key : String) (rest : Keyed Json) (doc' : Document)
    (h : Keyed.get? rest key = none) :
    doc.Gains ((key, value) :: rest) doc' ↔
      ∃ next, doc.read key value = .ok next ∧ next.Gains rest doc' := by
  simp only [gains_iff]
  by_cases hk : key ∈ fieldNames
  · rw [Keyed.without_cons_mem hk]
    simp only [fieldNames, List.mem_cons, List.not_mem_nil, or_false] at hk
    obtain rfl | rfl | rfl := hk
    · rw [Keyed.get?_cons_self, Keyed.get?_cons_ne (by decide), Keyed.get?_cons_ne (by decide),
        read_metadata, exists_map_eq_ok_iff]
      simp only [h, readField_some, readField_none, Except.ok.injEq]
      grind
    · rw [Keyed.get?_cons_self, Keyed.get?_cons_ne (by decide), Keyed.get?_cons_ne (by decide),
        read_nodes, exists_map_eq_ok_iff]
      simp only [h, readField_some, readField_none, Except.ok.injEq]
      grind
    · rw [Keyed.get?_cons_self, Keyed.get?_cons_ne (by decide), Keyed.get?_cons_ne (by decide),
        read_regions, exists_map_eq_ok_iff]
      simp only [h, readField_some, readField_none, Except.ok.injEq]
      grind
  · rw [read_of_not_mem doc value hk, Keyed.without_cons_not_mem hk]
    simp only [fieldNames, List.mem_cons, not_or] at hk
    rw [Keyed.get?_cons_ne hk.1, Keyed.get?_cons_ne hk.2.1, Keyed.get?_cons_ne hk.2.2.1]
    simp only [Except.ok.injEq, exists_eq_left', List.append_assoc, List.singleton_append]

theorem readAll_eq_ok_iff (fields : Keyed Json) (doc' : Document) (h : fields.Distinct) :
    doc.readAll fields = .ok doc' ↔ doc.Gains fields doc' := by
  induction fields generalizing doc with
  | nil => rw [gains_nil, readAll, Except.ok.injEq]
  | cons field rest ih =>
    obtain ⟨key, value⟩ := field
    rw [readAll, bind_eq_ok_iff, doc.gains_cons value key rest doc' h.get?_rest]
    simp only [ih _ h.rest]

theorem ofJson_eq_ok_iff {fields : Keyed Json} {doc : Document} (h : fields.Distinct) :
    ofJson (.object fields) = .ok doc ↔ empty.Gains fields doc :=
  empty.readAll_eq_ok_iff fields doc h

theorem eq_object_of_ofJson {value : Json} {doc : Document} (h : ofJson value = .ok doc) :
    ∃ fields, value = .object fields := by
  cases value <;> simp [ofJson] at h ⊢

theorem readRegions_eq_ok_iff {value : Json} {regions : List Region} :
    readRegions value = .ok regions ↔ ∃ items, value = .array items ∧
      List.Forall₂ (fun item region => Region.ofJson item = .ok region) items regions := by
  simp only [readRegions, bind_eq_ok_iff, readSequence_eq_ok_iff, mapM_eq_ok_iff]

end Document

end Graft
