import Graft.Proofs.Grammar
import Graft.Proofs.Writing
import Mathlib.Data.List.Perm.Subperm

/-!
# The order of fields

Whether a document is accepted, and what its parts are then, does not depend on the order in which
fields are written: two values that are the same up to that order are both accepted or both refused,
and their parts are the same.  Only the error of a refusal depends on it.

* `Json.Alike`                     well-formed values that are the same;
* `Alike.field?`, `Alike.items`    they hold the same under each key and at each index;
* `Region.PartsOf`, `Document.PartsOf`   the parts are what stands under their keys;
* `Document.SameParts`             parts that are the same;
* `valid_congr`, `partsOf_alike`   the grammar and the parts of values that are the same;
* `Document.ofJson_by_grammar`     values, accepted or refused.
-/

namespace Graft

/-! ## lists and options, member by member -/

section

variable {α β γ δ : Type} {R : α → β → Prop}

theorem forall_some_congr {P : α → Prop} {Q : β → Prop} {a : Option α} {b : Option β}
    (h : Option.Rel R a b) (hR : ∀ x y, R x y → (P x ↔ Q y)) :
    (∀ x, a = some x → P x) ↔ ∀ y, b = some y → Q y := by
  cases h with
  | none => exact iff_of_true (fun _ h => nomatch h) fun _ h => nomatch h
  | some h => simpa using hR _ _ h

theorem forall₂_getD {a : Option (List α)} {b : Option (List β)}
    (h : Option.Rel (List.Forall₂ R) a b) : List.Forall₂ R (a.getD []) (b.getD []) := by
  cases h with
  | none => exact .nil
  | some h => exact h

theorem forall_mem_congr {P : α → Prop} {Q : β → Prop} {xs : List α} {ys : List β}
    (h : List.Forall₂ R xs ys) (hR : ∀ x y, R x y → (P x ↔ Q y)) :
    (∀ x ∈ xs, P x) ↔ ∀ y ∈ ys, Q y := by
  induction h with
  | nil => simp only [List.not_mem_nil, false_implies, implies_true]
  | cons h _ ih => rw [List.forall_mem_cons, List.forall_mem_cons, hR _ _ h, ih]

theorem rel_mono {S : α → β → Prop} {a : Option α} {b : Option β} (h : Option.Rel R a b)
    (hR : ∀ x y, R x y → S x y) : Option.Rel S a b := by
  cases h with
  | none => exact .none
  | some h => exact .some (hR _ _ h)

variable {S : α → γ → Prop} {T : β → δ → Prop} {U : γ → δ → Prop}

/-- what is made of members that belong together belongs together -/
theorem forall₂_square {xs : List α} {ys : List β} {zs : List γ} {ws : List δ}
    (h : List.Forall₂ R xs ys) (hs : List.Forall₂ S xs zs) (ht : List.Forall₂ T ys ws)
    (hU : ∀ x y z w, R x y → S x z → T y w → U z w) : List.Forall₂ U zs ws := by
  induction h generalizing zs ws with
  | nil =>
    cases hs
    cases ht
    exact .nil
  | cons h _ ih =>
    cases hs with
    | cons hs hss =>
      cases ht with
      | cons ht hts => exact .cons (hU _ _ _ _ h hs ht) (ih hss hts)

theorem rel_square {a : Option α} {b : Option β} {c : Option γ} {d : Option δ}
    (h : Option.Rel R a b) (hs : Option.Rel S a c) (ht : Option.Rel T b d)
    (hU : ∀ x y z w, R x y → S x z → T y w → U z w) : Option.Rel U c d := by
  cases h with
  | none =>
    cases hs
    cases ht
    exact .none
  | some h =>
    cases hs with
    | some hs =>
      cases ht with
      | some ht => exact .some (hU _ _ _ _ h hs ht)

end

/-! ## values that are the same -/

namespace Json

theorem sameItems_iff {xs ys : List Json} :
    sameItems xs ys = true ↔ List.Forall₂ (fun x y => x.same y = true) xs ys := by
  induction xs generalizing ys with
  | nil => cases ys <;> simp [sameItems]
  | cons x xs ih => cases ys <;> simp [sameItems, ih]

theorem sameFields_iff {fs gs : Keyed Json} : sameFields fs gs = true ↔
    ∀ entry ∈ fs, ∃ y, Keyed.get? gs entry.1 = some y ∧ entry.2.same y = true := by
  induction fs with
  | nil => simp [sameFields]
  | cons entry fs ih =>
    obtain ⟨key, x⟩ := entry
    rw [sameFields, Bool.and_eq_true, ih, List.forall_mem_cons]
    cases Keyed.get? gs key <;> simp

/-- well-formed values that are the same -/
structure Alike (a b : Json) : Prop where
  left : a.WellFormed
  right : b.WellFormed
  same : a.same b = true

namespace Alike

variable {a b : Json}

theorem kind (h : Alike a b) : a.kind = b.kind := by
  have hsame := h.same
  cases a <;> cases b <;> first | rfl | exact nomatch hsame

theorem null (h : Alike a b) : a = .null ↔ b = .null := by
  have hkind := h.kind
  cases a <;> cases b <;> simp_all [Json.kind]

theorem string (h : Alike a b) {s : String} : a = .string s ↔ b = .string s := by
  have hsame := h.same
  cases a <;> cases b <;> simp_all [Json.same]

theorem items {xs ys : List Json} (h : Alike (.array xs) (.array ys)) :
    List.Forall₂ Alike xs ys := by
  have hsame : List.Forall₂ (fun x y => x.same y = true) xs ys := sameItems_iff.mp h.same
  have hleft := h.left.of_mem
  have hright := h.right.of_mem
  clear h
  induction hsame with
  | nil => exact .nil
  | cons hxy _ ih =>
    obtain ⟨hx, hleft⟩ := List.forall_mem_cons.mp hleft
    obtain ⟨hy, hright⟩ := List.forall_mem_cons.mp hright
    exact .cons ⟨hx, hy, hxy⟩ (ih hleft hright)

/-- as many fields, so that no key is in one object alone -/
theorem fields {fs gs : Keyed Json} (h : Alike (.object fs) (.object gs)) (key : String) :
    Option.Rel Alike (Keyed.get? fs key) (Keyed.get? gs key) := by
  obtain ⟨hlength, hsame⟩ : fs.length = gs.length ∧ sameFields fs gs = true := by
    simpa [Json.same] using h.same
  have hfields := sameFields_iff.mp hsame
  have hsubset : Keyed.keys fs ⊆ Keyed.keys gs := by
    intro k hk
    obtain ⟨entry, hentry, rfl⟩ := List.mem_map.mp hk
    obtain ⟨y, hy, _⟩ := hfields entry hentry
    exact (Keyed.isSome_get? gs entry.1).mp (Option.isSome_of_eq_some hy)
  have hperm : (Keyed.keys fs).Perm (Keyed.keys gs) := by
    have hkeys : (Keyed.keys fs).length = (Keyed.keys gs).length := by
      simpa only [Keyed.keys, List.length_map] using hlength
    have hsubperm := List.subperm_of_subset h.left.distinct hsubset
    exact hsubperm.perm_of_length_le (Nat.le_of_eq hkeys.symm)
  cases hx : Keyed.get? fs key with
  | none =>
    have hnone : Keyed.get? gs key = none := by
      rw [Keyed.get?_eq_none] at hx ⊢
      exact fun hmem => hx (hperm.mem_iff.mpr hmem)
    rw [hnone]
    exact .none
  | some x =>
    obtain ⟨y, hy, hxy⟩ := hfields (key, x) (Keyed.mem_of_get? hx)
    rw [hy]
    exact .some ⟨h.left.of_get? hx, h.right.of_get? hy, hxy⟩

theorem field? (h : Alike a b) (key : String) :
    Option.Rel Alike (a.field? key) (b.field? key) := by
  cases a with
  | object fs =>
    cases b with
    | object gs => exact h.fields key
    | _ => exact nomatch h.kind
  | _ =>
    cases b with
    | object gs => exact nomatch h.kind
    | _ => exact .none

theorem of_array {xs : List Json} (h : Alike (.array xs) b) :
    ∃ ys, b = .array ys ∧ List.Forall₂ Alike xs ys := by
  obtain ⟨ys, rfl⟩ := kind_eq_array_iff.mp h.kind.symm
  exact ⟨ys, rfl, h.items⟩

theorem to_array {ys : List Json} (h : Alike a (.array ys)) :
    ∃ xs, a = .array xs ∧ List.Forall₂ Alike xs ys := by
  obtain ⟨xs, rfl⟩ := kind_eq_array_iff.mp h.kind
  exact ⟨xs, rfl, h.items⟩

theorem exists_items {P Q : List Json → Prop} (h : Alike a b)
    (hPQ : ∀ xs ys, List.Forall₂ Alike xs ys → (P xs ↔ Q ys)) :
    (∃ xs, a = .array xs ∧ P xs) ↔ ∃ ys, b = .array ys ∧ Q ys := by
  constructor
  · rintro ⟨xs, rfl, hP⟩
    obtain ⟨ys, rfl, hitems⟩ := h.of_array
    exact ⟨ys, rfl, (hPQ xs ys hitems).mp hP⟩
  · rintro ⟨ys, rfl, hQ⟩
    obtain ⟨xs, rfl, hitems⟩ := h.to_array
    exact ⟨xs, rfl, (hPQ xs ys hitems).mpr hQ⟩

/-- what is no array has no items -/
theorem array? {a b : Option Json} (h : Option.Rel Alike a b) :
    Option.Rel (List.Forall₂ Alike) (a.bind Json.array?) (b.bind Json.array?) := by
  cases h with
  | none => exact .none
  | @some x y h =>
    show Option.Rel _ x.array? y.array?
    cases x with
    | array xs =>
      obtain ⟨ys, rfl, hitems⟩ := h.of_array
      exact .some hitems
    | _ =>
      cases y with
      | array ys => exact nomatch h.kind
      | _ => exact .none

theorem present? {a b : Option Json} (h : Option.Rel Alike a b) :
    Option.Rel Alike (Graft.present? a) (Graft.present? b) := by
  cases h with
  | none => exact .none
  | @some x y h =>
    by_cases hx : x = .null
    · obtain rfl := hx
      obtain rfl := h.null.mp rfl
      exact .none
    · rw [present?_of_ne hx, present?_of_ne fun hy => hx (h.null.mpr hy)]
      exact .some h

end Alike

end Json

/-! ## regions -/

namespace Region

/-- the parts of a region are what stands under their keys -/
structure PartsOf (region : Region) (value : Json) : Prop where
  id : value.field? DocumentField.id = some (.string region.id)
  role : value.field? DocumentField.role = some (.string region.role)
  nodes : region.nodes = ((value.field? DocumentField.nodes).bind Json.array?).getD []

structure SameParts (region region' : Region) : Prop where
  id : region.id = region'.id
  role : region.role = region'.role
  nodes : Json.sameItems region.nodes region'.nodes = true

theorem partsOf_ofJson {value : Json} (hw : value.WellFormed) {region : Region}
    (h : ofJson value = .ok region) : region.PartsOf value := by
  obtain ⟨fields, rfl⟩ := eq_object_of_ofJson h
  obtain ⟨hid, hrole, hnodes, _⟩ := (ofJson_eq_ok_iff hw.distinct).mp h
  exact ⟨hid, hrole, (readField_nodes_iff.mp hnodes).2⟩

theorem exists_string_congr {a b : Option Json} (h : Option.Rel Json.Alike a b) :
    (∃ s, a = some (.string s)) ↔ ∃ s, b = some (.string s) := by
  cases h with
  | none => rfl
  | some h => simp only [Option.some.injEq, h.string]

theorem valid_congr {a b : Json} (h : Json.Alike a b) : Valid a ↔ Valid b := by
  have hnodes : (∀ found, a.field? DocumentField.nodes = some found →
        ∃ items, found = .array items) ↔
      ∀ found, b.field? DocumentField.nodes = some found → ∃ items, found = .array items :=
    forall_some_congr (h.field? _) fun x y hxy => by
      rw [← Json.kind_eq_array_iff, ← Json.kind_eq_array_iff, hxy.kind]
  constructor
  · rintro ⟨hobject, hid, hrole, hfound⟩
    exact ⟨h.kind ▸ hobject, (exists_string_congr (h.field? _)).mp hid,
      (exists_string_congr (h.field? _)).mp hrole, hnodes.mp hfound⟩
  · rintro ⟨hobject, hid, hrole, hfound⟩
    exact ⟨h.kind ▸ hobject, (exists_string_congr (h.field? _)).mpr hid,
      (exists_string_congr (h.field? _)).mpr hrole, hnodes.mpr hfound⟩

theorem sameParts_of_alike {a b : Json} (h : Json.Alike a b) {region region' : Region}
    (ha : region.PartsOf a) (hb : region'.PartsOf b) : region.SameParts region' := by
  have hname : ∀ {s s' : String} {key : String}, a.field? key = some (.string s) →
      b.field? key = some (.string s') → s = s' := by
    intro s s' key hs hs'
    have hrel := h.field? key
    rw [hs, hs'] at hrel
    cases hrel with
    | some hrel => exact (Json.string.inj (hrel.string.mp rfl)).symm
  refine ⟨hname ha.id hb.id, hname ha.role hb.role, ?_⟩
  rw [ha.nodes, hb.nodes, Json.sameItems_iff]
  exact (forall₂_getD (Json.Alike.array? (h.field? DocumentField.nodes))).imp fun _ _ h => h.same

end Region

/-! ## documents -/

namespace Document

/-- the parts of a document are what stands under their keys, where a `null` counts as absent -/
structure PartsOf (doc : Document) (value : Json) : Prop where
  metadata : doc.metadata = present? (value.field? DocumentField.metadata)
  nodes : doc.nodes = (value.field? DocumentField.nodes).bind Json.array?
  regions : Option.Rel (List.Forall₂ fun item region => Region.PartsOf region item)
    ((value.field? DocumentField.regions).bind Json.array?) doc.regions

structure SameParts (doc doc' : Document) : Prop where
  metadata : Option.Rel (fun a b => Json.same a b = true) doc.metadata doc'.metadata
  nodes : Option.Rel (fun xs ys => Json.sameItems xs ys = true) doc.nodes doc'.nodes
  regions : Option.Rel (List.Forall₂ Region.SameParts) doc.regions doc'.regions

/-- a field of an array or of `null` -/
theorem rel_array? {α : Type} {read : Json → Except DocumentError α} {R : List Json → α → Prop}
    {field : Option Json} {value : Option α}
    (h : readField (readOptional read) none field = .ok value)
    (hread : ∀ json a, field = some json → read json = .ok a →
      ∃ items, json = .array items ∧ R items a) :
    Option.Rel R (field.bind Json.array?) value := by
  cases value with
  | none =>
    cases field with
    | none => exact .none
    | some json =>
      obtain rfl := readOptional_eq_ok_none.mp h
      exact .none
  | some a =>
    obtain ⟨json, rfl, _, hjson⟩ := readField_optional_eq_some.mp h
    obtain ⟨items, rfl, hitems⟩ := hread json a rfl hjson
    exact .some hitems

theorem partsOf_ofJson {value : Json} (hw : value.WellFormed) {doc : Document}
    (h : ofJson value = .ok doc) : doc.PartsOf value := by
  obtain ⟨fields, rfl⟩ := eq_object_of_ofJson h
  obtain ⟨hmetadata, hnodes, hregions, _⟩ := (ofJson_eq_ok_iff hw.distinct).mp h
  refine ⟨?_, ?_, ?_⟩
  · have hrel : Option.Rel Eq (present? (Keyed.get? fields DocumentField.metadata))
        (doc.metadata.map id) := rel_present? hmetadata fun json a _ hread => Except.ok.inj hread
    rw [Option.map_id_apply] at hrel
    exact (eq_of_rel hrel).symm
  · refine (eq_of_rel (rel_array? hnodes fun json items _ hread => ?_)).symm
    exact ⟨items, readSequence_eq_ok_iff.mp hread, rfl⟩
  · refine rel_array? hregions fun json regions hjson hread => ?_
    obtain ⟨items, rfl, hitems⟩ := readRegions_eq_ok_iff.mp hread
    have hwell := (hw.of_get? hjson).of_mem
    refine ⟨items, rfl, ((List.forall₂_and_left items regions).mpr ⟨hwell, hitems⟩).imp ?_⟩
    exact fun item region h => Region.partsOf_ofJson h.1 h.2

theorem valid_congr {a b : Json} (h : Json.Alike a b) : Valid a ↔ Valid b := by
  have hnodes : (∀ found, a.field? DocumentField.nodes = some found →
        found = .null ∨ ∃ items, found = .array items) ↔
      ∀ found, b.field? DocumentField.nodes = some found →
        found = .null ∨ ∃ items, found = .array items :=
    forall_some_congr (h.field? _) fun x y hxy => by
      rw [← Json.kind_eq_array_iff, ← Json.kind_eq_array_iff, hxy.kind, hxy.null]
  have hregions : (∀ found, a.field? DocumentField.regions = some found →
        found = .null ∨ ∃ items, found = .array items ∧ ∀ item ∈ items, Region.Valid item) ↔
      ∀ found, b.field? DocumentField.regions = some found →
        found = .null ∨ ∃ items, found = .array items ∧ ∀ item ∈ items, Region.Valid item := by
    refine forall_some_congr (h.field? _) fun x y hxy => or_congr hxy.null ?_
    exact hxy.exists_items fun _ _ hitems => forall_mem_congr hitems fun _ _ => Region.valid_congr
  constructor
  · rintro ⟨hobject, hfound, hfound'⟩
    exact ⟨h.kind ▸ hobject, hnodes.mp hfound, hregions.mp hfound'⟩
  · rintro ⟨hobject, hfound, hfound'⟩
    exact ⟨h.kind ▸ hobject, hnodes.mpr hfound, hregions.mpr hfound'⟩

theorem sameParts_of_alike {a b : Json} (h : Json.Alike a b) {doc doc' : Document}
    (ha : doc.PartsOf a) (hb : doc'.PartsOf b) : doc.SameParts doc' := by
  refine ⟨?_, ?_, ?_⟩
  · rw [ha.metadata, hb.metadata]
    exact rel_mono (Json.Alike.present? (h.field? _)) fun _ _ h => h.same
  · rw [ha.nodes, hb.nodes]
    exact rel_mono (Json.Alike.array? (h.field? _)) fun _ _ h =>
      Json.sameItems_iff.mpr (h.imp fun _ _ h => h.same)
  · refine rel_square (Json.Alike.array? (h.field? _)) ha.regions hb.regions ?_
    intro xs ys regions regions' hitems hxs hys
    refine forall₂_square hitems hxs hys fun _ _ _ _ hitem hx hy => ?_
    exact Region.sameParts_of_alike hitem hx hy

/-- **What a document must look like, and what is wrong with it first.**  A value is read exactly if
it is an object whose own nodes and regions, where there are any, have the shape they must have.  The
parts are then what stands under their keys; values that are the same up to the order of fields are
accepted alike, with the same parts.  A value that is refused is refused for its first defect,
fields taken as they are written and regions from the left, and for a field that a region misses
only when all fields of that region fit. -/
theorem ofJson_by_grammar (value : Json) (hw : value.WellFormed) :
    ((∃ doc, ofJson value = .ok doc) ↔ Valid value) ∧
      (∀ doc, ofJson value = .ok doc → doc.PartsOf value) ∧
      (∀ other : Json, other.WellFormed → value.same other = true →
        ((∃ doc, ofJson value = .ok doc) ↔ ∃ doc, ofJson other = .ok doc) ∧
          ∀ doc doc', ofJson value = .ok doc → ofJson other = .ok doc' → doc.SameParts doc') ∧
      ∀ e, ofJson value = .error e ↔ Defect value e := by
  refine ⟨ofJson_ok_iff hw, fun _ => partsOf_ofJson hw, fun other hother hsame => ?_,
    ofJson_error_iff hw⟩
  have halike : Json.Alike value other := ⟨hw, hother, hsame⟩
  constructor
  · rw [ofJson_ok_iff hw, ofJson_ok_iff hother, valid_congr halike]
  · intro doc doc' hdoc hdoc'
    exact sameParts_of_alike halike (partsOf_ofJson hw hdoc) (partsOf_ofJson hother hdoc')

/-- a document whose `nodes` are `null`, and a region without any -/
def landingPage : Json := .object [
  ("regions", .array [
    .object [("id", .string "top"), ("wide", .bool true), ("role", .string "banner")]]),
  ("nodes", .null),
  ("meta", .object [("title", .string "Home"), ("draft", .bool false)])]

/-- the same with its fields in other places -/
def landingPageTurned : Json := .object [
  ("meta", .object [("draft", .bool false), ("title", .string "Home")]),
  ("regions", .array [
    .object [("role", .string "banner"), ("id", .string "top"), ("wide", .bool true)]]),
  ("nodes", .null)]

/-- the second region has no nodes, a role that is no text and no id, and then comes more -/
def landingPageBroken : Json := .object [
  ("regions", .array [
    .object [("id", .string "top"), ("role", .string "banner")],
    .object [("nodes", .null), ("role", .bool true)], .null]),
  ("nodes", .bool true)]

theorem ofJson_by_grammar_landingPage :
    (landingPage.WellFormed ∧ landingPageTurned.WellFormed ∧
        landingPage.same landingPageTurned = true) ∧
      Valid landingPage ∧
      ((∃ doc, ofJson landingPage = .ok doc) ↔ ∃ doc, ofJson landingPageTurned = .ok doc) ∧
      landingPageBroken.WellFormed ∧
      Defect landingPageBroken (.invalidType .null .sequence) := by
  have hw : landingPage.WellFormed := by
    simp [landingPage, Json.WellFormed, Json.WellFormedItems, Json.WellFormedFields, Keyed.Distinct,
      Keyed.keys]
  have hw' : landingPageTurned.WellFormed := by
    simp [landingPageTurned, Json.WellFormed, Json.WellFormedItems, Json.WellFormedFields,
      Keyed.Distinct, Keyed.keys]
  have hb : landingPageBroken.WellFormed := by
    simp [landingPageBroken, Json.WellFormed, Json.WellFormedItems, Json.WellFormedFields,
      Keyed.Distinct, Keyed.keys]
  have hsame : landingPage.same landingPageTurned = true := rfl
  obtain ⟨hvalid, _, hother, _⟩ := ofJson_by_grammar landingPage hw
  obtain ⟨_, _, _, hdefect⟩ := ofJson_by_grammar landingPageBroken hb
  exact ⟨⟨hw, hw', hsame⟩, hvalid.mp ⟨_, rfl⟩, (hother landingPageTurned hw' hsame).1, hb,
    (hdefect _).mp rfl⟩

end Document

end Graft
