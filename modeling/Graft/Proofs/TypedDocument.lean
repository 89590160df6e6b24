import Graft.Document.Expansion
import Graft.Proofs.Leftover
import Graft.Proofs.Reading

/-!
# Expanding what is read, and reading what is expanded

A document may be read first and expanded then, or expanded as a value and read afterwards.  Reading
takes the one way to the other: the same document comes out under the same diagnostics.  Only a `null`
in the place of a list tells them apart, which is absent to a reader and does not fit to an expansion
of values.

* `Diagnostic.isMisfit`      the reports of parts that do not fit;
* `Expander.Mirrors`         a list that is expanded alike before and after it is read;
* `mirrors_nodes`, `mirrors_regions`   the two lists of a document are;
* `Expander.FieldMirrors`    the same of a field that may be absent or `null`;
* `Expander.ofJson_expandDocumentValue`   reading and expanding commute.
-/

namespace Graft

/-- a part of a document did not fit -/
def Diagnostic.isMisfit : Diagnostic → Bool
  | .malformedDocument _ => true
  | _ => false

/-- the reports of an expansion of nodes are about placeholders only -/
theorem Expander.isMisfit_of_mem_expand (x : Expander) {nodes : List Json} {d : Diagnostic}
    (h : d ∈ (x.expand nodes).diagnostics) : d.isMisfit = false := by
  obtain ⟨i, rfl⟩ := List.mem_iff_get.mp h
  have hr := x.refused_expand nodes
  have hi := x.describes_of_refused (hr.get (by rw [hr.length_eq]; exact i.2) i.2)
  cases hd : (x.expand nodes).diagnostics.get i with
  | malformedDocument part =>
    rw [hd] at hi
    exact hi.elim
  | _ => rfl

namespace Expander

/-! ## a field that holds a list -/

theorem absent_or_array_or_misfit (field : Option Json) :
    field = none ∨ (∃ items, field = some (.array items)) ∨
      ∃ value, field = some value ∧ ∀ items, value ≠ .array items := by
  cases field with
  | none => exact .inl rfl
  | some value =>
    cases value with
    | array items => exact .inr (.inl ⟨items, rfl⟩)
    | _ => exact .inr (.inr ⟨_, rfl, by simp⟩)

section

variable {expand : List Json → Expanded (List Json)} {key : String} {part : DocumentPart}
  {fields : Keyed Json}

theorem expandArrayField_of_absent (h : Keyed.get? fields key = none) :
    expandArrayField expand key part fields = .clean fields := by
  rw [expandArrayField, h]

theorem expandArrayField_of_array {items : List Json}
    (h : Keyed.get? fields key = some (.array items)) :
    expandArrayField expand key part fields =
      (expand items).map fun items => Keyed.insert fields key (.array items) := by
  rw [expandArrayField, h]

theorem expandArrayField_of_misfit {value : Json} (h : Keyed.get? fields key = some value)
    (hv : ∀ items, value ≠ .array items) :
    expandArrayField expand key part fields = misfit part fields := by
  rw [expandArrayField, h]
  cases value with
  | array items => exact absurd rfl (hv items)
  | _ => rfl

variable (expand key part fields)

/-- the fields stay, or another list comes under the key -/
theorem output_expandArrayField :
    (expandArrayField expand key part fields).output = fields ∨
      ∃ items, (expandArrayField expand key part fields).output =
        Keyed.insert fields key (.array items) := by
  unfold expandArrayField
  split
  · exact .inl rfl
  · exact .inr ⟨_, rfl⟩
  · exact .inl rfl

theorem keys_expandArrayField :
    Keyed.keys (expandArrayField expand key part fields).output = Keyed.keys fields := by
  rcases absent_or_array_or_misfit (Keyed.get? fields key) with hf | ⟨items, hf⟩ | ⟨value, hf, hv⟩
  · rw [expandArrayField_of_absent hf, Expanded.output_clean]
  · rw [expandArrayField_of_array hf, Expanded.output_map]
    exact Keyed.keys_update_of_mem fields key _ ((Keyed.isSome_get? fields key).mp (by rw [hf]; rfl))
  · rw [expandArrayField_of_misfit hf hv]
    rfl

theorem distinct_expandArrayField (h : fields.Distinct) :
    (expandArrayField expand key part fields).output.Distinct := by
  unfold Keyed.Distinct
  rw [keys_expandArrayField]
  exact h

theorem get?_expandArrayField {k : String} (h : key ≠ k) :
    Keyed.get? (expandArrayField expand key part fields).output k = Keyed.get? fields k := by
  obtain he | ⟨items, he⟩ := output_expandArrayField expand key part fields
  · rw [he]
  · rw [he, Keyed.get?_insert, if_neg h]

theorem without_expandArrayField {names : List String} (h : key ∈ names) :
    (expandArrayField expand key part fields).output.without names = fields.without names := by
  obtain he | ⟨items, he⟩ := output_expandArrayField expand key part fields
  · rw [he]
  · rw [he, Keyed.without_insert h]

end

/-! ## one list, either way -/

/-- `items` are read as `part`, and stay so when both are expanded -/
structure Mirrors {α : Type} (read : Json → Except DocumentError α)
    (raw : List Json → Expanded (List Json)) (typed : α → Expanded α) (items : List Json) (part : α) :
    Prop where
  output : read (.array (raw items).output) = .ok (typed part).output
  diagnostics : (raw items).diagnostics = (typed part).diagnostics
  fits : ∀ d ∈ (typed part).diagnostics, d.isMisfit = false

variable (x : Expander)

theorem mirrors_nodes (items : List Json) :
    Mirrors readSequence x.expand x.expand items items where
  output := rfl
  diagnostics := rfl
  fits _ h := x.isMisfit_of_mem_expand h

/-! ## regions -/

/-- absent nodes are no nodes -/
theorem readField_expandArrayField (part : DocumentPart) {fields : Keyed Json} {nodes : List Json}
    (h : readField readSequence [] (Keyed.get? fields DocumentField.nodes) = .ok nodes) :
    readField readSequence []
        (Keyed.get? (expandArrayField x.expand DocumentField.nodes part fields).output
          DocumentField.nodes) = .ok (x.expand nodes).output ∧
      (expandArrayField x.expand DocumentField.nodes part fields).diagnostics =
        (x.expand nodes).diagnostics := by
  cases hf : Keyed.get? fields DocumentField.nodes with
  | none =>
    rw [hf, readField_none, Except.ok.injEq] at h
    subst h
    rw [expandArrayField_of_absent hf, Expanded.output_clean, hf]
    exact ⟨rfl, rfl⟩
  | some field =>
    rw [hf, readField_some, readSequence_eq_ok_iff] at h
    subst h
    rw [expandArrayField_of_array hf, Expanded.output_map, Keyed.get?_insert, if_pos rfl]
    exact ⟨rfl, rfl⟩

theorem ofJson_expandRegionValue (index : Nat) {value : Json} {region : Region}
    (hw : value.WellFormed) (h : Region.ofJson value = .ok region) :
    Region.ofJson (x.expandRegionValue index value).output =
        .ok { region with nodes := (x.expand region.nodes).output } ∧
      (x.expandRegionValue index value).diagnostics = (x.expand region.nodes).diagnostics := by
  obtain ⟨fields, rfl⟩ := Region.eq_object_of_ofJson h
  have hd := hw.distinct
  obtain ⟨hid, hrole, hnodes, hextra⟩ := (Region.ofJson_eq_ok_iff hd).mp h
  obtain ⟨hexpanded, hdiagnostics⟩ := x.readField_expandArrayField (.regionNodes index) hnodes
  refine ⟨(Region.ofJson_eq_ok_iff (distinct_expandArrayField _ _ _ _ hd)).mpr
    ⟨?_, ?_, hexpanded, ?_⟩, hdiagnostics⟩
  · rwa [get?_expandArrayField _ _ _ _ (by decide)]
  · rwa [get?_expandArrayField _ _ _ _ (by decide)]
  · rwa [without_expandArrayField _ _ _ _ (by decide)]

theorem forall₂_expandRegionValues (index : Nat) {items : List Json} {regions : List Region}
    (hw : ∀ item ∈ items, item.WellFormed)
    (h : List.Forall₂ (fun item region => Region.ofJson item = .ok region) items regions) :
    List.Forall₂ (fun item region => Region.ofJson item = .ok region)
        (x.expandRegionValues index items).output (x.expandRegions regions).output ∧
      (x.expandRegionValues index items).diagnostics = (x.expandRegions regions).diagnostics := by
  -- the position is only named for a region that does not fit, and here all of them do
  induction h generalizing index with
  | nil => exact ⟨.nil, rfl⟩
  | @cons item region items regions hread _ ih =>
    obtain ⟨hfirst, hfirst'⟩ := x.ofJson_expandRegionValue index (hw item List.mem_cons_self) hread
    obtain ⟨hrest, hrest'⟩ := ih (index + 1) fun i hi => hw i (List.mem_cons_of_mem _ hi)
    refine ⟨.cons hfirst hrest, ?_⟩
    rw [expandRegionValues, expandRegions, Expanded.diagnostics_bind, Expanded.diagnostics_bind,
      Expanded.diagnostics_map, Expanded.diagnostics_map, hfirst', hrest']

theorem isMisfit_of_mem_expandRegions {regions : List Region} {d : Diagnostic}
    (h : d ∈ (x.expandRegions regions).diagnostics) : d.isMisfit = false := by
  induction regions with
  | nil => exact absurd h (by simp [expandRegions, Expanded.clean])
  | cons region rest ih =>
    rw [expandRegions, Expanded.diagnostics_bind, Expanded.diagnostics_map, List.mem_append] at h
    exact h.elim x.isMisfit_of_mem_expand ih

theorem mirrors_regions {items : List Json} {regions : List Region}
    (hw : ∀ item ∈ items, item.WellFormed)
    (h : Document.readRegions (.array items) = .ok regions) :
    Mirrors Document.readRegions (x.expandRegionValues 0) x.expandRegions items regions := by
  obtain ⟨_, hitems, hread⟩ := Document.readRegions_eq_ok_iff.mp h
  obtain rfl := Json.array.inj hitems
  obtain ⟨hexpanded, hdiagnostics⟩ := x.forall₂_expandRegionValues 0 hw hread
  exact ⟨Document.readRegions_eq_ok_iff.mpr ⟨_, rfl, hexpanded⟩, hdiagnostics,
    fun _ hd => x.isMisfit_of_mem_expandRegions hd⟩

/-! ## a field of a document -/

/-- A list in a document, read and expanded in either order.  What is absent or `null` stays so; of
the two only the `null` is reported, and only by the expansion of the value. -/
structure FieldMirrors {α : Type} (read : Json → Except DocumentError α) (key : String)
    (part : DocumentPart) (fields : Keyed Json) (raw : Expanded (Keyed Json))
    (typed : Expanded (Option α)) : Prop where
  output : readField (readOptional read) none (Keyed.get? raw.output key) = .ok typed.output
  diagnostics : typed.diagnostics = raw.diagnostics.filter fun d => !d.isMisfit
  misfits : ∀ p, .malformedDocument p ∈ raw.diagnostics ↔
    p = part ∧ Keyed.get? fields key = some .null

section

variable {α : Type} {read : Json → Except DocumentError α} {raw : List Json → Expanded (List Json)}
  {typed : α → Expanded α} {key : String} (part : DocumentPart) {fields : Keyed Json}

theorem fieldMirrors_absent (hf : Keyed.get? fields key = none) :
    FieldMirrors read key part fields (expandArrayField raw key part fields)
      (optionally typed none) := by
  rw [expandArrayField_of_absent hf]
  refine ⟨?_, rfl, fun p => ?_⟩
  · rw [Expanded.output_clean, hf]
    rfl
  · simp [Expanded.clean, hf]

theorem fieldMirrors_null (hf : Keyed.get? fields key = some .null) :
    FieldMirrors read key part fields (expandArrayField raw key part fields)
      (optionally typed none) := by
  rw [expandArrayField_of_misfit hf (by simp)]
  refine ⟨?_, rfl, fun p => ?_⟩
  · rw [misfit, hf]
    rfl
  · simp [misfit, hf]

theorem fieldMirrors_array {items : List Json} {inner : α}
    (hf : Keyed.get? fields key = some (.array items)) (h : Mirrors read raw typed items inner) :
    FieldMirrors read key part fields (expandArrayField raw key part fields)
      (optionally typed (some inner)) := by
  rw [expandArrayField_of_array hf]
  refine ⟨?_, ?_, fun p => ?_⟩
  · rw [Expanded.output_map, Keyed.get?_insert, if_pos rfl, readField_some]
    exact map_eq_ok_iff.mpr ⟨_, h.output, rfl⟩
  · rw [Expanded.diagnostics_map, h.diagnostics, List.filter_eq_self.mpr]
    · rfl
    · intro d hd
      rw [h.fits d hd]
      rfl
  · rw [Expanded.diagnostics_map, h.diagnostics, hf]
    constructor
    · intro hp
      exact absurd (h.fits _ hp) (by simp [Diagnostic.isMisfit])
    · rintro ⟨-, hnull⟩
      exact absurd hnull (by simp)

/-- whatever is read under the key is expanded alike -/
theorem fieldMirrors {value : Option α}
    (hread : readField (readOptional read) none (Keyed.get? fields key) = .ok value)
    (harray : ∀ field inner, read field = .ok inner → ∃ items, field = .array items)
    (h : ∀ items inner, Keyed.get? fields key = some (.array items) →
      read (.array items) = .ok inner → Mirrors read raw typed items inner) :
    FieldMirrors read key part fields (expandArrayField raw key part fields)
      (optionally typed value) := by
  cases hf : Keyed.get? fields key with
  | none =>
    rw [hf, readField_none, Except.ok.injEq] at hread
    subst hread
    exact fieldMirrors_absent part hf
  | some field =>
    rw [hf, readField_some] at hread
    cases value with
    | none =>
      obtain rfl := readOptional_eq_ok_none.mp hread
      exact fieldMirrors_null part hf
    | some inner =>
      have hinner := (readOptional_eq_ok_some.mp hread).2
      obtain ⟨items, rfl⟩ := harray field inner hinner
      exact fieldMirrors_array part hf (h items inner hf hinner)

end

theorem fieldMirrors_nodes {fields : Keyed Json} {nodes : Option (List Json)}
    (h : readField (readOptional readSequence) none (Keyed.get? fields DocumentField.nodes) =
      .ok nodes) :
    FieldMirrors readSequence DocumentField.nodes .nodes fields
      (expandArrayField x.expand DocumentField.nodes .nodes fields)
      (optionally x.expand nodes) := by
  refine fieldMirrors .nodes h (fun field items hi => ⟨items, ?_⟩) fun items inner _ hi => ?_
  · exact readSequence_eq_ok_iff.mp hi
  · obtain rfl := Json.array.inj (readSequence_eq_ok_iff.mp hi)
    exact x.mirrors_nodes items

theorem fieldMirrors_regions {fields : Keyed Json} {regions : Option (List Region)}
    (hw : ∀ items, Keyed.get? fields DocumentField.regions = some (.array items) →
      ∀ item ∈ items, item.WellFormed)
    (h : readField (readOptional Document.readRegions) none
      (Keyed.get? fields DocumentField.regions) = .ok regions) :
    FieldMirrors Document.readRegions DocumentField.regions .regions fields
      (expandArrayField (x.expandRegionValues 0) DocumentField.regions .regions fields)
      (optionally x.expandRegions regions) := by
  refine fieldMirrors .regions h (fun field inner hi => ?_) fun items inner hf hi => ?_
  · obtain ⟨items, he, -⟩ := Document.readRegions_eq_ok_iff.mp hi
    exact ⟨items, he⟩
  · exact x.mirrors_regions (hw items hf) hi

/-! ## documents -/

/-- **Reading and expanding commute.**  Where a value reads as a document, its expansion reads as the
expansion of that document.  The diagnostics are the same in the same order, but for the misfits that
only the expansion of the value reports: one for `nodes` and one for `regions`, each exactly where the
field is there and `null`. -/
theorem ofJson_expandDocumentValue {value : Json} {doc : Document} (hw : value.WellFormed)
    (h : Document.ofJson value = .ok doc) :
    Document.ofJson (x.expandDocumentValue value).output = .ok (x.expandDocument doc).output ∧
      (x.expandDocument doc).diagnostics =
        (x.expandDocumentValue value).diagnostics.filter (fun d => !d.isMisfit) ∧
      ∀ part, .malformedDocument part ∈ (x.expandDocumentValue value).diagnostics ↔
        part = .nodes ∧ value.field? DocumentField.nodes = some .null ∨
          part = .regions ∧ value.field? DocumentField.regions = some .null := by
  obtain ⟨fields, rfl⟩ := Document.eq_object_of_ofJson h
  rw [Json.WellFormed, Json.wellFormedFields_iff] at hw
  obtain ⟨hd, hfields⟩ := hw
  obtain ⟨hmetadata, hnodes, hregions, hextra⟩ := (Document.ofJson_eq_ok_iff hd).mp h
  -- the nodes are expanded in `fields`, the regions in what comes of that
  let first := expandArrayField x.expand DocumentField.nodes .nodes fields
  let second :=
    expandArrayField (x.expandRegionValues 0) DocumentField.regions .regions first.output
  have hkept : Keyed.get? first.output DocumentField.regions =
      Keyed.get? fields DocumentField.regions := get?_expandArrayField _ _ _ _ (by decide)
  have hn : FieldMirrors readSequence DocumentField.nodes .nodes fields first
      (optionally x.expand doc.nodes) := x.fieldMirrors_nodes hnodes
  have hr : FieldMirrors Document.readRegions DocumentField.regions .regions first.output second
      (optionally x.expandRegions doc.regions) := by
    refine x.fieldMirrors_regions (fun items hf => ?_) (hkept ▸ hregions)
    have hitems := hfields _ (Keyed.mem_of_get? (hkept ▸ hf))
    rwa [Json.WellFormed, Json.wellFormedItems_iff] at hitems
  have hout : (x.expandDocumentValue (.object fields)).output = .object second.output := rfl
  have hdiag : (x.expandDocumentValue (.object fields)).diagnostics =
      first.diagnostics ++ second.diagnostics := rfl
  refine ⟨?_, ?_, fun part => ?_⟩
  · rw [hout, Document.ofJson_eq_ok_iff
      (distinct_expandArrayField _ _ _ _ (distinct_expandArrayField _ _ _ _ hd))]
    refine ⟨?_, ?_, hr.output, ?_⟩
    · rwa [get?_expandArrayField _ _ _ _ (by decide), get?_expandArrayField _ _ _ _ (by decide)]
    · rw [get?_expandArrayField _ _ _ _ (by decide)]
      exact hn.output
    · rwa [without_expandArrayField _ _ _ _ (by decide),
        without_expandArrayField _ _ _ _ (by decide)]
  · rw [hdiag, List.filter_append, ← hn.diagnostics, ← hr.diagnostics]
    rfl
  · rw [hdiag, List.mem_append, hn.misfits, hr.misfits, hkept]
    rfl

/-- a single organ, and that one without placeholders -/
def noticeLookup : Lookup := .ofTable [
  ⟨"notice", none, .object [("type", .string "Text"), ("text", .string "hello")]⟩]

/-- the regions come before the `nodes`, which are `null`; one region has no nodes, and both say more
than a region has to -/
def noticePage : Json := .object [
  ("theme", .string "dark"),
  ("regions", .array [
    .object [("role", .string "banner"), ("id", .string "top"), ("weight", .bool true)],
    .object [("nodes", .array [
        .object [("type", .string "organ"), ("organId", .string "notice")],
        .object [("type", .string "organ"), ("organId", .string "lost")]]),
      ("hidden", .null), ("id", .string "main"), ("role", .string "main")]]),
  ("nodes", .null),
  ("meta", .null)]

def noticeDocument : Document where
  metadata := none
  nodes := none
  regions := some [
    ⟨"top", "banner", [], [("weight", .bool true)]⟩,
    ⟨"main", "main", [
        .object [("type", .string "organ"), ("organId", .string "notice")],
        .object [("type", .string "organ"), ("organId", .string "lost")]],
      [("hidden", .null)]⟩]
  extra := [("theme", .string "dark")]

theorem ofJson_expandDocumentValue_noticePage :
    let x : Expander := ⟨noticeLookup, .authored, {}⟩
    noticePage.WellFormed ∧ Document.ofJson noticePage = .ok noticeDocument ∧
      Document.ofJson (x.expandDocumentValue noticePage).output =
        .ok (x.expandDocument noticeDocument).output ∧
      (x.expandDocumentValue noticePage).diagnostics =
        [.malformedDocument .nodes, .unknownOrgan "lost"] ∧
      (x.expandDocument noticeDocument).diagnostics =
        (x.expandDocumentValue noticePage).diagnostics.filter (fun d => !d.isMisfit) := by
  intro x
  have hw : noticePage.WellFormed := by
    simp [noticePage, Json.WellFormed, Json.WellFormedItems, Json.WellFormedFields, Keyed.Distinct,
      Keyed.keys]
  have hd : Document.ofJson noticePage = .ok noticeDocument := rfl
  obtain ⟨hread, hdiagnostics, -⟩ := ofJson_expandDocumentValue x hw hd
  exact ⟨hw, hd, hread, by decide +kernel, hdiagnostics⟩

end Expander

end Graft
