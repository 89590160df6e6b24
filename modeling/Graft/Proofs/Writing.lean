import Graft.Proofs.Reading

/-!
# What is read is written again

A document that is read and written has its known fields first and then all others in their order, and
so has every region.  Nothing is lost: at the top a `null` is not written, a region without nodes is
written with none, and else the values are the same under the same keys.  What is written reads as the
same document.

* `Keyed.get?_without`, `Keyed.distinct_append_without`   fields behind those of known names;
* `present?`                the value of an optional field, where a `null` counts as absent;
* `RegionWritten`, `RegionsWritten`, `DocumentWritten`   what is written of what has been read;
* `readField_optional_written`   an optional field reads as what it was written for;
* `Region.written_toJson`   a region, read and written;
* `Document.written_toJson`   a document, read and written.
-/

namespace Graft

/-! ## known fields before the others -/

namespace Keyed

universe u

variable {α : Type u}

theorem keys_without (m : Keyed α) (names : List String) :
    keys (m.without names) = (keys m).filter fun key => key ∉ names := by
  unfold keys without
  rw [List.filter_map]
  rfl

theorem get?_without (m : Keyed α) (names : List String) (key : String) :
    get? (m.without names) key = if key ∈ names then none else get? m key := by
  induction m with
  | nil => simp [without_nil, get?]
  | cons entry rest ih =>
    obtain ⟨k, value⟩ := entry
    by_cases hk : k ∈ names
    · rw [without_cons_mem hk, ih]
      by_cases hkey : key ∈ names
      · rw [if_pos hkey, if_pos hkey]
      · have hne : k ≠ key := fun h => hkey (h ▸ hk)
        rw [if_neg hkey, if_neg hkey, get?_cons_ne hne]
    · rw [without_cons_not_mem hk, get?, ih, get?]
      by_cases hkey : k = key
      · rw [if_pos hkey, if_pos hkey, if_neg (hkey ▸ hk)]
      · rw [if_neg hkey, if_neg hkey]

theorem not_mem_keys_without {m : Keyed α} {names : List String} {key : String}
    (h : key ∈ names) : key ∉ keys (m.without names) := by
  rw [← get?_eq_none, get?_without, if_pos h]

section

variable {names : List String} {known m : Keyed α} (hknown : ∀ key ∈ keys known, key ∈ names)

include hknown

theorem get?_append_without (key : String) :
    get? (known ++ m.without names) key =
      if key ∈ names then get? known key else get? m key := by
  rw [get?_append, get?_without]
  by_cases hkey : key ∈ names
  · rw [if_pos hkey, if_pos hkey, Option.or_none]
  · have hnone : get? known key = none := (get?_eq_none known key).mpr fun h => hkey (hknown key h)
    rw [if_neg hkey, if_neg hkey, hnone, Option.none_or]

theorem without_append_without : (known ++ m.without names).without names = m.without names := by
  have hleft : known.without names = [] := by
    unfold without
    rw [List.filter_eq_nil_iff]
    intro entry hentry
    simpa using hknown entry.1 (List.mem_map_of_mem hentry)
  have hright : (m.without names).without names = m.without names := by
    unfold without
    rw [List.filter_filter]
    simp only [Bool.and_self]
  show List.filter _ _ = _
  rw [List.filter_append]
  show known.without names ++ (m.without names).without names = _
  rw [hleft, hright, List.nil_append]

theorem distinct_append_without (hk : known.Distinct) (hm : m.Distinct) :
    (known ++ m.without names).Distinct := by
  unfold Distinct
  rw [keys_append, List.nodup_append]
  refine ⟨hk, ?_, fun a ha b hb h => ?_⟩
  · rw [keys_without]
    exact List.Nodup.sublist List.filter_sublist hm
  · exact not_mem_keys_without (hknown a ha) (h ▸ hb)

end

end Keyed

/-! ## optional fields -/

/-- the value of a field that counts as absent when it is `null` -/
def present? (field : Option Json) : Option Json := field.filter fun value => value ≠ .null

theorem present?_of_ne {value : Json} (h : value ≠ .null) : present? (some value) = some value := by
  simp [present?, h]

section

variable {α : Type} {read : Json → Except DocumentError α}

theorem readField_optional_eq_some {field : Option Json} {a : α} :
    readField (readOptional read) none field = .ok (some a) ↔
      ∃ json, field = some json ∧ json ≠ .null ∧ read json = .ok a := by
  cases field with
  | none => simp [readField]
  | some json => simp [readField, readOptional_eq_ok_some]

theorem readField_optional_eq_none {field : Option Json} :
    readField (readOptional read) none field = .ok none ↔ present? field = none := by
  cases field with
  | none => exact iff_of_true rfl rfl
  | some json => simp [readField, readOptional_eq_ok_none, present?]

/-- what is written for an optional field is to be compared with what is present of it -/
theorem rel_present? {R : Json → Json → Prop} {write : α → Json} {field : Option Json}
    {value : Option α} (h : readField (readOptional read) none field = .ok value)
    (hR : ∀ json a, field = some json → read json = .ok a → R json (write a)) :
    Option.Rel R (present? field) (value.map write) := by
  cases value with
  | none =>
    rw [readField_optional_eq_none.mp h]
    exact .none
  | some a =>
    obtain ⟨json, rfl, hjson, hread⟩ := readField_optional_eq_some.mp h
    rw [present?_of_ne hjson]
    exact .some (hR json a rfl hread)

theorem readField_optional_written {write : α → Json} {value : Option α}
    (h : ∀ a, value = some a → write a ≠ .null ∧ read (write a) = .ok a) :
    readField (readOptional read) none (value.map write) = .ok value := by
  cases value with
  | none => rfl
  | some a => exact readOptional_eq_ok_some.mpr (h a rfl)

end

theorem isSome_eq_of_rel {R : Json → Json → Prop} {a b : Option Json} (h : Option.Rel R a b) :
    a.isSome = b.isSome := by
  cases h <;> rfl

theorem eq_of_rel {α : Type} {a b : Option α} (h : Option.Rel Eq a b) : a = b := by
  cases h with
  | none => rfl
  | some h => rw [h]

theorem keys_optionalField (key : String) (value : Option Json) :
    Keyed.keys (optionalField key value) = if value.isSome then [key] else [] := by
  cases value <;> rfl

theorem get?_optionalField (key k : String) (value : Option Json) :
    Keyed.get? (optionalField key value) k = if key = k then value else none := by
  cases value with
  | none => simp [optionalField, Keyed.get?]
  | some value => rfl

/-! ## what is written -/

/-- the known fields first, the nodes in any case, and all else as it was -/
inductive RegionWritten : Json → Json → Prop where
  | object {before after}
      (keys : Keyed.keys after =
        Region.fieldNames ++ (Keyed.keys before).filter fun key => key ∉ Region.fieldNames)
      (nodes : Keyed.get? after DocumentField.nodes =
        some ((Keyed.get? before DocumentField.nodes).getD (.array [])))
      (rest : ∀ key ≠ DocumentField.nodes, Keyed.get? after key = Keyed.get? before key) :
      RegionWritten (.object before) (.object after)

inductive RegionsWritten : Json → Json → Prop where
  | array {before after} (h : List.Forall₂ RegionWritten before after) :
      RegionsWritten (.array before) (.array after)

/-- the known fields first, as far as they are there and not `null`, and all else as it was -/
inductive DocumentWritten : Json → Json → Prop where
  | object {before after}
      (keys : Keyed.keys after =
        (Document.fieldNames.filter fun key => (present? (Keyed.get? before key)).isSome) ++
          (Keyed.keys before).filter fun key => key ∉ Document.fieldNames)
      (regions : Option.Rel RegionsWritten (present? (Keyed.get? before DocumentField.regions))
        (Keyed.get? after DocumentField.regions))
      (known : ∀ key ∈ [DocumentField.metadata, DocumentField.nodes],
        Keyed.get? after key = present? (Keyed.get? before key))
      (rest : ∀ key ∉ Document.fieldNames, Keyed.get? after key = Keyed.get? before key) :
      DocumentWritten (.object before) (.object after)

/-! ## regions -/

namespace Region

/-- the fields of known names -/
def known (region : Region) : Keyed Json :=
  [(DocumentField.id, .string region.id), (DocumentField.role, .string region.role),
    (DocumentField.nodes, .array region.nodes)]

theorem keys_known (region : Region) : Keyed.keys region.known = fieldNames := rfl

theorem toJson_eq (region : Region) : region.toJson = .object (region.known ++ region.extra) := rfl

variable {fields : Keyed Json} {region : Region}

theorem nodes_of_readField (h : readField readSequence [] (Keyed.get? fields DocumentField.nodes) =
    .ok region.nodes) :
    (Keyed.get? fields DocumentField.nodes).getD (.array []) = .array region.nodes := by
  cases hf : Keyed.get? fields DocumentField.nodes with
  | none =>
    rw [hf, readField_none, Except.ok.injEq] at h
    rw [Option.getD_none, h]
  | some value =>
    rw [hf, readField_some, readSequence_eq_ok_iff] at h
    rw [Option.getD_some, h]

theorem written_toJson (hd : fields.Distinct) (h : ofJson (.object fields) = .ok region) :
    RegionWritten (.object fields) region.toJson ∧ ofJson region.toJson = .ok region := by
  obtain ⟨hid, hrole, hnodes, hextra⟩ := (ofJson_eq_ok_iff hd).mp h
  have hknown : ∀ key ∈ Keyed.keys region.known, key ∈ fieldNames := fun key hkey => hkey
  have hget := Keyed.get?_append_without (m := fields) hknown
  rw [toJson_eq, hextra]
  constructor
  · refine .object ?_ ?_ fun key hkey => ?_
    · rw [Keyed.keys_append, keys_known, Keyed.keys_without]
    · rw [hget, if_pos (by decide), nodes_of_readField hnodes]
      rfl
    · rw [hget]
      by_cases hmem : key ∈ fieldNames
      · rw [if_pos hmem]
        simp only [fieldNames, List.mem_cons, List.not_mem_nil, or_false] at hmem
        obtain rfl | rfl | rfl := hmem
        · exact hid.symm
        · exact hrole.symm
        · exact absurd rfl hkey
      · rw [if_neg hmem]
  · have hnames : Keyed.Distinct region.known := show fieldNames.Nodup by decide
    have hdistinct := Keyed.distinct_append_without hknown hnames hd
    refine (ofJson_eq_ok_iff hdistinct).mpr ⟨?_, ?_, ?_, ?_⟩
    · rw [hget, if_pos (by decide)]
      rfl
    · rw [hget, if_pos (by decide)]
      rfl
    · rw [hget, if_pos (by decide)]
      rfl
    · rw [Keyed.without_append_without hknown, hextra]

theorem forall₂_written {items : List Json} {regions : List Region}
    (hw : ∀ item ∈ items, item.WellFormed)
    (h : List.Forall₂ (fun item region => ofJson item = .ok region) items regions) :
    List.Forall₂ RegionWritten items (regions.map toJson) ∧
      List.Forall₂ (fun item region => ofJson item = .ok region) (regions.map toJson) regions := by
  induction h with
  | nil => exact ⟨.nil, .nil⟩
  | @cons item region items regions hread _ ih =>
    obtain ⟨hrest, hrest'⟩ := ih fun item hitem => hw item (List.mem_cons_of_mem _ hitem)
    obtain ⟨fields, rfl⟩ := eq_object_of_ofJson hread
    obtain ⟨hfirst, hfirst'⟩ := written_toJson (hw _ List.mem_cons_self).distinct hread
    exact ⟨.cons hfirst hrest, .cons hfirst' hrest'⟩

end Region

/-! ## documents -/

namespace Document

theorem readRegions_written {value : Json} {regions : List Region} (hw : value.WellFormed)
    (h : readRegions value = .ok regions) :
    RegionsWritten value (.array (regions.map Region.toJson)) ∧
      readRegions (.array (regions.map Region.toJson)) = .ok regions := by
  obtain ⟨items, rfl, hread⟩ := readRegions_eq_ok_iff.mp h
  obtain ⟨hwritten, hback⟩ := Region.forall₂_written hw.of_mem hread
  exact ⟨.array hwritten, readRegions_eq_ok_iff.mpr ⟨_, rfl, hback⟩⟩

/-- the fields of known names -/
def known (doc : Document) : Keyed Json :=
  optionalField DocumentField.metadata doc.metadata ++
    optionalField DocumentField.nodes (doc.nodes.map .array) ++
    optionalField DocumentField.regions (doc.regions.map fun rs => .array (rs.map Region.toJson))

theorem toJson_eq (doc : Document) : doc.toJson = .object (doc.known ++ doc.extra) := rfl

section

variable (doc : Document)

theorem keys_known : Keyed.keys doc.known =
    (if doc.metadata.isSome then [DocumentField.metadata] else []) ++
      (if doc.nodes.isSome then [DocumentField.nodes] else []) ++
      (if doc.regions.isSome then [DocumentField.regions] else []) := by
  simp only [known, Keyed.keys_append, keys_optionalField, Option.isSome_map]

theorem keys_known_sublist : (Keyed.keys doc.known).Sublist fieldNames := by
  rw [keys_known]
  cases doc.metadata.isSome <;> cases doc.nodes.isSome <;> cases doc.regions.isSome <;> decide

theorem get?_known_metadata : Keyed.get? doc.known DocumentField.metadata = doc.metadata := by
  rw [known, Keyed.get?_append, Keyed.get?_append, get?_optionalField, get?_optionalField,
    get?_optionalField, if_pos rfl, if_neg (by decide), if_neg (by decide), Option.or_none,
    Option.or_none]

theorem get?_known_nodes :
    Keyed.get? doc.known DocumentField.nodes = doc.nodes.map .array := by
  rw [known, Keyed.get?_append, Keyed.get?_append, get?_optionalField, get?_optionalField,
    get?_optionalField, if_neg (by decide), if_pos rfl, if_neg (by decide), Option.none_or,
    Option.or_none]

theorem get?_known_regions : Keyed.get? doc.known DocumentField.regions =
    doc.regions.map fun rs => .array (rs.map Region.toJson) := by
  rw [known, Keyed.get?_append, Keyed.get?_append, get?_optionalField, get?_optionalField,
    get?_optionalField, if_neg (by decide), if_neg (by decide), if_pos rfl, Option.none_or,
    Option.none_or]

theorem mem_fieldNames_of_known : ∀ key ∈ Keyed.keys doc.known, key ∈ fieldNames :=
  fun _ hkey => doc.keys_known_sublist.subset hkey

end

variable {fields : Keyed Json} {doc : Document}

theorem documentWritten_toJson (hw : (Json.object fields).WellFormed)
    (h : ofJson (.object fields) = .ok doc) : DocumentWritten (.object fields) doc.toJson := by
  obtain ⟨hmetadata, hnodes, hregions, hextra⟩ := (ofJson_eq_ok_iff hw.distinct).mp h
  have hmetadata' : Option.Rel Eq (present? (Keyed.get? fields DocumentField.metadata))
      (doc.metadata.map id) := rel_present? hmetadata fun json a _ hread => Except.ok.inj hread
  have hnodes' : Option.Rel Eq (present? (Keyed.get? fields DocumentField.nodes))
      (doc.nodes.map .array) :=
    rel_present? hnodes fun json items _ hread => readSequence_eq_ok_iff.mp hread
  have hregions' : Option.Rel RegionsWritten (present? (Keyed.get? fields DocumentField.regions))
      (doc.regions.map fun rs => .array (rs.map Region.toJson)) :=
    rel_present? hregions fun json rs hjson hread => (readRegions_written (hw.of_get? hjson) hread).1
  have hget := Keyed.get?_append_without (m := fields) doc.mem_fieldNames_of_known
  have hextra : doc.extra = fields.without fieldNames := hextra
  rw [toJson_eq, hextra]
  refine .object ?_ ?_ ?_ fun key hkey => ?_
  · rw [Keyed.keys_append, Keyed.keys_without, keys_known]
    -- each known field is written exactly if it is present
    refine congrArg (· ++ _) ?_
    simp only [fieldNames, List.filter_cons, List.filter_nil, isSome_eq_of_rel hmetadata',
      isSome_eq_of_rel hnodes', isSome_eq_of_rel hregions', Option.isSome_map]
    cases doc.metadata.isSome <;> cases doc.nodes.isSome <;> cases doc.regions.isSome <;> rfl
  · rw [hget, if_pos (by decide), get?_known_regions]
    exact hregions'
  · rw [List.forall_mem_cons, List.forall_mem_singleton, hget, hget, if_pos (by decide),
      if_pos (by decide), get?_known_metadata, get?_known_nodes, eq_of_rel hnodes',
      eq_of_rel hmetadata', Option.map_id]
    exact ⟨rfl, rfl⟩
  · rw [hget, if_neg hkey]

theorem ofJson_toJson (hw : (Json.object fields).WellFormed)
    (h : ofJson (.object fields) = .ok doc) : ofJson doc.toJson = .ok doc := by
  obtain ⟨hmetadata, hnodes, hregions, hextra⟩ := (ofJson_eq_ok_iff hw.distinct).mp h
  have hextra : doc.extra = fields.without fieldNames := hextra
  have hknown := doc.mem_fieldNames_of_known
  have hget := Keyed.get?_append_without (m := fields) hknown
  have hnames : Keyed.Distinct doc.known :=
    List.Nodup.sublist doc.keys_known_sublist (show fieldNames.Nodup by decide)
  have hdistinct := Keyed.distinct_append_without hknown hnames hw.distinct
  rw [toJson_eq, hextra]
  refine (ofJson_eq_ok_iff hdistinct).mpr ⟨?_, ?_, ?_, ?_⟩
  · have hwritten : readField (readOptional .ok) none (doc.metadata.map id) = .ok doc.metadata := by
      refine readField_optional_written fun a ha => ?_
      obtain ⟨json, _, hjson, hread⟩ := readField_optional_eq_some.mp (ha ▸ hmetadata)
      rw [Except.ok.inj hread] at hjson
      exact ⟨hjson, rfl⟩
    rw [hget, if_pos (by decide), get?_known_metadata]
    rwa [Option.map_id_apply] at hwritten
  · rw [hget, if_pos (by decide), get?_known_nodes]
    exact readField_optional_written fun items _ => ⟨by simp, rfl⟩
  · rw [hget, if_pos (by decide), get?_known_regions]
    refine readField_optional_written fun rs hrs => ⟨by simp, ?_⟩
    obtain ⟨json, hjson, _, hread⟩ := readField_optional_eq_some.mp (hrs ▸ hregions)
    exact (readRegions_written (hw.of_get? hjson) hread).2
  · rw [Keyed.without_append_without hknown, hextra]
    rfl

/-- **What is read is written again.**  What is written of a document that was read reads as the same
document, so reading and writing once more changes nothing.  It is what was read, up to the order of
fields in the document and its regions, where the known ones now come first: only a `null` for one of
the document's own is gone, and a region without nodes has an empty list of them. -/
theorem written_of_ofJson {value : Json} {doc : Document} (hw : value.WellFormed)
    (h : ofJson value = .ok doc) :
    ofJson doc.toJson = .ok doc ∧ DocumentWritten value doc.toJson ∧
      (ofJson doc.toJson).map toJson = .ok doc.toJson := by
  obtain ⟨fields, rfl⟩ := eq_object_of_ofJson h
  have hback := ofJson_toJson hw h
  refine ⟨hback, documentWritten_toJson hw h, ?_⟩
  rw [hback]
  rfl

/-- no field is where it is written; the `nodes` are `null`, and one region has none -/
def albumPage : Json := .object [
  ("theme", .string "dark"),
  ("regions", .array [
    .object [("weight", .bool true), ("role", .string "banner"), ("id", .string "top")],
    .object [("nodes", .array [.null]), ("hidden", .null), ("role", .string "main"),
      ("id", .string "main")]]),
  ("nodes", .null),
  ("pages", .null),
  ("meta", .bool false)]

def albumDocument : Document where
  metadata := some (.bool false)
  nodes := none
  regions := some [
    ⟨"top", "banner", [], [("weight", .bool true)]⟩,
    ⟨"main", "main", [.null], [("hidden", .null)]⟩]
  extra := [("theme", .string "dark"), ("pages", .null)]

theorem written_of_ofJson_albumPage :
    albumPage.WellFormed ∧ ofJson albumPage = .ok albumDocument ∧
      ofJson albumDocument.toJson = .ok albumDocument ∧
      DocumentWritten albumPage albumDocument.toJson ∧
      (ofJson albumDocument.toJson).map toJson = .ok albumDocument.toJson := by
  have hw : albumPage.WellFormed := by
    simp [albumPage, Json.WellFormed, Json.WellFormedItems, Json.WellFormedFields, Keyed.Distinct,
      Keyed.keys]
  have hd : ofJson albumPage = .ok albumDocument := rfl
  exact ⟨hw, hd, written_of_ofJson hw hd⟩

end Document

end Graft
