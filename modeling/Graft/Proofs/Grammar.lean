import Graft.Proofs.Reading

/-!
# What a document must look like

Reading accepts exactly the values of a grammar, which speaks of the values under the known keys and
of no order.  Where a value is refused, the order does count: fields are read as they are written and
regions from the left, and the first defect is the error.  A field that a region misses is found out
last, when all fields that are there have been read.

* `FirstDefect`                    all before it fits, and it does not;
* `foldlM_error_iff`, `mapM_error_iff`   steps that may fail stop at the first defect;
* `Region.Valid`, `Document.Valid`       the grammar;
* `Region.Defect`, `Document.Defect`     what is wrong first;
* `Region.ofJson_ok_iff`, `Region.ofJson_error_iff`       regions, accepted or refused;
* `Document.ofJson_ok_iff`, `Document.ofJson_error_iff`   documents, accepted or refused.
-/

namespace Graft

/-! ## the first defect -/

section

variable {α : Type} {fits : α → Prop} {defect : α → DocumentError → Prop} {item : α}
  {items rest : List α} {e : DocumentError}

/-- some item has the defect, and all items before it fit -/
def FirstDefect (fits : α → Prop) (defect : α → DocumentError → Prop) (items : List α)
    (e : DocumentError) : Prop :=
  ∃ before item after, items = before ++ item :: after ∧ (∀ b ∈ before, fits b) ∧ defect item e

theorem firstDefect_nil : ¬ FirstDefect fits defect [] e := by
  rintro ⟨before, item, after, hitems, _⟩
  cases before <;> exact nomatch hitems

theorem firstDefect_cons : FirstDefect fits defect (item :: rest) e ↔
    defect item e ∨ fits item ∧ FirstDefect fits defect rest e := by
  constructor
  · rintro ⟨before, bad, after, hitems, hbefore, hbad⟩
    cases before with
    | nil =>
      obtain ⟨rfl, rfl⟩ := List.cons.inj hitems
      exact .inl hbad
    | cons first before =>
      obtain ⟨rfl, rfl⟩ := List.cons.inj hitems
      obtain ⟨hfirst, hbefore⟩ := List.forall_mem_cons.mp hbefore
      exact .inr ⟨hfirst, before, bad, after, rfl, hbefore, hbad⟩
  · rintro (hbad | ⟨hfirst, before, bad, after, rfl, hbefore, hbad⟩)
    · exact ⟨[], item, rest, rfl, fun b hb => absurd hb List.not_mem_nil, hbad⟩
    · exact ⟨item :: before, bad, after, rfl, List.forall_mem_cons.mpr ⟨hfirst, hbefore⟩, hbad⟩

end

/-! ## steps that may fail -/

section

variable {ε α β σ : Type}

theorem bind_eq_error_iff {x : Except ε α} {f : α → Except ε β} {e : ε} :
    x.bind f = .error e ↔ x = .error e ∨ ∃ a, x = .ok a ∧ f a = .error e := by
  cases x <;> simp [Except.bind]

theorem map_eq_error_iff {f : α → β} {x : Except ε α} {e : ε} :
    x.map f = .error e ↔ x = .error e := by
  cases x <;> simp [Except.map]

theorem exists_map_ok_iff {f : α → β} {x : Except ε α} :
    (∃ b, x.map f = .ok b) ↔ ∃ a, x = .ok a := by
  cases x <;> simp [Except.map]

variable {fits : α → Prop} {defect : α → DocumentError → Prop} {items : List α}

/-- what each step does depends on its item alone -/
structure StepsBy (fits : α → Prop) (defect : α → DocumentError → Prop)
    (step : σ → α → Except DocumentError σ) (item : α) : Prop where
  ok : ∀ s, (∃ s', step s item = .ok s') ↔ fits item
  error : ∀ s e, step s item = .error e ↔ defect item e

variable {step : σ → α → Except DocumentError σ}

theorem foldlM_ok_iff (h : ∀ item ∈ items, StepsBy fits defect step item) (s : σ) :
    (∃ s', items.foldlM step s = .ok s') ↔ ∀ item ∈ items, fits item := by
  induction items generalizing s with
  | nil => exact ⟨fun _ _ h => absurd h List.not_mem_nil, fun _ => ⟨s, rfl⟩⟩
  | cons item rest ih =>
    obtain ⟨hitem, hrest⟩ := List.forall_mem_cons.mp h
    rw [List.foldlM_cons, List.forall_mem_cons, ← hitem.ok s]
    constructor
    · rintro ⟨last, hlast⟩
      obtain ⟨next, hnext, hlast⟩ := bind_eq_ok_iff.mp hlast
      exact ⟨⟨next, hnext⟩, (ih hrest next).mp ⟨last, hlast⟩⟩
    · rintro ⟨⟨next, hnext⟩, hfit⟩
      obtain ⟨last, hlast⟩ := (ih hrest next).mpr hfit
      exact ⟨last, bind_eq_ok_iff.mpr ⟨next, hnext, hlast⟩⟩

theorem foldlM_error_iff (h : ∀ item ∈ items, StepsBy fits defect step item) (s : σ)
    (e : DocumentError) : items.foldlM step s = .error e ↔ FirstDefect fits defect items e := by
  induction items generalizing s with
  | nil => exact iff_of_false (fun h => nomatch h) firstDefect_nil
  | cons item rest ih =>
    obtain ⟨hitem, hrest⟩ := List.forall_mem_cons.mp h
    rw [List.foldlM_cons, firstDefect_cons, ← hitem.error s, ← hitem.ok s]
    -- where the item fits, the state it leaves makes no difference to what fails later
    refine bind_eq_error_iff.trans (or_congr_right ?_)
    simp only [ih hrest, exists_and_right]

theorem mapM_ok_iff {f : α → Except DocumentError β}
    (h : ∀ item ∈ items, (∃ b, f item = .ok b) ↔ fits item) :
    (∃ bs, items.mapM f = .ok bs) ↔ ∀ item ∈ items, fits item := by
  induction items with
  | nil => exact ⟨fun _ _ h => absurd h List.not_mem_nil, fun _ => ⟨[], rfl⟩⟩
  | cons item rest ih =>
    obtain ⟨hitem, hrest⟩ := List.forall_mem_cons.mp h
    rw [List.mapM_cons, List.forall_mem_cons, ← hitem, ← ih hrest]
    constructor
    · rintro ⟨bs, hbs⟩
      obtain ⟨b, hb, hbs⟩ := bind_eq_ok_iff.mp hbs
      obtain ⟨others, hothers, _⟩ := bind_eq_ok_iff.mp hbs
      exact ⟨⟨b, hb⟩, others, hothers⟩
    · rintro ⟨⟨b, hb⟩, others, hothers⟩
      exact ⟨b :: others, bind_eq_ok_iff.mpr ⟨b, hb, bind_eq_ok_iff.mpr ⟨others, hothers, rfl⟩⟩⟩

theorem mapM_error_iff {f : α → Except DocumentError β}
    (h : ∀ item ∈ items, ((∃ b, f item = .ok b) ↔ fits item) ∧
      ∀ e, f item = .error e ↔ defect item e) (e : DocumentError) :
    items.mapM f = .error e ↔ FirstDefect fits defect items e := by
  induction items with
  | nil => exact iff_of_false (fun h => nomatch h) firstDefect_nil
  | cons item rest ih =>
    obtain ⟨⟨hok, herror⟩, hrest⟩ := List.forall_mem_cons.mp h
    rw [List.mapM_cons, firstDefect_cons, ← herror, ← hok, ← ih hrest]
    refine bind_eq_error_iff.trans (or_congr_right ?_)
    rw [← exists_and_right]
    refine exists_congr fun b => and_congr_right fun _ => ?_
    -- putting the results together cannot fail
    refine bind_eq_error_iff.trans (or_iff_left ?_)
    rintro ⟨bs, _, hbs⟩
    exact nomatch hbs

end

/-! ## leaves -/

theorem readString_ok_iff {value : Json} :
    (∃ s, readString value = .ok s) ↔ value.kind = .string := by
  cases value <;> simp [readString, Json.kind]

theorem readString_error_iff {value : Json} {e : DocumentError} :
    readString value = .error e ↔ value.kind ≠ .string ∧ e = .invalidType value .string := by
  cases value <;> simp [readString, Json.kind, eq_comm]

theorem readSequence_ok_iff {value : Json} :
    (∃ items, readSequence value = .ok items) ↔ value.kind = .array := by
  cases value <;> simp [readSequence, Json.kind]

theorem readSequence_error_iff {value : Json} {e : DocumentError} :
    readSequence value = .error e ↔ value.kind ≠ .array ∧ e = .invalidType value .sequence := by
  cases value <;> simp [readSequence, Json.kind, eq_comm]

theorem readOptional_ok_iff {α : Type} {read : Json → Except DocumentError α} {value : Json} :
    (∃ a, readOptional read value = .ok a) ↔ value = .null ∨ ∃ a, read value = .ok a := by
  cases value <;> simp [readOptional, exists_map_ok_iff]

theorem readOptional_error_iff {α : Type} {read : Json → Except DocumentError α} {value : Json}
    {e : DocumentError} :
    readOptional read value = .error e ↔ value ≠ .null ∧ read value = .error e := by
  cases value <;> simp [readOptional, map_eq_error_iff]

theorem Json.kind_eq_array_iff {value : Json} :
    value.kind = .array ↔ ∃ items, value = .array items := by
  cases value <;> simp [Json.kind]

/-! ## regions -/

namespace Region

/-- a region has an id and a role, and its nodes are absent or an array -/
structure Valid (value : Json) : Prop where
  object : value.kind = .object
  id : ∃ s, value.field? DocumentField.id = some (.string s)
  role : ∃ s, value.field? DocumentField.role = some (.string s)
  nodes : ∀ found, value.field? DocumentField.nodes = some found → ∃ items, found = .array items

/-- a field that can be read -/
structure Fits (field : String × Json) : Prop where
  name : field.1 ∈ [DocumentField.id, DocumentField.role] → field.2.kind = .string
  nodes : field.1 = DocumentField.nodes → field.2.kind = .array

/-- what is wrong with a field that cannot -/
inductive FieldDefect (field : String × Json) : DocumentError → Prop
  | name : field.1 ∈ [DocumentField.id, DocumentField.role] → field.2.kind ≠ .string →
      FieldDefect field (.invalidType field.2 .string)
  | nodes : field.1 = DocumentField.nodes → field.2.kind ≠ .array →
      FieldDefect field (.invalidType field.2 .sequence)

/-- what is wrong first; a field is missed when all that are there fit -/
inductive Defect : Json → DocumentError → Prop
  | notObject {value : Json} : value.kind ≠ .object → Defect value (.invalidType value .region)
  | field {fields : Keyed Json} {e : DocumentError} :
      FirstDefect Fits FieldDefect fields e → Defect (.object fields) e
  | noId {fields : Keyed Json} : (∀ field ∈ fields, Fits field) →
      DocumentField.id ∉ Keyed.keys fields →
      Defect (.object fields) (.missingField DocumentField.id)
  | noRole {fields : Keyed Json} : (∀ field ∈ fields, Fits field) →
      DocumentField.id ∈ Keyed.keys fields → DocumentField.role ∉ Keyed.keys fields →
      Defect (.object fields) (.missingField DocumentField.role)

section

variable {key : String} {value : Json} {e : DocumentError}

theorem nodes_not_name :
    DocumentField.nodes ∉ [DocumentField.id, DocumentField.role] := by decide

theorem fits_name (h : key ∈ [DocumentField.id, DocumentField.role]) :
    Fits (key, value) ↔ value.kind = .string := by
  refine ⟨fun hfit => hfit.name h, fun hkind => ⟨fun _ => hkind, ?_⟩⟩
  rintro rfl
  exact absurd h nodes_not_name

theorem fits_nodes : Fits (DocumentField.nodes, value) ↔ value.kind = .array :=
  ⟨fun hfit => hfit.nodes rfl, fun hkind => ⟨fun h => absurd h nodes_not_name, fun _ => hkind⟩⟩

theorem fits_other (h : key ∉ fieldNames) : Fits (key, value) := by
  simp only [fieldNames, List.mem_cons, List.not_mem_nil, or_false, not_or] at h
  refine ⟨fun hname => ?_, fun hnodes => absurd hnodes h.2.2⟩
  simp only [List.mem_cons, List.not_mem_nil, or_false] at hname
  exact absurd hname (not_or.mpr ⟨h.1, h.2.1⟩)

theorem fieldDefect_name (h : key ∈ [DocumentField.id, DocumentField.role]) :
    FieldDefect (key, value) e ↔ value.kind ≠ .string ∧ e = .invalidType value .string := by
  constructor
  · rintro (⟨_, hkind⟩ | ⟨rfl, _⟩)
    · exact ⟨hkind, rfl⟩
    · exact absurd h nodes_not_name
  · rintro ⟨hkind, rfl⟩
    exact .name h hkind

theorem fieldDefect_nodes : FieldDefect (DocumentField.nodes, value) e ↔
    value.kind ≠ .array ∧ e = .invalidType value .sequence := by
  constructor
  · rintro (⟨hname, _⟩ | ⟨_, hkind⟩)
    · exact absurd hname nodes_not_name
    · exact ⟨hkind, rfl⟩
  · rintro ⟨hkind, rfl⟩
    exact .nodes rfl hkind

theorem not_fieldDefect_other (h : key ∉ fieldNames) : ¬ FieldDefect (key, value) e := by
  rintro (⟨hname, _⟩ | ⟨rfl, _⟩)
  · exact h (List.mem_append_left [DocumentField.nodes] hname)
  · exact h (by decide)

end

namespace Draft

theorem readAll_eq_foldlM (draft : Draft) (fields : Keyed Json) :
    draft.readAll fields = fields.foldlM (fun draft field => draft.read field.1 field.2) draft := by
  induction fields generalizing draft with
  | nil => rfl
  | cons field rest ih =>
    rw [List.foldlM_cons, readAll, funext ih]
    rfl

theorem read_stepsBy (field : String × Json) :
    StepsBy Fits FieldDefect (fun draft field => Draft.read draft field.1 field.2) field := by
  obtain ⟨key, value⟩ := field
  by_cases hk : key ∈ fieldNames
  · simp only [fieldNames, List.mem_cons, List.not_mem_nil, or_false] at hk
    have hname : DocumentField.id ∈ [DocumentField.id, DocumentField.role] := by decide
    have hname' : DocumentField.role ∈ [DocumentField.id, DocumentField.role] := by decide
    obtain rfl | rfl | rfl := hk
    · refine ⟨fun draft => ?_, fun draft e => ?_⟩
      · rw [fits_name hname, read_id, exists_map_ok_iff, readString_ok_iff]
      · rw [fieldDefect_name hname, read_id, map_eq_error_iff, readString_error_iff]
    · refine ⟨fun draft => ?_, fun draft e => ?_⟩
      · rw [fits_name hname', read_role, exists_map_ok_iff, readString_ok_iff]
      · rw [fieldDefect_name hname', read_role, map_eq_error_iff, readString_error_iff]
    · refine ⟨fun draft => ?_, fun draft e => ?_⟩
      · rw [fits_nodes, read_nodes, exists_map_ok_iff, readSequence_ok_iff]
      · rw [fieldDefect_nodes, read_nodes, map_eq_error_iff, readSequence_error_iff]
  · refine ⟨fun draft => ?_, fun draft e => ?_⟩
    · exact iff_of_true ⟨_, read_of_not_mem draft value hk⟩ (fits_other hk)
    · refine iff_of_false (fun h => ?_) (not_fieldDefect_other hk)
      cases (read_of_not_mem draft value hk).symm.trans h

theorem readAll_ok_iff (draft : Draft) (fields : Keyed Json) :
    (∃ draft', draft.readAll fields = .ok draft') ↔ ∀ field ∈ fields, Fits field := by
  rw [readAll_eq_foldlM]
  exact foldlM_ok_iff (fun field _ => read_stepsBy field) draft

theorem readAll_error_iff (draft : Draft) (fields : Keyed Json) (e : DocumentError) :
    draft.readAll fields = .error e ↔ FirstDefect Fits FieldDefect fields e := by
  rw [readAll_eq_foldlM]
  exact foldlM_error_iff (fun field _ => read_stepsBy field) draft e

theorem finish_error_iff (draft : Draft) (e : DocumentError) :
    draft.finish = .error e ↔
      draft.id = none ∧ e = .missingField DocumentField.id ∨
        draft.id ≠ none ∧ draft.role = none ∧ e = .missingField DocumentField.role := by
  obtain ⟨id, role, nodes, extra⟩ := draft
  cases id <;> cases role <;> simp [finish, eq_comm]

/-- a name has been read exactly if there is a field for it -/
theorem readField_name_eq_none {field : Option Json} {name : Option String}
    (h : readField (fun value => (readString value).map some) none field = .ok name) :
    name = none ↔ field = none := by
  cases field with
  | none =>
    obtain rfl := Except.ok.inj h
    exact iff_of_true rfl rfl
  | some value =>
    obtain ⟨s, _, rfl⟩ := map_eq_ok_iff.mp h
    exact iff_of_false (Option.some_ne_none s) (Option.some_ne_none value)

end Draft

theorem ofJson_not_object {value : Json} (h : value.kind ≠ .object) :
    ofJson value = .error (.invalidType value .region) := by
  cases value with
  | object fields => exact absurd rfl h
  | _ => rfl

/-- when all fields have been read, the id and then the role may be missed -/
theorem finish_readAll {fields : Keyed Json} (hd : fields.Distinct) {draft : Draft}
    (h : Draft.readAll {} fields = .ok draft) (e : DocumentError) :
    draft.finish = .error e ↔
      DocumentField.id ∉ Keyed.keys fields ∧ e = .missingField DocumentField.id ∨
        DocumentField.id ∈ Keyed.keys fields ∧ DocumentField.role ∉ Keyed.keys fields ∧
          e = .missingField DocumentField.role := by
  obtain ⟨hid, hrole, _, _⟩ := (Draft.readAll_eq_ok_iff {} fields draft hd).mp h
  rw [Draft.finish_error_iff, ne_eq, Draft.readField_name_eq_none hid,
    Draft.readField_name_eq_none hrole, Keyed.get?_eq_none, Keyed.get?_eq_none, not_not]

theorem ofJson_error_iff {value : Json} (hw : value.WellFormed) (e : DocumentError) :
    ofJson value = .error e ↔ Defect value e := by
  by_cases hobject : value.kind = .object
  · obtain ⟨fields, rfl⟩ := Json.kind_eq_object_iff.mp hobject
    have hfinish := fun draft (h : Draft.readAll {} fields = .ok draft) =>
      finish_readAll hw.distinct h e
    -- a field stops the reading, or all have been read and one is missed
    rw [ofJson, bind_eq_error_iff, Draft.readAll_error_iff]
    constructor
    · rintro (hfield | ⟨draft, hdraft, hmissed⟩)
      · exact .field hfield
      · have hfit := (Draft.readAll_ok_iff {} fields).mp ⟨draft, hdraft⟩
        rcases (hfinish draft hdraft).mp hmissed with ⟨hid, rfl⟩ | ⟨hid, hrole, rfl⟩
        · exact .noId hfit hid
        · exact .noRole hfit hid hrole
    · rintro (hother | hfield | ⟨hfit, hid⟩ | ⟨hfit, hid, hrole⟩)
      · exact absurd rfl hother
      · exact .inl hfield
      · obtain ⟨draft, hdraft⟩ := (Draft.readAll_ok_iff {} fields).mpr hfit
        exact .inr ⟨draft, hdraft, (hfinish draft hdraft).mpr (.inl ⟨hid, rfl⟩)⟩
      · obtain ⟨draft, hdraft⟩ := (Draft.readAll_ok_iff {} fields).mpr hfit
        exact .inr ⟨draft, hdraft, (hfinish draft hdraft).mpr (.inr ⟨hid, hrole, rfl⟩)⟩
  · rw [ofJson_not_object hobject]
    constructor
    · intro h
      obtain rfl := Except.error.inj h
      exact .notObject hobject
    · intro h
      cases h with
      | notObject _ => rfl
      | _ => exact absurd rfl hobject

theorem readField_nodes_iff {field : Option Json} {nodes : List Json} :
    readField readSequence [] field = .ok nodes ↔
      (∀ found, field = some found → ∃ items, found = .array items) ∧
        nodes = (field.bind Json.array?).getD [] := by
  cases field with
  | none => simp [readField, eq_comm]
  | some found => cases found <;> simp [readField, readSequence, Json.array?, eq_comm]

theorem ofJson_ok_iff {value : Json} (hw : value.WellFormed) :
    (∃ region, ofJson value = .ok region) ↔ Valid value := by
  constructor
  · rintro ⟨region, h⟩
    obtain ⟨fields, rfl⟩ := eq_object_of_ofJson h
    obtain ⟨hid, hrole, hnodes, _⟩ := (ofJson_eq_ok_iff hw.distinct).mp h
    exact ⟨rfl, ⟨_, hid⟩, ⟨_, hrole⟩, (readField_nodes_iff.mp hnodes).1⟩
  · rintro ⟨hobject, ⟨id, hid⟩, ⟨role, hrole⟩, hnodes⟩
    obtain ⟨fields, rfl⟩ := Json.kind_eq_object_iff.mp hobject
    exact ⟨⟨id, role, _, _⟩, (ofJson_eq_ok_iff hw.distinct).mpr
      ⟨hid, hrole, readField_nodes_iff.mpr ⟨hnodes, rfl⟩, rfl⟩⟩

end Region

/-! ## documents -/

namespace Document

/-- own nodes and regions are absent, `null` or an array, that of the regions one of regions -/
structure Valid (value : Json) : Prop where
  object : value.kind = .object
  nodes : ∀ found, value.field? DocumentField.nodes = some found →
    found = .null ∨ ∃ items, found = .array items
  regions : ∀ found, value.field? DocumentField.regions = some found →
    found = .null ∨ ∃ items, found = .array items ∧ ∀ item ∈ items, Region.Valid item

/-- a field that can be read -/
structure Fits (field : String × Json) : Prop where
  nodes : field.1 = DocumentField.nodes → field.2 = .null ∨ field.2.kind = .array
  regions : field.1 = DocumentField.regions →
    field.2 = .null ∨ ∃ items, field.2 = .array items ∧ ∀ item ∈ items, Region.Valid item

/-- what is wrong with a field that cannot -/
inductive FieldDefect (field : String × Json) : DocumentError → Prop
  | notArray : field.1 ∈ [DocumentField.nodes, DocumentField.regions] → field.2 ≠ .null →
      field.2.kind ≠ .array → FieldDefect field (.invalidType field.2 .sequence)
  | region {items : List Json} {e : DocumentError} : field.1 = DocumentField.regions →
      field.2 = .array items → FirstDefect Region.Valid Region.Defect items e → FieldDefect field e

/-- what is wrong first -/
inductive Defect : Json → DocumentError → Prop
  | notObject {value : Json} : value.kind ≠ .object → Defect value (.invalidType value .document)
  | field {fields : Keyed Json} {e : DocumentError} :
      FirstDefect Fits FieldDefect fields e → Defect (.object fields) e

section

variable {key : String} {value : Json} {e : DocumentError}

theorem nodes_ne_regions : DocumentField.nodes ≠ DocumentField.regions := by decide

theorem fits_nodes : Fits (DocumentField.nodes, value) ↔ value = .null ∨ value.kind = .array :=
  ⟨fun hfit => hfit.nodes rfl, fun h => ⟨fun _ => h, fun hkey => absurd hkey nodes_ne_regions⟩⟩

theorem fits_regions : Fits (DocumentField.regions, value) ↔
    value = .null ∨ ∃ items, value = .array items ∧ ∀ item ∈ items, Region.Valid item :=
  ⟨fun hfit => hfit.regions rfl,
    fun h => ⟨fun hkey => absurd hkey.symm nodes_ne_regions, fun _ => h⟩⟩

theorem fits_other (h : key ∉ [DocumentField.nodes, DocumentField.regions]) :
    Fits (key, value) := by
  simp only [List.mem_cons, List.not_mem_nil, or_false, not_or] at h
  exact ⟨fun hnodes => absurd hnodes h.1, fun hregions => absurd hregions h.2⟩

theorem fieldDefect_nodes : FieldDefect (DocumentField.nodes, value) e ↔
    value ≠ .null ∧ value.kind ≠ .array ∧ e = .invalidType value .sequence := by
  constructor
  · rintro (⟨_, hnull, hkind⟩ | ⟨hkey, _⟩)
    · exact ⟨hnull, hkind, rfl⟩
    · exact absurd hkey nodes_ne_regions
  · rintro ⟨hnull, hkind, rfl⟩
    exact .notArray List.mem_cons_self hnull hkind

theorem fieldDefect_regions : FieldDefect (DocumentField.regions, value) e ↔
    value ≠ .null ∧ (value.kind ≠ .array ∧ e = .invalidType value .sequence ∨
      ∃ items, value = .array items ∧ FirstDefect Region.Valid Region.Defect items e) := by
  constructor
  · rintro (⟨_, hnull, hkind⟩ | ⟨_, hitems, hfirst⟩)
    · exact ⟨hnull, .inl ⟨hkind, rfl⟩⟩
    · obtain rfl : value = _ := hitems
      exact ⟨fun hnull => (nomatch hnull), .inr ⟨_, rfl, hfirst⟩⟩
  · rintro ⟨hnull, ⟨hkind, rfl⟩ | ⟨items, rfl, hfirst⟩⟩
    · exact .notArray (List.mem_cons_of_mem _ List.mem_cons_self) hnull hkind
    · exact .region rfl rfl hfirst

theorem not_fieldDefect_other (h : key ∉ [DocumentField.nodes, DocumentField.regions]) :
    ¬ FieldDefect (key, value) e := by
  rintro (⟨hkey, _⟩ | ⟨rfl, _⟩)
  · exact h hkey
  · exact h (List.mem_cons_of_mem _ List.mem_cons_self)

end

theorem readRegions_ok_iff {value : Json} (hw : value.WellFormed) :
    (∃ regions, readRegions value = .ok regions) ↔
      ∃ items, value = .array items ∧ ∀ item ∈ items, Region.Valid item := by
  cases value with
  | array items =>
    simp only [Json.array.injEq, exists_eq_left']
    exact mapM_ok_iff fun item hitem => Region.ofJson_ok_iff (hw.of_mem item hitem)
  | _ => simp [readRegions, readSequence, Except.bind]

theorem readRegions_error_iff {value : Json} (hw : value.WellFormed) (e : DocumentError) :
    readRegions value = .error e ↔ value.kind ≠ .array ∧ e = .invalidType value .sequence ∨
      ∃ items, value = .array items ∧ FirstDefect Region.Valid Region.Defect items e := by
  cases value with
  | array items =>
    simp only [Json.array.injEq, exists_eq_left', Json.kind, ne_eq, not_true_eq_false, false_and,
      false_or]
    exact mapM_error_iff (fun item hitem => ⟨Region.ofJson_ok_iff (hw.of_mem item hitem),
      Region.ofJson_error_iff (hw.of_mem item hitem)⟩) e
  | _ => simp [readRegions, readSequence, Except.bind, Json.kind, eq_comm]

theorem readAll_eq_foldlM (doc : Document) (fields : Keyed Json) :
    doc.readAll fields = fields.foldlM (fun doc field => doc.read field.1 field.2) doc := by
  induction fields generalizing doc with
  | nil => rfl
  | cons field rest ih =>
    rw [List.foldlM_cons, readAll, funext ih]
    rfl

theorem read_stepsBy {field : String × Json} (hw : field.2.WellFormed) :
    StepsBy Fits FieldDefect (fun doc field => Document.read doc field.1 field.2) field := by
  obtain ⟨key, value⟩ := field
  by_cases hk : key ∈ [DocumentField.nodes, DocumentField.regions]
  · simp only [List.mem_cons, List.not_mem_nil, or_false] at hk
    obtain rfl | rfl := hk
    · refine ⟨fun doc => ?_, fun doc e => ?_⟩
      · rw [fits_nodes, read_nodes, exists_map_ok_iff, readOptional_ok_iff, readSequence_ok_iff]
      · rw [fieldDefect_nodes, read_nodes, map_eq_error_iff, readOptional_error_iff,
          readSequence_error_iff]
    · refine ⟨fun doc => ?_, fun doc e => ?_⟩
      · rw [fits_regions, read_regions, exists_map_ok_iff, readOptional_ok_iff,
          readRegions_ok_iff hw]
      · rw [fieldDefect_regions, read_regions, map_eq_error_iff, readOptional_error_iff,
          readRegions_error_iff hw]
  · -- anything may stand under `meta` and under the keys of no known field
    have hread : ∀ doc : Document, ∃ next, doc.read key value = .ok next := by
      intro doc
      simp only [List.mem_cons, List.not_mem_nil, or_false, not_or] at hk
      rw [read, if_neg hk.1, if_neg hk.2]
      split
      · exact ⟨_, rfl⟩
      · exact ⟨_, rfl⟩
    refine ⟨fun doc => iff_of_true (hread doc) (fits_other hk), fun doc e => ?_⟩
    refine iff_of_false (fun h => ?_) (not_fieldDefect_other hk)
    obtain ⟨next, hnext⟩ := hread doc
    cases hnext.symm.trans h

theorem valid_iff_fits {fields : Keyed Json} (hd : fields.Distinct) :
    Valid (.object fields) ↔ ∀ field ∈ fields, Fits field := by
  have hkind : ∀ value : Json, value = .null ∨ (∃ items, value = .array items) ↔
      value = .null ∨ value.kind = .array := fun value => or_congr_right Json.kind_eq_array_iff.symm
  constructor
  · rintro ⟨_, hnodes, hregions⟩ ⟨key, value⟩ hfield
    have hget := Keyed.get?_of_mem hd hfield
    refine ⟨?_, ?_⟩
    · rintro rfl
      exact (hkind value).mp (hnodes value hget)
    · rintro rfl
      exact hregions value hget
  · intro h
    refine ⟨rfl, fun found hfound => ?_, fun found hfound => ?_⟩
    · exact (hkind found).mpr ((h _ (Keyed.mem_of_get? hfound)).nodes rfl)
    · exact (h _ (Keyed.mem_of_get? hfound)).regions rfl

theorem stepsBy_of_wellFormed {fields : Keyed Json} (hw : (Json.object fields).WellFormed) :
    ∀ field ∈ fields,
      StepsBy Fits FieldDefect (fun doc field => Document.read doc field.1 field.2) field :=
  fun _ hfield => read_stepsBy (hw.of_get? (Keyed.get?_of_mem hw.distinct hfield))

theorem ofJson_not_object {value : Json} (h : value.kind ≠ .object) :
    ofJson value = .error (.invalidType value .document) := by
  cases value with
  | object fields => exact absurd rfl h
  | _ => rfl

theorem ofJson_ok_iff {value : Json} (hw : value.WellFormed) :
    (∃ doc, ofJson value = .ok doc) ↔ Valid value := by
  by_cases hobject : value.kind = .object
  · obtain ⟨fields, rfl⟩ := Json.kind_eq_object_iff.mp hobject
    rw [valid_iff_fits hw.distinct, ofJson, readAll_eq_foldlM]
    exact foldlM_ok_iff (stepsBy_of_wellFormed hw) empty
  · rw [ofJson_not_object hobject]
    refine iff_of_false ?_ fun h => hobject h.object
    rintro ⟨doc, h⟩
    cases h

theorem ofJson_error_iff {value : Json} (hw : value.WellFormed) (e : DocumentError) :
    ofJson value = .error e ↔ Defect value e := by
  by_cases hobject : value.kind = .object
  · obtain ⟨fields, rfl⟩ := Json.kind_eq_object_iff.mp hobject
    rw [ofJson, readAll_eq_foldlM]
    refine (foldlM_error_iff (stepsBy_of_wellFormed hw) empty e).trans ⟨.field, fun h => ?_⟩
    cases h with
    | notObject hother => exact absurd rfl hother
    | field h => exact h
  · rw [ofJson_not_object hobject]
    constructor
    · intro h
      obtain rfl := Except.error.inj h
      exact .notObject hobject
    · intro h
      cases h with
      | notObject _ => rfl
      | _ => exact absurd rfl hobject

end Document

end Graft
