import Graft.Proofs.Siblings
import Graft.Proofs.TypedDocument

/-!
# A document is expanded part by part

The lists of nodes in a document may be expanded by one walk with one state, which goes from the
top-level nodes to those of the regions in turn.  Each is expanded as if it were alone, for no organ is
open between them.  So it can be said of each part by itself what becomes of it and what is reported of
it; everything else stays as it is.

* `Expander.walkDocument`     the walk, and `walkDocument_yields`: it is the expansion;
* `ArrayBecomes`, `ObjectBecomes`   a change of arrays, or of some fields of objects, and of no more;
* `Expander.DocumentBecomes`  the top-level nodes and those of the regions are expanded;
* `Expander.documentReport`   the reports of the nodes, then those of the regions in order;
* `Expander.expandDocumentValue_by_parts`   what comes of a document, and what is reported.
-/

namespace Graft

open Walk

/-! ## the walk through a document -/

namespace Walk

/-- reports a part that does not fit -/
def misfit {α : Type} (part : DocumentPart) (value : α) : Walk α := do
  modify fun s => { s with diagnostics := s.diagnostics ++ [.malformedDocument part] }
  return value

theorem Yields.misfit {α : Type} (part : DocumentPart) (value : α) (stack : List VariantKey) :
    Yields (Walk.misfit part value) stack (Expander.misfit part value) := by
  intro ds
  rfl

end Walk

namespace Expander

/-- walks through the array under `key` in `fields` and puts what comes of it into `changed` -/
def walkArrayField (walk : List Json → Walk (List Json)) (key : String) (part : DocumentPart)
    (fields changed : Keyed Json) : Walk (Keyed Json) :=
  match Keyed.get? fields key with
  | none => return changed
  | some (.array items) => do
    let items ← walk items
    return Keyed.insert changed key (.array items)
  | some _ => Walk.misfit part changed

def walkRegion (x : Expander) (index : Nat) : Json → Walk Json
  | .object fields => do
    let changed ← walkArrayField x.walk DocumentField.nodes (.regionNodes index) fields fields
    return .object changed
  | other => Walk.misfit (.region index) other

/-- regions, the first of them at position `index` -/
def walkRegions (x : Expander) (index : Nat) : List Json → Walk (List Json)
  | [] => return []
  | region :: rest => do
    let region ← x.walkRegion index region
    let rest ← x.walkRegions (index + 1) rest
    return region :: rest

/-- both lists are taken from the document as it was -/
def walkDocument (x : Expander) : Json → Walk Json
  | .object fields => do
    let changed ← walkArrayField x.walk DocumentField.nodes .nodes fields fields
    let changed ← walkArrayField (x.walkRegions 0) DocumentField.regions .regions fields changed
    return .object changed
  | other => Walk.misfit .document other

variable (x : Expander)

theorem walk_yields_expand (nodes : List Json) : Yields (x.walk nodes) [] (x.expand nodes) := by
  have horgan : ∀ fields, Yields (x.walkOrgan (x.options.maxDepth + 1) fields) []
      (x.expandOrgan x.options.maxDepth [] fields) := fun fields =>
    x.walkOrgan_yields _ _ [] fields rfl (Nat.lt_succ_self _)
  exact (walk_yields horgan).2 nodes

theorem walkArrayField_yields {walk : List Json → Walk (List Json)}
    {expand : List Json → Expanded (List Json)} (hw : ∀ items, Yields (walk items) [] (expand items))
    (key : String) (part : DocumentPart) {fields changed : Keyed Json}
    (h : Keyed.get? changed key = Keyed.get? fields key) :
    Yields (walkArrayField walk key part fields changed) []
      (expandArrayField expand key part changed) := by
  unfold walkArrayField
  rcases absent_or_array_or_misfit (Keyed.get? fields key) with hf | ⟨items, hf⟩ | ⟨value, hf, hv⟩
  · rw [expandArrayField_of_absent (h.trans hf), hf]
    exact .pure changed []
  · rw [expandArrayField_of_array (h.trans hf), hf]
    exact (hw items).map fun items => Keyed.insert changed key (.array items)
  · rw [expandArrayField_of_misfit (h.trans hf) hv, hf]
    cases value with
    | array items => exact absurd rfl (hv items)
    | _ => exact .misfit part changed []

theorem walkRegion_yields (index : Nat) (value : Json) :
    Yields (x.walkRegion index value) [] (x.expandRegionValue index value) := by
  cases value with
  | object fields => exact (walkArrayField_yields x.walk_yields_expand _ _ rfl).map Json.object
  | _ => exact .misfit _ _ []

theorem walkRegions_yields (index : Nat) (items : List Json) :
    Yields (x.walkRegions index items) [] (x.expandRegionValues index items) := by
  induction items generalizing index with
  | nil => exact .pure [] []
  | cons item rest ih =>
    exact (x.walkRegion_yields index item).bind
      ((ih (index + 1)).map fun rest => (x.expandRegionValue index item).output :: rest)

theorem walkDocument_yields (value : Json) :
    Yields (x.walkDocument value) [] (x.expandDocumentValue value) := by
  cases value with
  | object fields =>
    -- the regions are still there when the nodes have been put in
    have hkept := get?_expandArrayField x.expand DocumentField.nodes .nodes fields
      (k := DocumentField.regions) (by decide)
    exact (walkArrayField_yields x.walk_yields_expand _ _ rfl).bind
      ((walkArrayField_yields (x.walkRegions_yields 0) _ _ hkept).map Json.object)
  | _ => exact .misfit _ _ []

end Expander

/-! ## changes of some parts -/

/-- arrays change so, any other value stays -/
inductive ArrayBecomes (change : List Json → List Json → Prop) : Json → Json → Prop where
  | array {before after} (h : change before after) :
      ArrayBecomes change (.array before) (.array after)
  | other {value} (h : ∀ items, value ≠ .array items) : ArrayBecomes change value value

/-- the same keys in the same order; these parts change so where they are there, the rest stays -/
structure Keyed.Becomes (parts : Keyed (Json → Json → Prop)) (before after : Keyed Json) : Prop where
  keys : Keyed.keys after = Keyed.keys before
  changed : ∀ part ∈ parts, Option.Rel part.2 (Keyed.get? before part.1) (Keyed.get? after part.1)
  rest : ∀ key ∉ Keyed.keys parts, Keyed.get? after key = Keyed.get? before key

/-- these parts of objects change so, any other value stays -/
inductive ObjectBecomes (parts : Keyed (Json → Json → Prop)) : Json → Json → Prop where
  | object {before after} (h : Keyed.Becomes parts before after) :
      ObjectBecomes parts (.object before) (.object after)
  | other {value} (h : ∀ fields, value ≠ .object fields) : ObjectBecomes parts value value

namespace Expander

/-- what becomes of the field itself -/
theorem rel_expandArrayField {change : List Json → List Json → Prop}
    {expand : List Json → Expanded (List Json)} (key : String) (part : DocumentPart) (fields : Keyed Json)
    (h : ∀ items, change items (expand items).output) :
    Option.Rel (ArrayBecomes change) (Keyed.get? fields key)
      (Keyed.get? (expandArrayField expand key part fields).output key) := by
  rcases absent_or_array_or_misfit (Keyed.get? fields key) with hf | ⟨items, hf⟩ | ⟨value, hf, hv⟩
  · rw [expandArrayField_of_absent hf, Expanded.output_clean, hf]
    exact .none
  · rw [expandArrayField_of_array hf, Expanded.output_map, Keyed.get?_insert, if_pos rfl, hf]
    exact .some (.array (h items))
  · rw [expandArrayField_of_misfit hf hv, misfit, hf]
    exact .some (.other hv)

/-! ## what becomes of a document -/

section

variable (x : Expander)

def NodesBecome : Json → Json → Prop :=
  ArrayBecomes fun before after => after = (x.expand before).output

def RegionBecomes : Json → Json → Prop := ObjectBecomes [(DocumentField.nodes, x.NodesBecome)]

def RegionsBecome : Json → Json → Prop := ArrayBecomes (List.Forall₂ x.RegionBecomes)

def DocumentBecomes : Json → Json → Prop :=
  ObjectBecomes [(DocumentField.nodes, x.NodesBecome), (DocumentField.regions, x.RegionsBecome)]

theorem regionBecomes_expandRegionValue (index : Nat) (value : Json) :
    x.RegionBecomes value (x.expandRegionValue index value).output := by
  cases value with
  | object fields =>
    refine .object ⟨keys_expandArrayField _ _ _ _, ?_, fun key hkey => ?_⟩
    · rw [List.forall_mem_singleton]
      exact rel_expandArrayField _ _ _ fun items => rfl
    · rw [get?_expandArrayField]
      exact fun h => hkey (List.mem_singleton.mpr h.symm)
  | _ => exact .other (by simp)

theorem forall₂_regionBecomes (index : Nat) (items : List Json) :
    List.Forall₂ x.RegionBecomes items (x.expandRegionValues index items).output := by
  induction items generalizing index with
  | nil => exact .nil
  | cons item rest ih => exact .cons (x.regionBecomes_expandRegionValue index item) (ih (index + 1))

theorem documentBecomes_expandDocumentValue (value : Json) :
    x.DocumentBecomes value (x.expandDocumentValue value).output := by
  cases value with
  | object fields =>
    let first := (expandArrayField x.expand DocumentField.nodes .nodes fields).output
    let second :=
      (expandArrayField (x.expandRegionValues 0) DocumentField.regions .regions first).output
    have hnodes : Option.Rel x.NodesBecome (Keyed.get? fields DocumentField.nodes)
        (Keyed.get? second DocumentField.nodes) := by
      rw [get?_expandArrayField _ _ _ _ (by decide)]
      exact rel_expandArrayField _ _ _ fun items => rfl
    have hregions : Option.Rel x.RegionsBecome (Keyed.get? fields DocumentField.regions)
        (Keyed.get? second DocumentField.regions) := by
      rw [← get?_expandArrayField x.expand DocumentField.nodes .nodes fields (by decide)]
      exact rel_expandArrayField _ _ _ (x.forall₂_regionBecomes 0)
    refine .object ⟨?_, ?_, fun key hkey => ?_⟩
    · exact (keys_expandArrayField _ _ _ _).trans (keys_expandArrayField _ _ _ _)
    · rw [List.forall_mem_cons, List.forall_mem_singleton]
      exact ⟨hnodes, hregions⟩
    · simp only [Keyed.keys, List.map_cons, List.map_nil, List.mem_cons, List.not_mem_nil,
        or_false, not_or] at hkey
      rw [get?_expandArrayField _ _ _ _ (Ne.symm hkey.2), get?_expandArrayField _ _ _ _ (Ne.symm hkey.1)]
  | _ => exact .other (by simp)

end

/-! ## what is reported of a document -/

/-- what is reported of an array, and of any other value that a field holds in its place -/
def arrayReport (report : List Json → List Diagnostic) (part : DocumentPart) :
    Option Json → List Diagnostic
  | none => []
  | some (.array items) => report items
  | some _ => [.malformedDocument part]

variable (x : Expander)

def nodesReport (part : DocumentPart) : Option Json → List Diagnostic :=
  arrayReport (fun nodes => (x.expand nodes).diagnostics) part

def regionReport (index : Nat) : Json → List Diagnostic
  | .object fields => x.nodesReport (.regionNodes index) (Keyed.get? fields DocumentField.nodes)
  | _ => [.malformedDocument (.region index)]

def documentReport : Json → List Diagnostic
  | .object fields =>
    x.nodesReport .nodes (Keyed.get? fields DocumentField.nodes) ++
      arrayReport (fun regions => (regions.mapIdx x.regionReport).flatten) .regions
        (Keyed.get? fields DocumentField.regions)
  | _ => [.malformedDocument .document]

theorem arrayReport_misfit (report : List Json → List Diagnostic) (part : DocumentPart) {value : Json}
    (hv : ∀ items, value ≠ .array items) :
    arrayReport report part (some value) = [.malformedDocument part] := by
  cases value with
  | array items => exact absurd rfl (hv items)
  | _ => rfl

theorem diagnostics_expandArrayField (expand : List Json → Expanded (List Json)) (key : String)
    (part : DocumentPart) (fields : Keyed Json) :
    (expandArrayField expand key part fields).diagnostics =
      arrayReport (fun items => (expand items).diagnostics) part (Keyed.get? fields key) := by
  rcases absent_or_array_or_misfit (Keyed.get? fields key) with hf | ⟨items, hf⟩ | ⟨value, hf, hv⟩
  · rw [expandArrayField_of_absent hf, hf]
    rfl
  · rw [expandArrayField_of_array hf, hf]
    rfl
  · rw [expandArrayField_of_misfit hf hv, hf, arrayReport_misfit _ part hv]
    rfl

theorem diagnostics_expandRegionValue (index : Nat) (value : Json) :
    (x.expandRegionValue index value).diagnostics = x.regionReport index value := by
  cases value with
  | object fields => exact diagnostics_expandArrayField _ _ _ fields
  | _ => rfl

theorem diagnostics_expandRegionValues (index : Nat) (items : List Json) :
    (x.expandRegionValues index items).diagnostics =
      (items.mapIdx fun i => x.regionReport (i + index)).flatten := by
  induction items generalizing index with
  | nil => rfl
  | cons item rest ih =>
    have hnext : ∀ i, i + (index + 1) = i + 1 + index := fun i => by omega
    rw [expandRegionValues, Expanded.diagnostics_bind, Expanded.diagnostics_map, ih,
      x.diagnostics_expandRegionValue, List.mapIdx_cons, List.flatten_cons, Nat.zero_add]
    simp only [hnext]

theorem diagnostics_expandDocumentValue (value : Json) :
    (x.expandDocumentValue value).diagnostics = x.documentReport value := by
  cases value with
  | object fields =>
    have hkept := get?_expandArrayField x.expand DocumentField.nodes .nodes fields
      (k := DocumentField.regions) (by decide)
    have hregions : (fun items => (x.expandRegionValues 0 items).diagnostics) =
        fun regions => (regions.mapIdx x.regionReport).flatten :=
      funext fun items => x.diagnostics_expandRegionValues 0 items
    rw [expandDocumentValue, Expanded.diagnostics_bind, Expanded.diagnostics_map,
      diagnostics_expandArrayField, diagnostics_expandArrayField, hkept, hregions]
    rfl
  | _ => rfl

/-! ## the whole -/

/-- **A document is expanded part by part.**  One walk through the document, from the empty state, is
its expansion.  Every object keeps its keys in their order, and nothing changes but the lists of nodes:
each becomes its own expansion.  Reported are, in this order whatever the order of the keys, what the
nodes and then what the regions one after the other give by themselves. -/
theorem expandDocumentValue_by_parts (value : Json) :
    x.walkDocument value {} = some ((x.expandDocumentValue value).output,
        ⟨[], (x.expandDocumentValue value).diagnostics⟩) ∧
      x.DocumentBecomes value (x.expandDocumentValue value).output ∧
      (x.expandDocumentValue value).diagnostics = x.documentReport value ∧
      [DocumentPart.document, .nodes, .regions].map DocumentPart.path =
        ["document", "nodes", "regions"] ∧
      ∀ index, (DocumentPart.region index).path = "regions[" ++ index.repr ++ "]" ∧
        (DocumentPart.regionNodes index).path = "regions[" ++ index.repr ++ "].nodes" :=
  ⟨x.walkDocument_yields value [], x.documentBecomes_expandDocumentValue value,
    x.diagnostics_expandDocumentValue value, rfl, fun _ => ⟨rfl, rfl⟩⟩

/-- the nodes are reported first, although they are written last -/
example :
    ((Expander.mk (.ofTable []) .authored {}).expandDocumentValue (.object [
      ("regions", .array [.null, .object [("nodes", .bool true)], .object [("nodes", .array [
        .object [("type", .string "organ"), ("organId", .string "lost")]])]]),
      ("nodes", .null)])).diagnostics =
    [.malformedDocument .nodes, .malformedDocument (.region 0), .malformedDocument (.regionNodes 1),
      .unknownOrgan "lost"] := by decide +kernel

end Expander

end Graft
