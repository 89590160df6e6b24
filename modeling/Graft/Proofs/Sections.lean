import Graft.Proofs.Root
import Graft.Session

/-!
# Sections keep their ids

An override for one instance is found by the id of a section.  No edit of a session moves a section
or changes an id that it has, whatever becomes of the section itself.

* `Json.HasId`               an object with an id that is not `null`;
* `Expander.hasId_expandOrgan`   what takes the place of a placeholder has the placeholder's id;
* `KeepsIds`                 every section with an id is still there and still has it;
* `Session.keepsIds_apply`, `Session.keepsIds_run`   one edit and any number of them;
* `Session.ids_stay`         ids over a whole session.
-/

namespace Graft

open Node

/-- an object whose id is `id`, which is not `null` -/
def Json.HasId (node id : Json) : Prop := node.field? idKey = some id ∧ id ≠ .null

instance (node id : Json) : Decidable (node.HasId id) := inferInstanceAs (Decidable (_ ∧ _))

theorem hasId_object {fields : Keyed Json} {id : Json} :
    (Json.object fields).HasId id ↔ ownId? fields = some id := ownId?_eq_some.symm

/-! ## ids under expansion -/

/-- a node that is no placeholder keeps its id, a placeholder must be seen to -/
theorem hasId_replaceNode {f : Keyed Json → Expanded Json} {node id : Json} (h : node.HasId id)
    (hf : ∀ fields ∈ exposedNode node, (Json.object fields).HasId id →
      (f fields).output.HasId id) : (replaceNode f node).output.HasId id := by
  cases node with
  | object fields =>
    cases ho : isOrgan fields with
    | true =>
      rw [exposedNode_organ fields ho] at hf
      rw [replaceNode_organ f fields ho]
      exact hf fields (List.mem_singleton_self fields) h
    | false =>
      rw [replaceNode_plain f fields ho, Expanded.output_map]
      exact ⟨(get?_replaceFields f fields idKey (by decide)).trans h.1, h.2⟩
  | _ => exact h

namespace Expander

variable (x : Expander)

theorem hasId_rootOver (p : Placeholder) (tree : Keyed Json) {id : Json}
    (h : (Json.object p.fields).HasId id) : (Json.object (x.rootOver p tree)).HasId id := by
  have hid : Keyed.get? (x.rootOver p tree) idKey = some id := by
    rw [x.get?_rootOver_graft p tree idKey (by decide), p.get?_graft_id, hasId_object.mp h]
    rfl
  exact ⟨hid, h.2⟩

theorem hasId_expandOrgan (left : Nat) (stack : List VariantKey) (fields : Keyed Json)
    (ho : isOrgan fields = true) {id : Json} (h : (Json.object fields).HasId id) :
    (x.expandOrgan left stack fields).output.HasId id := by
  refine x.expandOrgan_rec (P := fun _ _ fields e => (Json.object fields).HasId id →
    e.output.HasId id) ?_ ?_ left stack fields ho h
  · intro _ _ fields d _ _ h
    exact h
  · intro below stack fields p tree entry ih h
    -- the tree may have an id of its own, and an alias passes on the one that it was given
    have hroot : (Json.object (x.rootOver p tree)).HasId id := by
      refine x.hasId_rootOver p tree ?_
      rwa [Placeholder.fields_of_ofFields? entry.view]
    exact hasId_replaceNode hroot ih

end Expander

/-! ## ids in a list of sections -/

/-- the sections of `nodes` are still there in `later`, and those that had an id have it still -/
structure KeepsIds (nodes later : List Json) : Prop where
  length_le : nodes.length ≤ later.length
  ids : ∀ (i : Nat) (node id : Json), nodes[i]? = some node → node.HasId id →
    ∃ node', later[i]? = some node' ∧ node'.HasId id

namespace KeepsIds

theorem refl (nodes : List Json) : KeepsIds nodes nodes :=
  ⟨Nat.le_refl _, fun _ node _ hn h => ⟨node, hn, h⟩⟩

theorem trans {nodes later last : List Json} (h : KeepsIds nodes later) (h' : KeepsIds later last) :
    KeepsIds nodes last where
  length_le := Nat.le_trans h.length_le h'.length_le
  ids := fun i node id hn hid => by
    obtain ⟨node', hn', hid'⟩ := h.ids i node id hn hid
    exact h'.ids i node' id hn' hid'

/-- where every section is changed in its place, it is enough that each keeps its id -/
theorem mapIdx {f : Nat → Json → Json} (h : ∀ i node id, node.HasId id → (f i node).HasId id)
    (nodes : List Json) : KeepsIds nodes (nodes.mapIdx f) where
  length_le := Nat.le_of_eq List.length_mapIdx.symm
  ids := fun i node id hn hid => by
    refine ⟨f i node, ?_, h i node id hid⟩
    rw [List.getElem?_mapIdx, hn]
    rfl

theorem append (nodes rest : List Json) : KeepsIds nodes (nodes ++ rest) where
  length_le := by
    rw [List.length_append]
    omega
  ids := fun i node id hn hid => by
    obtain ⟨hi, _⟩ := List.getElem?_eq_some_iff.mp hn
    exact ⟨node, (List.getElem?_append_left hi).trans hn, hid⟩

end KeepsIds

/-! ## section keys -/

theorem lacksId_eq_false_iff {fields : Keyed Json} :
    lacksId fields = false ↔ ∃ id, (Json.object fields).HasId id := by
  unfold lacksId Json.HasId
  show _ ↔ ∃ id, Keyed.get? fields idKey = some id ∧ id ≠ .null
  cases Keyed.get? fields idKey with
  | none => simp
  | some id => cases id <;> simp

theorem hasId_keyNode (i : Nat) (node id : Json) (h : node.HasId id) : (keyNode i node).HasId id := by
  cases node with
  | object fields =>
    have hl : lacksId fields = false := lacksId_eq_false_iff.mpr ⟨id, h⟩
    rw [keyNode, hl]
    exact h
  | _ => exact h

/-- with keys assigned, every object has an id -/
theorem hasId_of_mem_assignSectionKeys {nodes : List Json} {fields : Keyed Json}
    (h : .object fields ∈ assignSectionKeys nodes) : ∃ id, (Json.object fields).HasId id := by
  obtain ⟨i, hi, hkey⟩ := List.mem_mapIdx.mp h
  cases hn : nodes[i] with
  | object own =>
    rw [hn, keyNode, Json.object.injEq] at hkey
    rw [← hkey, ← lacksId_eq_false_iff]
    split
    · exact lacksId_keyed own _
    · simpa using ‹¬ lacksId own = true›
  | _ =>
    rw [hn] at hkey
    exact absurd hkey (by simp [keyNode])

/-! ## sessions -/

namespace Session

theorem keepsIds_apply (s : Session) (edit : Edit) : KeepsIds s.nodes (s.apply edit).nodes := by
  cases edit with
  | assignKeys => exact .mapIdx hasId_keyNode s.nodes
  | append node => exact .append s.nodes [node]
  | choose key variantId => exact .refl s.nodes
  | clear key => exact .refl s.nodes
  | commit x =>
    show KeepsIds s.nodes (x.expand s.nodes).output
    have hmap : (x.expand s.nodes).output = s.nodes.mapIdx fun _ node =>
        (replaceNode (x.expandOrgan x.options.maxDepth []) node).output := by
      rw [Expander.expand, output_replaceNodes]
      exact List.ext_getElem? fun i => by rw [List.getElem?_map, List.getElem?_mapIdx]
    rw [hmap]
    refine .mapIdx (fun _ node id h => ?_) s.nodes
    refine hasId_replaceNode h fun fields hm hfields => ?_
    exact x.hasId_expandOrgan _ [] fields (isOrgan_of_mem_exposed.1 node fields hm) hfields

theorem keepsIds_run (s : Session) (edits : List Edit) : KeepsIds s.nodes (s.run edits).nodes := by
  induction edits generalizing s with
  | nil => exact .refl s.nodes
  | cons edit edits ih =>
    rw [run_cons]
    exact (s.keepsIds_apply edit).trans (ih (s.apply edit))

theorem run_append (s : Session) (before after : List Edit) :
    s.run (before ++ after) = (s.run before).run after := List.foldl_append

/-- **Ids are stable.**  After any edits and more of them there are no fewer sections, and a section
that had an id then is still an object with that id at the same position; once keys have been
assigned, every object has an id. -/
theorem ids_stay (s : Session) (before after : List Edit) :
    (s.run before).nodes.length ≤ (s.run (before ++ after)).nodes.length ∧
      (∀ (i : Nat) (node id : Json), (s.run before).nodes[i]? = some node → node.HasId id →
        ∃ node', (s.run (before ++ after)).nodes[i]? = some node' ∧ node'.HasId id) ∧
      ∀ fields, .object fields ∈ (s.run (before ++ [.assignKeys])).nodes →
        ∃ id, (Json.object fields).HasId id := by
  have h := (s.run before).keepsIds_run after
  rw [← run_append] at h
  refine ⟨h.length_le, h.ids, fun fields hm => ?_⟩
  rw [run_append] at hm
  exact hasId_of_mem_assignSectionKeys hm

/-- `hero` is an alias of a card, and both trees have ids of their own -/
def heroLookup : Lookup := .ofTable [
  ⟨"hero", none, .object [("type", .string "organ"), ("organId", .string "card"),
    ("id", .string "h1")]⟩,
  ⟨"card", none, .object [("id", .string "c1"), ("type", .string "Card")]⟩]

theorem ids_stay_hero :
    let s : Session := { nodes := [.object [("type", .string "organ"), ("organId", .string "hero")]] }
    let before : List Edit := [.assignKeys]
    let after : List Edit := [.append (.string "text"), .choose "section-0" "wide",
      .commit ⟨heroLookup, .constant "wide", {}⟩, .assignKeys]
    let fields : Keyed Json := [("type", .string "organ"), ("organId", .string "hero"),
      ("id", .string "section-0")]
    ((s.run before).nodes[0]? = some (.object fields) ∧
        (Json.object fields).HasId (.string "section-0") ∧
        ∃ node', (s.run (before ++ after)).nodes[0]? = some node' ∧
          node'.HasId (.string "section-0")) ∧
      .object fields ∈ (s.run (before ++ [.assignKeys])).nodes ∧
        ∃ id, (Json.object fields).HasId id := by
  intro s before after fields
  obtain ⟨_, hstay, hkeyed⟩ := s.ids_stay before after
  have hn : (s.run before).nodes[0]? = some (.object fields) := by decide
  have hid : (Json.object fields).HasId (.string "section-0") := by decide
  have hm : .object fields ∈ (s.run (before ++ [.assignKeys])).nodes := by decide
  exact ⟨⟨hn, hid, hstay 0 _ _ hn hid⟩, hm, hkeyed fields hm⟩

end Session

end Graft
