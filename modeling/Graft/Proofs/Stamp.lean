import Graft.Proofs.Agreement
import Graft.Proofs.Root

/-!
# What a stamp is kept from

The stamp goes on a root after the placeholder's own fields have been laid over it, and nothing is laid
over that root any more.  An alias gets no stamp, a resolver is asked about placeholders only, and what
a scan reads of a node is not in its `params`.  So whether roots are stamped makes no difference to what
is entered, what is reported and what is found; it shows in the `params` of the roots that took a
placeholder's place, and nowhere else.

* `Expander.stamping`          the same expander, with stamps or without;
* `replaceFields_insert`       a field beside the children goes its own way;
* `Twins`, `FieldTwins`, `ListTwins`   what becomes of a node, of its fields and of siblings, without
                               stamps and with them;
* `twins_replace`              where the exposed placeholders have twins, so has the whole;
* `Twins.entries`              twins look the same to a scan;
* `Expander.expand_stamping`   the two outputs of an expansion.
-/

namespace Graft

open Node

/-! ## one field among the others -/

theorem Keyed.update_eq_insert {α : Type*} (m : Keyed α) (key : String) (f : Option α → α) :
    update m key f = insert m key (f (get? m key)) := by
  unfold insert
  induction m with
  | nil => rfl
  | cons entry rest ih =>
    obtain ⟨k, old⟩ := entry
    by_cases hk : k = key
    · simp only [update, get?, if_pos hk]
    · simp only [update, get?, if_neg hk, ih]

/-- the stamp is a new value for `params` -/
theorem stampLayoutId_eq (variantId : String) (fields : Keyed Json) :
    stampLayoutId variantId fields =
      Keyed.insert fields paramsKey (stamped variantId (Keyed.get? fields paramsKey)) :=
  Keyed.update_eq_insert fields paramsKey _

/-- a field that is not the children's may be put before or after the children are replaced -/
theorem replaceFields_insert (f : Keyed Json → Expanded Json) (fields : Keyed Json) {key : String}
    (hkey : key ≠ childrenKey) (value : Json) :
    replaceFields f (Keyed.insert fields key value) =
      (replaceFields f fields).map fun fields => Keyed.insert fields key value := by
  unfold Keyed.insert
  induction fields with
  | nil => simp only [Keyed.update, replaceFields, if_neg hkey]; rfl
  | cons field rest ih =>
    obtain ⟨k, old⟩ := field
    by_cases hk : k = key
    · have hc : k ≠ childrenKey := hk ▸ hkey
      simp only [Keyed.update, replaceFields, Expanded.map, if_pos hk, if_neg hc]
    · by_cases hc : k = childrenKey
      · simp only [Keyed.update, replaceFields, Expanded.map, if_neg hk, if_pos hc]
      · simp only [Keyed.update, replaceFields, Expanded.map, if_neg hk, if_neg hc, ih]

/-! ## twins -/

section

variable (lookup : Lookup) (resolver : Resolver)

mutual

/-- what a node becomes where roots are not stamped, and where they are -/
inductive Twins : (node bare marked : Json) → Prop where
  | other {node : Json} (h : ∀ fields, node ≠ .object fields) : Twins node node node
  | leftover {fields : Keyed Json} (ho : isOrgan fields = true) :
      Twins (.object fields) (.object fields) (.object fields)
  | ordinary {fields bare marked : Keyed Json} (ho : isOrgan fields = false)
      (h : FieldTwins fields bare marked) : Twins (.object fields) (.object bare) (.object marked)
  /-- a root in the place of `p`: among the twins of its fields, `params` are stamped -/
  | root {fields tree bare marked : Keyed Json} {p : Placeholder}
      (hp : Placeholder.ofFields? fields = some p)
      (hl : lookup.load p.organId (resolver p) = some (.object tree)) (ho : isOrgan tree = false)
      (h : FieldTwins (p.graft tree) bare marked) :
      Twins (.object fields) (.object bare)
        (.object (Keyed.insert marked paramsKey
          (stamped (resolver p) (Keyed.get? bare paramsKey))))
  /-- an alias in the place of `p` gets no stamp, and the root that it leads to stands for both -/
  | alias {fields tree : Keyed Json} {p : Placeholder} {bare marked : Json}
      (hp : Placeholder.ofFields? fields = some p)
      (hl : lookup.load p.organId (resolver p) = some (.object tree)) (ho : isOrgan tree = true)
      (h : Twins (.object (p.graft tree)) bare marked) : Twins (.object fields) bare marked

/-- all fields stay as they are, and the children become twins -/
inductive FieldTwins : (fields bare marked : Keyed Json) → Prop where
  | childless {fields : Keyed Json} (hc : (Json.object fields).children? = none) :
      FieldTwins fields fields fields
  | parent {fields : Keyed Json} {items bare marked : List Json}
      (hc : (Json.object fields).children? = some items) (h : ListTwins items bare marked) :
      FieldTwins fields (Keyed.insert fields childrenKey (.array bare))
        (Keyed.insert fields childrenKey (.array marked))

inductive ListTwins : (nodes bare marked : List Json) → Prop where
  | nil : ListTwins [] [] []
  | cons {node bare marked : Json} {nodes bares markeds : List Json} (h : Twins node bare marked)
      (hs : ListTwins nodes bares markeds) :
      ListTwins (node :: nodes) (bare :: bares) (marked :: markeds)

end

end

variable {lookup : Lookup} {resolver : Resolver}

/-- where the exposed placeholders become twins, so do the nodes that expose them -/
theorem twins_replace (f g : Keyed Json → Expanded Json) :
    (∀ node, (∀ fields ∈ exposedNode node,
        Twins lookup resolver (.object fields) (f fields).output (g fields).output) →
      Twins lookup resolver node (replaceNode f node).output (replaceNode g node).output) ∧
      ∀ nodes, (∀ fields ∈ exposedNodes nodes,
          Twins lookup resolver (.object fields) (f fields).output (g fields).output) →
        ListTwins lookup resolver nodes (replaceNodes f nodes).output
          (replaceNodes g nodes).output := by
  refine exposed_rec ?_ ?_ ?_ ?_ ?_ ?_
  · intro j hj _
    rw [replaceNode_of_not_object f j hj, replaceNode_of_not_object g j hj]
    exact .other hj
  · intro own ho h
    rw [exposedNode_organ own ho] at h
    rw [replaceNode_organ f own ho, replaceNode_organ g own ho]
    exact h own (List.mem_singleton_self own)
  · intro own ho hc _
    rw [replaceNode_plain f own ho, replaceNode_plain g own ho, replaceFields_no_items f own hc,
      replaceFields_no_items g own hc]
    exact .ordinary ho (.childless hc)
  · intro own items ho hc ih h
    rw [exposedNode_plain own ho, hc] at h
    rw [replaceNode_plain f own ho, replaceNode_plain g own ho, replaceFields_items f own items hc,
      replaceFields_items g own items hc]
    exact .ordinary ho (.parent hc (ih h))
  · intro _
    exact .nil
  · intro j js hj hjs h
    rw [exposedNodes_cons] at h
    rw [replaceNodes_cons, replaceNodes_cons]
    exact .cons (hj fun fields hm => h fields (List.mem_append_left _ hm))
      (hjs fun fields hm => h fields (List.mem_append_right _ hm))

theorem fieldTwins_replace (f g : Keyed Json → Expanded Json) (fields : Keyed Json)
    (h : ∀ inner ∈ exposedFields fields,
      Twins lookup resolver (.object inner) (f inner).output (g inner).output) :
    FieldTwins lookup resolver fields (replaceFields f fields).output
      (replaceFields g fields).output := by
  rw [exposedFields_items] at h
  cases hc : (Json.object fields).children? with
  | none =>
    rw [replaceFields_no_items f fields hc, replaceFields_no_items g fields hc]
    exact .childless hc
  | some items =>
    rw [hc] at h
    rw [replaceFields_items f fields items hc, replaceFields_items g fields items hc]
    exact .parent hc ((twins_replace f g).2 items h)

/-! ## twins to a scan -/

/-- the entries of a scan below the node with these fields -/
def entriesBelow (place : Pointer) (fields : Keyed Json) : List Unresolved :=
  ((Json.object fields).children?.map
    (visitNodes (place ++ [.field childrenKey]) 0)).getD [] |>.filterMap Visit.unresolved?

theorem entries_plain (place : Pointer) {fields : Keyed Json} (ho : isOrgan fields = false) :
    (visitNode place (.object fields)).filterMap Visit.unresolved? = entriesBelow place fields := by
  have hnone : Visit.unresolved? ⟨place, .object fields⟩ = none :=
    if_neg (by rw [Json.isOrgan_object, ho]; simp)
  rw [visitNode_eq, List.filterMap_cons_none hnone]
  rfl

/-- below a node nothing is seen of a field that is not the children's -/
theorem entriesBelow_insert (place : Pointer) (fields : Keyed Json) {key : String}
    (hkey : key ≠ childrenKey) (value : Json) :
    entriesBelow place (Keyed.insert fields key value) = entriesBelow place fields := by
  have hc : (Json.object (Keyed.insert fields key value)).children? =
      (Json.object fields).children? := by
    show (Keyed.get? (Keyed.insert fields key value) childrenKey).bind Json.array? = _
    rw [Keyed.get?_insert, if_neg hkey]
    rfl
  unfold entriesBelow
  rw [hc]

theorem FieldTwins.get? {fields bare marked : Keyed Json}
    (h : FieldTwins lookup resolver fields bare marked) {key : String} (hkey : key ≠ childrenKey) :
    Keyed.get? bare key = Keyed.get? fields key ∧ Keyed.get? marked key = Keyed.get? fields key := by
  cases h with
  | childless hc => exact ⟨rfl, rfl⟩
  | parent hc h => simp only [Keyed.get?_insert, if_neg (Ne.symm hkey), and_self]

theorem FieldTwins.isOrgan {fields bare marked : Keyed Json}
    (h : FieldTwins lookup resolver fields bare marked) (ho : Graft.isOrgan fields = false) :
    Graft.isOrgan bare = false ∧ Graft.isOrgan marked = false := by
  obtain ⟨hbare, hmarked⟩ := h.get? (show typeKey ≠ childrenKey by decide)
  unfold Graft.isOrgan at ho ⊢
  rw [hbare, hmarked]
  exact ⟨ho, ho⟩

theorem isOrgan_insert_params (fields : Keyed Json) (value : Json) :
    isOrgan (Keyed.insert fields paramsKey value) = isOrgan fields := by
  unfold isOrgan
  rw [Keyed.get?_insert, if_neg (by decide)]

-- by induction on how the twins came about, as each constructor says what a scan meets there
mutual

theorem Twins.entries : ∀ {node bare marked : Json}, Twins lookup resolver node bare marked →
    ∀ place, (visitNode place marked).filterMap Visit.unresolved? =
      (visitNode place bare).filterMap Visit.unresolved?
  | _, _, _, .other _, _ => rfl
  | _, _, _, .leftover _, _ => rfl
  | _, _, _, .ordinary ho h, place => by
    rw [entries_plain place (h.isOrgan ho).1, entries_plain place (h.isOrgan ho).2, h.entries place]
  | _, _, _, .root _ _ ho h, place => by
    obtain ⟨hbare, hmarked⟩ := h.isOrgan ((Placeholder.isOrgan_graft _ _).trans ho)
    rw [← isOrgan_insert_params] at hmarked
    rw [entries_plain place hbare, entries_plain place hmarked,
      entriesBelow_insert place _ (by decide), h.entries place]
  | _, _, _, .alias _ _ _ h, place => h.entries place

theorem FieldTwins.entries : ∀ {fields bare marked : Keyed Json},
    FieldTwins lookup resolver fields bare marked →
      ∀ place, entriesBelow place marked = entriesBelow place bare
  | _, _, _, .childless _, _ => rfl
  | _, _, _, .parent hc h, place => by
    unfold entriesBelow
    rw [children?_insert, children?_insert]
    exact h.entries _ 0

theorem ListTwins.entries : ∀ {nodes bares markeds : List Json},
    ListTwins lookup resolver nodes bares markeds →
      ∀ above index, (visitNodes above index markeds).filterMap Visit.unresolved? =
        (visitNodes above index bares).filterMap Visit.unresolved?
  | _, _, _, .nil, _, _ => rfl
  | _, _, _, .cons h hs, above, index => by
    rw [visitNodes_cons, visitNodes_cons, List.filterMap_append, List.filterMap_append,
      h.entries _, hs.entries above (index + 1)]

end

/-! ## two expansions -/

namespace Expander

/-- roots are stamped or not; all else is the same -/
def stamping (x : Expander) (on : Bool) : Expander :=
  { x with options := { x.options with stampLayoutId := on } }

variable (x : Expander)

theorem rootOver_bare (p : Placeholder) (tree : Keyed Json) :
    (x.stamping false).rootOver p tree = p.graft tree := by
  unfold rootOver stamp
  exact ite_self _

theorem rootOver_stamped (p : Placeholder) {tree : Keyed Json} (ho : isOrgan tree = false) :
    (x.stamping true).rootOver p tree =
      Keyed.insert (p.graft tree) paramsKey
        (stamped (x.resolver p) (Keyed.get? (p.graft tree) paramsKey)) := by
  rw [rootOver_plain _ _ _ ho, ← stampLayoutId_eq]
  rfl

/-- one placeholder becomes twins, under the same reports -/
theorem twins_expandOrgan (left : Nat) (stack : List VariantKey) (fields : Keyed Json)
    (ho : isOrgan fields = true) :
    ((x.stamping true).expandOrgan left stack fields).diagnostics =
        ((x.stamping false).expandOrgan left stack fields).diagnostics ∧
      Twins x.lookup x.resolver (.object fields)
        ((x.stamping false).expandOrgan left stack fields).output
        ((x.stamping true).expandOrgan left stack fields).output := by
  refine (x.stamping false).expandOrgan_rec
    (P := fun left stack fields bare =>
      ((x.stamping true).expandOrgan left stack fields).diagnostics = bare.diagnostics ∧
        Twins x.lookup x.resolver (.object fields) bare.output
          ((x.stamping true).expandOrgan left stack fields).output) ?_ ?_ left stack fields ho
  · intro left stack fields d ho h
    have h' : (x.stamping true).Refusal left stack fields d :=
      h.agree rfl fun p _ => ⟨rfl, rfl, rfl⟩
    rw [(x.stamping true).expandOrgan_of_refusal h']
    exact ⟨rfl, .leftover ho⟩
  · intro below stack fields p tree entry ih
    have entry' : (x.stamping true).Entry stack fields p tree := entry.agree ⟨rfl, rfl, rfl⟩
    rw [(x.stamping true).expandOrgan_of_entry entry']
    cases htree : isOrgan tree with
    | true =>
      -- both go on at the same alias, which has no stamp to be seen
      have hroot : isOrgan (p.graft tree) = true := (p.isOrgan_graft tree).trans htree
      have halias := ih (p.graft tree) (by
        rw [exposedNode_rootOver_alias _ _ _ htree]
        exact List.mem_singleton_self _)
      rw [rootOver_alias _ _ _ htree, rootOver_alias _ _ _ htree, replaceNode_organ _ _ hroot,
        replaceNode_organ _ _ hroot]
      exact ⟨halias.1, .alias entry.view entry.load htree halias.2⟩
    | false =>
      have hroot : isOrgan (p.graft tree) = false := (p.isOrgan_graft tree).trans htree
      have hexposed : exposedNode (.object ((x.stamping true).rootOver p tree)) =
          exposedNode (.object ((x.stamping false).rootOver p tree)) := by
        rw [exposedNode_rootOver_plain _ _ _ htree, exposedNode_rootOver_plain _ _ _ htree]
      constructor
      · rw [(diagnostics_replace _).1, (diagnostics_replace _).1, hexposed]
        exact List.flatMap_congr fun inner hm => (ih inner hm).1
      · rw [rootOver_bare] at ih ⊢
        rw [exposedNode, if_neg (by simp [hroot])] at ih
        have hfields := fieldTwins_replace _ _ (p.graft tree) fun inner hm => (ih inner hm).2
        have hparams := (hfields.get? (show paramsKey ≠ childrenKey by decide)).1
        -- the stamp stands beside the children, so replacing them passes it by
        have hstamped := isOrgan_insert_params (p.graft tree)
          (stamped (x.resolver p) (Keyed.get? (p.graft tree) paramsKey))
        rw [x.rootOver_stamped p htree, replaceNode_plain _ _ hroot,
          replaceNode_plain _ _ (hstamped.trans hroot), replaceFields_insert _ _ (by decide)]
        simp only [Expanded.output_map]
        rw [← hparams]
        exact .root entry.view entry.load htree hfields

/-- **A stamp shows in `params` only.**  Whether roots are stamped or not, the same is reported and a
scan of the output finds the same.  The outputs are twins: leftovers and all nodes of the input and of
the variants' trees are the same up to their children, and a root in the place of a placeholder has the
variant recorded in its `params`. -/
theorem expand_stamping (x : Expander) (nodes : List Json) :
    let bare := (x.stamping false).expand nodes
    let marked := (x.stamping true).expand nodes
    marked.diagnostics = bare.diagnostics ∧
      findUnresolved marked.output = findUnresolved bare.output ∧
      ListTwins x.lookup x.resolver nodes bare.output marked.output := by
  intro bare marked
  have horgans : ∀ fields ∈ exposedNodes nodes, isOrgan fields = true :=
    isOrgan_of_mem_exposed.2 nodes
  have htwins : ListTwins x.lookup x.resolver nodes bare.output marked.output :=
    (twins_replace _ _).2 nodes fun fields hm =>
      (x.twins_expandOrgan x.options.maxDepth [] fields (horgans fields hm)).2
  refine ⟨?_, htwins.entries [] 0, htwins⟩
  refine ((diagnostics_replace _).2 nodes).trans (Eq.trans ?_ ((diagnostics_replace _).2 nodes).symm)
  exact List.flatMap_congr fun fields hm =>
    (x.twins_expandOrgan x.options.maxDepth [] fields (horgans fields hm)).1

/-- `params` that are no object make way for the stamp -/
example (on : Bool) :
    let lookup := Lookup.ofTable [⟨"hero", none, .object [("type", .string "Hero"), ("params", .null)]⟩]
    (((Expander.mk lookup .authored {}).stamping on).expand
        [.object [("type", .string "organ"), ("organId", .string "hero")]]).output =
      [.object [("type", .string "Hero"),
        ("params", if on then .object [("internalLayoutId", .string "default")] else .null)]] := by
  cases on <;> decide +kernel

end Expander

end Graft
