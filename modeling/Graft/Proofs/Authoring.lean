import Graft.Proofs.Places
import Graft.Proofs.Root
import Mathlib.Logic.Relation

/-!
# Authoring a variant and overriding it

A placeholder's variant may be written into the document or chosen by an override under its id.  The
id is handed on: if the chosen tree is an alias, the alias gets the id, and the override is asked for
it again, where the alias itself may author another variant.  Only then do the two differ.

* `editNodes`                    a change made to every object of a tree, children first;
* `replace_editNodes`            a replacement after a change of placeholders;
* `authorNodes`                  the variant written into every placeholder with an id;
* `Expander.expandOrgan_in_step` two expansions that choose alike come out alike;
* `Lookup.AliasesChoose`         every alias on the way from a tree authors the same variant;
* `Expander.expand_override`     then an override gives what authoring gives;
* `Expander.override_of_alias`   without that, it need not.
-/

namespace Graft

open Node Relation

/-! ## changes all over a tree -/

section

variable (f : Keyed Json → Keyed Json)

mutual

/-- `f` of its fields for every object that a survey visits, below placeholders too -/
def editNode : Json → Json
  | .object fields => .object (f (editFields fields))
  | node => node

def editNodes : List Json → List Json
  | [] => []
  | node :: rest => editNode node :: editNodes rest

/-- what stands under the children's key: an array is gone through -/
def editChildren : Json → Json
  | .array items => .array (editNodes items)
  | value => value

/-- the other fields are kept -/
def editFields : List (String × Json) → Keyed Json
  | [] => []
  | (key, value) :: rest =>
    if key = childrenKey then (key, editChildren value) :: rest else (key, value) :: editFields rest

end

theorem editNodes_cons (node : Json) (rest : List Json) :
    editNodes f (node :: rest) = editNode f node :: editNodes f rest := rfl

theorem editNode_of_not_object (node : Json) (h : ∀ fields, node ≠ .object fields) :
    editNode f node = node := by
  cases node with
  | object fields => exact absurd rfl (h fields)
  | _ => rfl

theorem editFields_children (fields : Keyed Json) (value : Json)
    (h : Keyed.get? fields childrenKey = some value) :
    editFields f fields = Keyed.insert fields childrenKey (editChildren f value) := by
  induction fields with
  | nil => exact absurd h (by simp [Keyed.get?])
  | cons field rest ih =>
    obtain ⟨key, old⟩ := field
    by_cases hk : key = childrenKey
    · rw [Keyed.get?, if_pos hk] at h
      rw [editFields, if_pos hk, Option.some.inj h, Keyed.insert, Keyed.update, if_pos hk]
    · rw [Keyed.get?, if_neg hk] at h
      rw [editFields, if_neg hk, ih h, Keyed.insert, Keyed.insert, Keyed.update, if_neg hk]

theorem editFields_no_children (fields : Keyed Json)
    (h : Keyed.get? fields childrenKey = none) : editFields f fields = fields := by
  induction fields with
  | nil => rfl
  | cons field rest ih =>
    obtain ⟨key, value⟩ := field
    by_cases hk : key = childrenKey
    · rw [Keyed.get?, if_pos hk] at h
      exact absurd h (by simp)
    · rw [Keyed.get?, if_neg hk] at h
      rw [editFields, if_neg hk, ih h]

theorem editFields_items (fields : Keyed Json) (items : List Json)
    (h : (Json.object fields).children? = some items) :
    editFields f fields = Keyed.insert fields childrenKey (.array (editNodes f items)) := by
  rw [editFields_children f fields _ (get?_of_children? h), editChildren]

theorem editFields_no_items (fields : Keyed Json) (h : (Json.object fields).children? = none) :
    editFields f fields = fields := by
  cases hv : Keyed.get? fields childrenKey with
  | none => exact editFields_no_children f fields hv
  | some value =>
    have hc : editChildren f value = value := by
      cases value with
      | array xs => simp [Json.children?, Json.field?, hv, Json.array?] at h
      | _ => rfl
    rw [editFields_children f fields value hv, hc, Keyed.insert_of_get? hv]

theorem get?_editFields (fields : Keyed Json) (key : String) (hk : key ≠ childrenKey) :
    Keyed.get? (editFields f fields) key = Keyed.get? fields key := by
  cases hv : Keyed.get? fields childrenKey with
  | none => rw [editFields_no_children f fields hv]
  | some value => rw [editFields_children f fields value hv, Keyed.get?_insert, if_neg (Ne.symm hk)]

theorem isOrgan_editFields (fields : Keyed Json) : isOrgan (editFields f fields) = isOrgan fields := by
  unfold isOrgan
  rw [get?_editFields f fields typeKey (by decide)]

variable {f}

/-- after a change of placeholders, a replacement finds each where it was before -/
theorem replace_edit (hplain : ∀ fields, isOrgan fields = false → f fields = fields)
    (horgan : ∀ fields, isOrgan (f fields) = isOrgan fields) (g : Keyed Json → Expanded Json) :
    (∀ node, replaceNode g (editNode f node) =
      replaceNode (fun fields => g (f (editFields f fields))) node) ∧
      ∀ nodes, replaceNodes g (editNodes f nodes) =
        replaceNodes (fun fields => g (f (editFields f fields))) nodes := by
  refine exposed_rec ?_ ?_ ?_ ?_ ?_ ?_
  · intro j hj
    rw [editNode_of_not_object f j hj, replaceNode_of_not_object _ j hj,
      replaceNode_of_not_object _ j hj]
  · intro own ho
    have ho' : isOrgan (f (editFields f own)) = true := by
      rw [horgan, isOrgan_editFields, ho]
    rw [editNode, replaceNode_organ _ _ ho', replaceNode_organ _ own ho]
  · intro own ho hc
    rw [editNode, editFields_no_items f own hc, hplain own ho, replaceNode_plain _ own ho,
      replaceNode_plain _ own ho, replaceFields_no_items _ own hc, replaceFields_no_items _ own hc]
  · intro own items ho hc ih
    have ho' := isOrgan_editFields f own
    rw [ho] at ho'
    rw [editNode, hplain _ ho', replaceNode_plain _ _ ho', replaceNode_plain _ own ho,
      replaceFields_items _ own items hc, editFields_items f own items hc,
      replaceFields_items _ _ _ (children?_insert own (editNodes f items)), ih]
    simp only [Expanded.map, Keyed.insert_insert]
  · rfl
  · intro j js hj hjs
    rw [editNodes_cons, replaceNodes_cons, replaceNodes_cons, hj, hjs]

end

/-! ## authoring -/

/-- the variant is written into the placeholder with the id `key` -/
def author (key variantId : String) (fields : Keyed Json) : Keyed Json :=
  if isOrgan fields = true ∧ Placeholder.text? fields idKey = some key then
    Keyed.insert fields variantKey (.string variantId)
  else fields

/-- nodes in which every placeholder with the id `key`, wherever it stands, authors the variant -/
def authorNodes (key variantId : String) (nodes : List Json) : List Json :=
  editNodes (author key variantId) nodes

theorem author_plain (key variantId : String) (fields : Keyed Json) (h : isOrgan fields = false) :
    author key variantId fields = fields := if_neg (by simp [h])

theorem get?_author (key variantId : String) (fields : Keyed Json) (k : String)
    (hk : k ≠ variantKey) :
    Keyed.get? (author key variantId fields) k = Keyed.get? fields k := by
  unfold author
  split
  · rw [Keyed.get?_insert, if_neg (Ne.symm hk)]
  · rfl

theorem isOrgan_author (key variantId : String) (fields : Keyed Json) :
    isOrgan (author key variantId fields) = isOrgan fields := by
  unfold isOrgan
  rw [get?_author key variantId fields typeKey (by decide)]

/-! ## two expansions in step -/

namespace Expander

/-- `p` under `x` and `q` under `y` load the same tree and make the same root of it -/
structure Alike (x y : Expander) (p q : Placeholder) : Prop where
  organId : q.organId = p.organId
  variant : y.resolver q = x.resolver p
  graft : ∀ tree, q.graft tree = p.graft tree

variable {x y : Expander}

theorem Alike.keyOf {p q : Placeholder} (h : Alike x y p q) : y.keyOf q = x.keyOf p := by
  unfold Expander.keyOf
  rw [h.organId, h.variant]

theorem Alike.rootOver {p q : Placeholder} (h : Alike x y p q) (ho : y.options = x.options)
    (tree : Keyed Json) : y.rootOver q tree = x.rootOver p tree := by
  unfold Expander.rootOver stamp
  rw [h.graft, h.variant, ho]

/-- If placeholders that `S` relates are alike, and whatever their tree exposes is related to itself,
then an expansion under `x` that reports nothing is the expansion under `y`. -/
theorem expandOrgan_in_step (hl : y.lookup = x.lookup) (ho : y.options = x.options)
    {S : Keyed Json → Keyed Json → Prop}
    (alike : ∀ f g p, S f g → Placeholder.ofFields? f = some p →
      ∃ q, Placeholder.ofFields? g = some q ∧ Alike x y p q)
    (below : ∀ f g p tree, S f g → Placeholder.ofFields? f = some p →
      x.lookup.load p.organId (x.resolver p) = some (.object tree) →
      ∀ inner ∈ exposedNode (.object (x.rootOver p tree)), S inner inner)
    (left : Nat) (stack : List VariantKey) (f g : Keyed Json) (h : S f g)
    (hc : (x.expandOrgan left stack f).diagnostics = []) :
    y.expandOrgan left stack g = x.expandOrgan left stack f := by
  induction left generalizing stack f g with
  | zero =>
    obtain ⟨_, _, _, hleft, _⟩ := x.entry_of_clean hc
    exact absurd hleft (Nat.succ_ne_zero _).symm
  | succ left ih =>
    obtain ⟨_, p, tree, hleft, entry⟩ := x.entry_of_clean hc
    obtain rfl := Nat.succ.inj hleft
    obtain ⟨q, hq, hpq⟩ := alike f g p h entry.view
    have entry' : y.Entry stack g q tree := by
      refine ⟨hq, ?_, ?_⟩
      · rw [hpq.keyOf]
        exact entry.fresh
      · rw [hl, hpq.organId, hpq.variant]
        exact entry.load
    rw [x.expandOrgan_of_entry entry] at hc ⊢
    rw [y.expandOrgan_of_entry entry', hpq.keyOf, hpq.rootOver ho]
    rw [(diagnostics_replace _).1, List.flatMap_eq_nil_iff] at hc
    refine (replace_congr _ _).1 _ fun inner hm => ?_
    exact ih _ inner inner (below f g p tree h entry.view entry.load inner hm) (hc inner hm)

end Expander

/-! ## aliases of one variant -/

namespace Lookup

/-- a placeholder with `fields` leads to the tree of the variant that it authors -/
def Leads (lookup : Lookup) (fields tree : Keyed Json) : Prop :=
  ∃ p, Placeholder.ofFields? fields = some p ∧
    lookup.load p.organId p.variantOrDefault = some (.object tree)

/-- `tree`, if it is an alias, and every alias that it leads to author `variantId` -/
def AliasesChoose (lookup : Lookup) (variantId : String) (tree : Keyed Json) : Prop :=
  ∀ reached p, ReflTransGen lookup.Leads tree reached → Placeholder.ofFields? reached = some p →
    p.variantOrDefault = variantId

variable {lookup : Lookup} {variantId : String} {tree : Keyed Json}

theorem AliasesChoose.of_plain (h : Placeholder.ofFields? tree = none) :
    lookup.AliasesChoose variantId tree := by
  intro reached p hpath hp
  rcases hpath.cases_head with rfl | ⟨_, ⟨q, hq, _⟩, _⟩
  · exact absurd (h.symm.trans hp) (by simp)
  · exact absurd (h.symm.trans hq) (by simp)

theorem AliasesChoose.of_alias {p : Placeholder} (hp : Placeholder.ofFields? tree = some p)
    (hv : p.variantOrDefault = variantId)
    (h : ∀ next, lookup.load p.organId variantId = some (.object next) →
      lookup.AliasesChoose variantId next) : lookup.AliasesChoose variantId tree := by
  intro reached q hpath hq
  rcases hpath.cases_head with rfl | ⟨next, ⟨p', hp', hload⟩, hpath⟩
  · obtain rfl := Option.some.inj (hp.symm.trans hq)
    exact hv
  · obtain rfl := Option.some.inj (hp.symm.trans hp')
    rw [hv] at hload
    exact h next hload reached q hpath hq

theorem AliasesChoose.next {p : Placeholder} {next : Keyed Json}
    (h : lookup.AliasesChoose variantId tree) (hp : Placeholder.ofFields? tree = some p)
    (hload : lookup.load p.organId variantId = some (.object next)) :
    lookup.AliasesChoose variantId next := by
  intro reached q hpath hq
  have hv := h tree p .refl hp
  exact h reached q (.head ⟨p, hp, by rwa [hv]⟩ hpath) hq

end Lookup

/-! ## an override beside authoring -/

/-- one override -/
theorem resolver_choose (key variantId : String) (p : Placeholder) :
    (Overrides.empty.choose key variantId).resolver p =
      if p.instanceKey = some key ∨ p.organId = key then variantId else p.variantOrDefault := by
  have hget : ∀ k, (Overrides.empty.choose key variantId).get? k =
      if key = k then some variantId else none :=
    fun k => Overrides.get?_choose .empty key k variantId
  unfold Overrides.resolver resolveVariant
  show ((Overrides.empty.choose key variantId).variant? p).getD _ = _
  unfold Overrides.variant?
  rw [hget]
  cases hi : p.instanceKey with
  | none =>
    by_cases ho : p.organId = key
    · simp [ho]
    · simp [ho, Ne.symm ho]
  | some own =>
    rw [Option.bind_some, hget]
    by_cases hk : own = key
    · simp [hk]
    · by_cases ho : p.organId = key
      · simp [hk, Ne.symm hk, ho]
      · simp [hk, Ne.symm hk, ho, Ne.symm ho]

/-- `authored` is what authoring makes of `fields`: it differs from them in the variant and below, and
in the variant only if the id is `key`; then what is authored is `variantId`, also by the aliases that
get the id -/
structure Overridden (lookup : Lookup) (key variantId : String) (authored fields : Keyed Json) :
    Prop where
  same : ∀ k, k ≠ variantKey → k ≠ childrenKey → Keyed.get? authored k = Keyed.get? fields k
  choice : ∀ p, Placeholder.ofFields? authored = some p →
    (p.instanceKey = some key ∧ p.variantOrDefault = variantId ∧
        ∀ tree, lookup.load p.organId variantId = some (.object tree) →
          lookup.AliasesChoose variantId tree) ∨
      (p.instanceKey ≠ some key ∧ p.organId ≠ key ∧
        Keyed.get? authored variantKey = Keyed.get? fields variantKey)

namespace Overridden

variable {lookup : Lookup} {key variantId : String} {authored fields : Keyed Json}

theorem of_free (h : ∀ p, Placeholder.ofFields? fields = some p →
      p.instanceKey ≠ some key ∧ p.organId ≠ key) :
    Overridden lookup key variantId fields fields :=
  ⟨fun _ _ _ => rfl, fun p hp => Or.inr ⟨(h p hp).1, (h p hp).2, rfl⟩⟩

/-- the authored run and the overridden one choose alike -/
theorem alike (options : ExpandOptions) (h : Overridden lookup key variantId authored fields)
    {p : Placeholder} (hp : Placeholder.ofFields? authored = some p) :
    ∃ q, Placeholder.ofFields? fields = some q ∧
      Expander.Alike ⟨lookup, .authored, options⟩
        ⟨lookup, (Overrides.empty.choose key variantId).resolver, options⟩ p q := by
  obtain ⟨ho, horgan, hvariant, hid, hfields⟩ := Placeholder.ofFields?_eq_some_iff.mp hp
  have htext : ∀ k, k ≠ variantKey → k ≠ childrenKey →
      Placeholder.text? fields k = Placeholder.text? authored k := by
    intro k hv hc
    unfold Placeholder.text?
    rw [h.same k hv hc]
  have ho' : isOrgan fields = true := by
    unfold isOrgan at ho ⊢
    rwa [← h.same typeKey (by decide) (by decide)]
  let q : Placeholder := ⟨p.organId, Placeholder.text? fields variantKey, p.instanceKey, fields⟩
  have hq : Placeholder.ofFields? fields = some q := by
    refine Placeholder.ofFields?_eq_some_iff.mpr ⟨ho', ?_, rfl, ?_, rfl⟩
    · rw [htext organIdKey (by decide) (by decide), horgan]
    · rw [htext idKey (by decide) (by decide), hid]
  refine ⟨q, hq, rfl, ?_, fun tree => Placeholder.graft_congr tree fun k hk => ?_⟩
  · show (Overrides.empty.choose key variantId).resolver q = p.variantOrDefault
    rw [resolver_choose]
    rcases h.choice p hp with ⟨hkey, hv, _⟩ | ⟨hkey, horg, hv⟩
    · rw [if_pos (Or.inl hkey), hv]
    · have hvar : q.variant = p.variant := by
        show (Keyed.get? fields variantKey).bind Json.string? = p.variant
        rw [← hvariant, ← hv]
        rfl
      rw [if_neg (not_or.mpr ⟨hkey, horg⟩), Placeholder.variantOrDefault, hvar]
      rfl
  · have hne : ∀ k ∈ idKey :: overrideKeys, k ≠ variantKey ∧ k ≠ childrenKey := by decide
    unfold Placeholder.field?
    rw [← hfields]
    exact (h.same k (hne k hk).1 (hne k hk).2).symm

/-- an alias takes its organ and its variant from the tree and its id from the placeholder -/
theorem below (h : Overridden lookup key variantId authored fields)
    (trees : ∀ organId w tree, lookup.load organId w = some tree →
      ∀ q ∈ placeholders [tree], q.instanceKey ≠ some key ∧ q.organId ≠ key)
    {x : Expander} {p : Placeholder} {tree : Keyed Json}
    (hp : Placeholder.ofFields? authored = some p)
    (hload : lookup.load p.organId p.variantOrDefault = some (.object tree)) :
    ∀ inner ∈ exposedNode (.object (x.rootOver p tree)),
      Overridden lookup key variantId inner inner := by
  intro inner hm
  have hfree : ∀ q, ∀ own ∈ exposedNode (.object tree), Placeholder.ofFields? own = some q →
      q.instanceKey ≠ some key ∧ q.organId ≠ key := by
    intro q own hown hq
    rw [← exposedNodes_singleton] at hown
    exact trees _ _ _ hload q (mem_placeholders_of_exposed hown hq)
  cases htree : isOrgan tree with
  | false =>
    rw [x.exposedNode_rootOver_plain p tree htree] at hm
    exact of_free fun q hq => hfree q inner hm hq
  | true =>
    rw [x.exposedNode_rootOver_alias p tree htree, List.mem_singleton] at hm
    subst hm
    refine ⟨fun _ _ _ => rfl, fun q hq => ?_⟩
    obtain ⟨t, ht, halias⟩ := Placeholder.aliasOf_graft hp hq
    have hown : t.instanceKey ≠ some key ∧ t.organId ≠ key :=
      hfree t tree (by rw [exposedNode_organ tree htree]; exact List.mem_singleton_self _) ht
    rcases h.choice p hp with ⟨hkey, hv, haliases⟩ | ⟨hkey, _, _⟩
    · -- the id is handed on, so the alias must author the variant that the override chooses
      rw [hv] at hload
      have hal := haliases tree hload
      have hqv : q.variantOrDefault = variantId := by
        rw [← hal tree t .refl ht, Placeholder.variantOrDefault, halias.variant]
        rfl
      refine Or.inl ⟨halias.handed key hkey, hqv, fun next hnext => hal.next ht ?_⟩
      rwa [← halias.organId]
    · refine Or.inr ⟨fun hq => ?_, ?_, rfl⟩
      · exact (halias.source key hq).elim hkey hown.1
      · rw [halias.organId]
        exact hown.2

theorem of_author {nodes : List Json}
    (others : ∀ p ∈ placeholders nodes, p.organId = key → p.instanceKey = some key)
    (aliases : ∀ p ∈ placeholders nodes, p.instanceKey = some key → ∀ tree,
      lookup.load p.organId variantId = some (.object tree) → lookup.AliasesChoose variantId tree)
    (hm : fields ∈ exposedNodes nodes) :
    Overridden lookup key variantId
      (author key variantId (editFields (author key variantId) fields)) fields := by
  have hsame : ∀ k, k ≠ variantKey → k ≠ childrenKey →
      Keyed.get? (author key variantId (editFields (author key variantId) fields)) k =
        Keyed.get? fields k := by
    intro k hv hc
    rw [get?_author key variantId _ k hv, get?_editFields _ fields k hc]
  refine ⟨hsame, fun p hp => ?_⟩
  obtain ⟨ho, horgan, hvariant, hid, _⟩ := Placeholder.ofFields?_eq_some_iff.mp hp
  unfold Placeholder.text? at horgan hid
  rw [hsame _ (by decide) (by decide)] at horgan hid
  rw [isOrgan_author] at ho
  let own : Placeholder :=
    ⟨p.organId, Placeholder.text? fields variantKey, p.instanceKey, fields⟩
  have hown : Placeholder.ofFields? fields = some own := by
    rw [isOrgan_editFields] at ho
    exact Placeholder.ofFields?_eq_some_iff.mpr ⟨ho, horgan, rfl, hid, rfl⟩
  have hmem : own ∈ placeholders nodes := mem_placeholders_of_exposed hm hown
  have hid' : Placeholder.text? (editFields (author key variantId) fields) idKey =
      p.instanceKey := by
    unfold Placeholder.text?
    rw [get?_editFields _ fields idKey (by decide), hid]
  by_cases hkey : p.instanceKey = some key
  · refine Or.inl ⟨hkey, ?_, aliases own hmem hkey⟩
    unfold author at hvariant
    rw [if_pos ⟨ho, hid'.trans hkey⟩] at hvariant
    unfold Placeholder.text? at hvariant
    rw [Keyed.get?_insert, if_pos rfl] at hvariant
    rw [Placeholder.variantOrDefault, ← hvariant]
    rfl
  · refine Or.inr ⟨hkey, fun horg => hkey (others own hmem horg), ?_⟩
    unfold author
    rw [if_neg (fun h => hkey (hid'.symm.trans h.2)), get?_editFields _ fields variantKey (by decide)]

end Overridden

namespace Expander

/-- **An override of one id gives what authoring gives**, if `key` is the organ of no placeholder with
another id and occurs in no tree, and if the aliases that the chosen tree leads to, to which the id is
handed on, author the same variant. -/
theorem expand_override (lookup : Lookup) (options : ExpandOptions) (key variantId : String)
    (nodes : List Json)
    (others : ∀ p ∈ placeholders nodes, p.organId = key → p.instanceKey = some key)
    (trees : ∀ organId w tree, lookup.load organId w = some tree →
      ∀ p ∈ placeholders [tree], p.instanceKey ≠ some key ∧ p.organId ≠ key)
    (aliases : ∀ p ∈ placeholders nodes, p.instanceKey = some key → ∀ tree,
      lookup.load p.organId variantId = some (.object tree) → lookup.AliasesChoose variantId tree)
    (complete : ((Expander.mk lookup .authored options).expand
      (authorNodes key variantId nodes)).isComplete = true) :
    ((Expander.mk lookup (Overrides.empty.choose key variantId).resolver options).expand
        nodes).isComplete = true ∧
      ((Expander.mk lookup (Overrides.empty.choose key variantId).resolver options).expand
          nodes).output =
        ((Expander.mk lookup .authored options).expand
          (authorNodes key variantId nodes)).output := by
  let x : Expander := ⟨lookup, .authored, options⟩
  let y : Expander := ⟨lookup, (Overrides.empty.choose key variantId).resolver, options⟩
  let authored := fun fields => author key variantId (editFields (author key variantId) fields)
  have hx : x.expand (authorNodes key variantId nodes) =
      replaceNodes (fun fields => x.expandOrgan options.maxDepth [] (authored fields)) nodes :=
    (replace_edit (author_plain key variantId) (isOrgan_author key variantId) _).2 nodes
  have hclean : ∀ fields ∈ exposedNodes nodes,
      (x.expandOrgan options.maxDepth [] (authored fields)).diagnostics = [] := by
    have hd := (Expanded.isComplete_iff _).mp complete
    rwa [hx, (diagnostics_replace _).2, List.flatMap_eq_nil_iff] at hd
  have hy : y.expand nodes = x.expand (authorNodes key variantId nodes) := by
    rw [hx]
    refine replaceNodes_congr fun fields hm => ?_
    refine expandOrgan_in_step (x := x) (y := y) rfl rfl
      (S := Overridden lookup key variantId) ?_ ?_ _ [] (authored fields) fields ?_ (hclean fields hm)
    · exact fun f g p h hp => h.alike options hp
    · exact fun f g p tree h hp hload => h.below trees hp hload
    · exact .of_author others aliases hm
  show (y.expand nodes).isComplete = true ∧ (y.expand nodes).output = _
  rw [hy]
  exact ⟨complete, rfl⟩

/-- an alias of a card -/
def cardAlias (variantId : String) : Keyed Json :=
  [("type", .string "organ"), ("organId", .string "card"), ("variant", .string variantId)]

def splitCard : Keyed Json := [("type", .string "Split"), ("id", .string "c1")]

/-- `teaser` stands for the card of the same variant, `hero` for the wide one -/
def teaserTable : List Lookup.Row := [
  ⟨"teaser", some "split", .object (cardAlias "split")⟩,
  ⟨"hero", some "split", .object (cardAlias "wide")⟩,
  ⟨"card", some "wide", .object [("type", .string "Wide")]⟩,
  ⟨"card", some "split", .object splitCard⟩]

theorem free_of_teaserTable (organId w : String) (tree : Json)
    (ht : (Lookup.ofTable teaserTable).load organId w = some tree) :
    ∀ p ∈ placeholders [tree], p.instanceKey ≠ some "k1" ∧ p.organId ≠ "k1" := by
  obtain ⟨row, hrow, rfl⟩ := Lookup.load_ofTable ht
  have hrows : ∀ row ∈ teaserTable, ∀ p ∈ placeholders [row.tree],
      p.instanceKey ≠ some "k1" ∧ p.organId ≠ "k1" := by decide
  exact hrows row hrow

/-- the placeholder with the id stands below an ordinary node, beside another one -/
def teaserPage : List Json := [
  .object [("children", .array [
    .object [("type", .string "organ"), ("organId", .string "teaser"), ("variant", .string "wide"),
      ("id", .string "k1"), ("params", .object [("rows", .null)])]])],
  .object [("type", .string "organ"), ("organId", .string "card"), ("variant", .string "wide")]]

theorem expand_override_teaserPage :
    let lookup := Lookup.ofTable teaserTable
    let x : Expander := ⟨lookup, .authored, {}⟩
    let y : Expander := ⟨lookup, (Overrides.empty.choose "k1" "split").resolver, {}⟩
    ((∀ p ∈ placeholders teaserPage, p.organId = "k1" → p.instanceKey = some "k1") ∧
        (∀ organId w tree, lookup.load organId w = some tree →
          ∀ p ∈ placeholders [tree], p.instanceKey ≠ some "k1" ∧ p.organId ≠ "k1") ∧
        (∀ p ∈ placeholders teaserPage, p.instanceKey = some "k1" → ∀ tree,
          lookup.load p.organId "split" = some (.object tree) →
            lookup.AliasesChoose "split" tree) ∧
        (x.expand (authorNodes "k1" "split" teaserPage)).isComplete = true) ∧
      (y.expand teaserPage).isComplete = true ∧
        (y.expand teaserPage).output = (x.expand (authorNodes "k1" "split" teaserPage)).output := by
  intro lookup x y
  have hothers : ∀ p ∈ placeholders teaserPage, p.organId = "k1" → p.instanceKey = some "k1" := by
    decide
  have haliases : ∀ p ∈ placeholders teaserPage, p.instanceKey = some "k1" → ∀ tree,
      lookup.load p.organId "split" = some (.object tree) →
        lookup.AliasesChoose "split" tree := by
    intro p hp hkey tree hload
    have hteaser : ∀ p ∈ placeholders teaserPage, p.instanceKey = some "k1" →
        p.organId = "teaser" := by decide
    rw [hteaser p hp hkey] at hload
    have hload' : lookup.load "teaser" "split" = some (.object (cardAlias "split")) := by decide
    have hcard : lookup.load "card" "split" = some (.object splitCard) := by decide
    obtain rfl := Json.object.inj (Option.some.inj (hload'.symm.trans hload))
    let p : Placeholder := ⟨"card", some "split", none, cardAlias "split"⟩
    have hp : Placeholder.ofFields? (cardAlias "split") = some p := by decide
    refine .of_alias hp rfl fun next hnext => ?_
    obtain rfl := Json.object.inj (Option.some.inj (hcard.symm.trans hnext))
    exact .of_plain (by decide)
  have hcomplete : (x.expand (authorNodes "k1" "split" teaserPage)).isComplete = true := by
    decide +kernel
  exact ⟨⟨hothers, free_of_teaserTable, haliases, hcomplete⟩,
    expand_override lookup {} "k1" "split" teaserPage hothers free_of_teaserTable haliases hcomplete⟩

/-- **An override goes on to choose for aliases.**  The one placeholder with the id is of an organ whose
split variant stands for the wide card.  Authored, it becomes the wide card; overridden, the split one. -/
theorem override_of_alias :
    let lookup := Lookup.ofTable teaserTable
    let x : Expander := ⟨lookup, .authored, {}⟩
    let y : Expander := ⟨lookup, (Overrides.empty.choose "k1" "split").resolver, {}⟩
    let fields : Keyed Json :=
      [("type", .string "organ"), ("organId", .string "hero"), ("id", .string "k1")]
    let nodes : List Json := [.object fields]
    placeholders nodes = [⟨"hero", none, some "k1", fields⟩] ∧
      (∀ organId w tree, lookup.load organId w = some tree →
        ∀ p ∈ placeholders [tree], p.instanceKey ≠ some "k1" ∧ p.organId ≠ "k1") ∧
      authorNodes "k1" "split" nodes = [.object (fields ++ [("variant", .string "split")])] ∧
      (x.expand (authorNodes "k1" "split" nodes)).isComplete = true ∧
      (x.expand (authorNodes "k1" "split" nodes)).output =
        [.object [("type", .string "Wide"), ("id", .string "k1"),
          ("params", .object [("internalLayoutId", .string "wide")])]] ∧
      (y.expand nodes).output =
        [.object [("type", .string "Split"), ("id", .string "k1"),
          ("params", .object [("internalLayoutId", .string "split")])]] ∧
      (y.expand nodes).output ≠ (x.expand (authorNodes "k1" "split" nodes)).output := by
  intro lookup x y fields nodes
  exact ⟨by decide, free_of_teaserTable, by decide, by decide +kernel, by decide +kernel,
    by decide +kernel, by decide +kernel⟩

end Expander

end Graft
