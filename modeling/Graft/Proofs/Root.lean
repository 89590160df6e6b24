import Graft.Proofs.Step

/-!
# The root that takes a placeholder's place

Field by field, the root that a placeholder is replaced by comes from the variant's tree: `layout`,
`params` and `content` with the placeholder's own laid over them, the id with the placeholder's own
before it, and all other fields as they are.

* `overlaid?`, `ownId?`   one optional field over another; an id that is one;
* `Placeholder.get?_graft_override`, `get?_graft_id`, `get?_graft_other`   the grafted root;
* `Placeholder.aliasOf_graft`   the grafted root of an alias, seen as a placeholder;
* `Placeholder.keys_prefix_graft`   its new keys go last;
* `get?_stampLayoutId_params`   what the stamp makes of `params`;
* `Expander.get?_rootOver_graft`, `Expander.get?_rootOver_params`   the stamped root;
* `Expander.get?_rootOver`, `Expander.children?_rootOver`   what expansion leaves of the tree;
* `Expander.exposedNode_rootOver_alias`, `Expander.exposedNode_rootOver_plain`   what it exposes.
-/

namespace Graft

open Node

/-- a field that may be there under one that may be laid over it -/
def overlaid? (base : Option Json) : Option Json → Option Json
  | none => base
  | some overlay => some (Json.mergeInto overlay base)

/-- the id, unless it is `null` -/
def ownId? (fields : Keyed Json) : Option Json :=
  (Keyed.get? fields idKey).filter fun id => id ≠ .null

theorem ownId?_eq_some {fields : Keyed Json} {id : Json} :
    ownId? fields = some id ↔ Keyed.get? fields idKey = some id ∧ id ≠ .null := by
  unfold ownId?
  rw [Option.filter_eq_some_iff]
  simp

theorem ownId?_congr {fields fields' : Keyed Json}
    (h : Keyed.get? fields idKey = Keyed.get? fields' idKey) : ownId? fields = ownId? fields' := by
  rw [ownId?, h, ownId?]

theorem Keyed.keys_prefix_update {α : Type*} (m : Keyed α) (key : String) (f : Option α → α) :
    keys m <+: keys (update m key f) := by
  by_cases h : key ∈ keys m
  · simp only [keys_update_of_mem m key f h, List.prefix_refl]
  · rw [keys_update_of_not_mem m key f h]
    exact List.prefix_append _ _

/-! ## the grafted root -/

namespace Placeholder

variable (p : Placeholder)

theorem get?_foldl_overlay (keys : List String) (tree : Keyed Json) (key : String)
    (hn : keys.Nodup) :
    Keyed.get? (keys.foldl p.overlay tree) key =
      if key ∈ keys then overlaid? (Keyed.get? tree key) (p.field? key) else Keyed.get? tree key := by
  induction keys generalizing tree with
  | nil => rfl
  | cons k rest ih =>
    obtain ⟨hk, hrest⟩ := List.nodup_cons.mp hn
    rw [List.foldl_cons, ih _ hrest, get?_overlay]
    by_cases he : k = key
    · subst he
      rw [if_neg hk, if_pos rfl, if_pos List.mem_cons_self]
      cases p.field? k <;> rfl
    · rw [if_neg he]
      simp [Ne.symm he]

theorem field?_ownId : ownId? p.fields = (p.field? idKey).filter fun id => id ≠ .null := rfl

theorem keepId_none (tree : Keyed Json) (h : ownId? p.fields = none) : p.keepId tree = tree := by
  unfold keepId
  cases hf : p.field? idKey with
  | none => rfl
  | some id =>
    have hid : ¬ id ≠ .null := by
      rw [field?_ownId, hf] at h
      simpa [Option.filter] using h
    rw [not_not.mp hid]

theorem keepId_some (tree : Keyed Json) {id : Json} (h : ownId? p.fields = some id) :
    p.keepId tree = Keyed.insert tree idKey id := by
  obtain ⟨hf, hid⟩ := ownId?_eq_some.mp h
  have hf' : p.field? idKey = some id := hf
  unfold keepId
  rw [hf']
  cases id <;> first | rfl | exact absurd rfl hid

theorem get?_graft_override (tree : Keyed Json) (key : String) (hk : key ∈ overrideKeys) :
    Keyed.get? (p.graft tree) key = overlaid? (Keyed.get? tree key) (p.field? key) := by
  have hid : key ≠ idKey := by
    rintro rfl
    exact absurd hk (by decide)
  rw [graft, get?_keepId _ _ _ hid, get?_foldl_overlay _ _ _ _ (by decide), if_pos hk]

theorem get?_graft_other (tree : Keyed Json) (key : String) (hk : key ∉ overrideKeys)
    (hid : key ≠ idKey) : Keyed.get? (p.graft tree) key = Keyed.get? tree key := by
  rw [graft, get?_keepId _ _ _ hid, get?_foldl_overlay _ _ _ _ (by decide), if_neg hk]

theorem get?_graft_id (tree : Keyed Json) :
    Keyed.get? (p.graft tree) idKey = (ownId? p.fields).or (Keyed.get? tree idKey) := by
  have hfold : Keyed.get? (overrideKeys.foldl p.overlay tree) idKey = Keyed.get? tree idKey := by
    rw [get?_foldl_overlay _ _ _ _ (by decide), if_neg (by decide)]
  rw [graft]
  cases h : ownId? p.fields with
  | none => rw [keepId_none _ _ h, hfold, Option.none_or]
  | some id => rw [keepId_some _ _ h, Keyed.get?_insert, if_pos rfl, Option.some_or]

theorem ownId?_graft (tree : Keyed Json) :
    ownId? (p.graft tree) = (ownId? p.fields).or (ownId? tree) := by
  cases h : ownId? p.fields with
  | none =>
    rw [Option.none_or]
    refine ownId?_congr ?_
    rw [get?_graft_id, h, Option.none_or]
  | some id =>
    rw [Option.some_or, ownId?_eq_some, get?_graft_id, h]
    exact ⟨rfl, (ownId?_eq_some.mp h).2⟩

theorem isOrgan_graft (tree : Keyed Json) : isOrgan (p.graft tree) = isOrgan tree := by
  unfold isOrgan
  rw [get?_graft_other _ _ _ (by decide) (by decide)]

theorem text?_graft (tree : Keyed Json) (key : String) (hk : key ∉ overrideKeys)
    (hid : key ≠ idKey) : text? (p.graft tree) key = text? tree key := by
  unfold text?
  rw [get?_graft_other _ _ _ hk hid]

/-- what an alias `q` has from the placeholder `p` whose place it takes and from itself, as it stands
in its own tree as `t` -/
structure AliasOf (p t q : Placeholder) : Prop where
  organId : q.organId = t.organId
  variant : q.variant = t.variant
  /-- the id is handed on -/
  handed : ∀ key, p.instanceKey = some key → q.instanceKey = some key
  source : ∀ key, q.instanceKey = some key → p.instanceKey = some key ∨ t.instanceKey = some key

theorem aliasOf_graft {fields tree : Keyed Json} {p q : Placeholder}
    (hp : ofFields? fields = some p) (hq : ofFields? (p.graft tree) = some q) :
    ∃ t, ofFields? tree = some t ∧ AliasOf p t q := by
  obtain ⟨_, _, _, hpid, rfl⟩ := ofFields?_eq_some_iff.mp hp
  obtain ⟨horgan, hname, hvariant, hid, _⟩ := ofFields?_eq_some_iff.mp hq
  rw [p.isOrgan_graft] at horgan
  rw [p.text?_graft tree organIdKey (by decide) (by decide)] at hname
  rw [p.text?_graft tree variantKey (by decide) (by decide)] at hvariant
  have hid' : ((ownId? p.fields).or (Keyed.get? tree idKey)).bind Json.string? = q.instanceKey := by
    rw [← p.get?_graft_id]
    exact hid
  refine ⟨⟨q.organId, q.variant, text? tree idKey, tree⟩,
    ofFields?_eq_some_iff.mpr ⟨horgan, hname, hvariant, rfl, rfl⟩, rfl, rfl, ?_, ?_⟩
  · intro key hkey
    rw [hkey] at hpid
    obtain ⟨id, hget, hstr⟩ := Option.bind_eq_some_iff.mp hpid
    have hown : ownId? p.fields = some id := by
      refine ownId?_eq_some.mpr ⟨hget, ?_⟩
      rintro rfl
      exact nomatch hstr
    rw [← hid', hown]
    exact hstr
  · intro key hkey
    rw [hkey] at hid'
    cases hown : ownId? p.fields with
    | none =>
      rw [hown, Option.none_or] at hid'
      exact Or.inr hid'
    | some id =>
      rw [hown] at hid'
      refine Or.inl (hpid.symm.trans ?_)
      unfold text?
      rw [(ownId?_eq_some.mp hown).1]
      exact hid'

theorem keys_prefix_overlay (tree : Keyed Json) (key : String) :
    Keyed.keys tree <+: Keyed.keys (p.overlay tree key) := by
  unfold overlay
  cases p.field? key with
  | none => exact List.prefix_refl _
  | some value => exact Keyed.keys_prefix_update tree key _

theorem keys_prefix_graft (tree : Keyed Json) :
    Keyed.keys tree <+: Keyed.keys (p.graft tree) := by
  have hfold : ∀ (keys : List String) (tree : Keyed Json),
      Keyed.keys tree <+: Keyed.keys (keys.foldl p.overlay tree) := by
    intro keys
    induction keys with
    | nil => exact fun _ => List.prefix_refl _
    | cons k rest ih => exact fun tree => (p.keys_prefix_overlay tree k).trans (ih _)
  refine (hfold overrideKeys tree).trans ?_
  rw [graft]
  cases h : ownId? p.fields with
  | none => simp only [keepId_none _ _ h, List.prefix_refl]
  | some id =>
    rw [keepId_some _ _ h]
    exact Keyed.keys_prefix_update _ _ _

end Placeholder

/-! ## the stamp -/

/-- `params` with the variant recorded -/
def stamped (variantId : String) : Option Json → Json
  | some (.object params) => .object (Keyed.insert params layoutIdKey (.string variantId))
  | _ => .object [(layoutIdKey, .string variantId)]

theorem get?_stampLayoutId_params (variantId : String) (tree : Keyed Json) :
    Keyed.get? (stampLayoutId variantId tree) paramsKey =
      some (stamped variantId (Keyed.get? tree paramsKey)) := by
  unfold stampLayoutId
  rw [Keyed.get?_update, if_pos rfl]
  rfl

theorem keys_prefix_stampLayoutId (variantId : String) (tree : Keyed Json) :
    Keyed.keys tree <+: Keyed.keys (stampLayoutId variantId tree) :=
  Keyed.keys_prefix_update tree paramsKey _

/-! ## what an expansion goes on with -/

namespace Expander

variable (x : Expander) (p : Placeholder) (tree : Keyed Json)

theorem rootOver_alias (h : isOrgan tree = true) : x.rootOver p tree = p.graft tree := by
  rw [rootOver, if_pos (by rw [p.isOrgan_graft, h])]

theorem rootOver_plain (h : isOrgan tree = false) :
    x.rootOver p tree = x.stamp (x.resolver p) (p.graft tree) := by
  rw [rootOver, if_neg (by rw [p.isOrgan_graft, h]; simp)]

theorem get?_rootOver_graft (key : String) (hk : key ≠ paramsKey) :
    Keyed.get? (x.rootOver p tree) key = Keyed.get? (p.graft tree) key := by
  unfold rootOver stamp
  split
  · rfl
  · split
    · rw [get?_stampLayoutId _ _ key hk]
    · rfl

theorem get?_rootOver_params (h : isOrgan tree = false) :
    Keyed.get? (x.rootOver p tree) paramsKey =
      if x.options.stampLayoutId then
        some (stamped (x.resolver p) (Keyed.get? (p.graft tree) paramsKey))
      else Keyed.get? (p.graft tree) paramsKey := by
  rw [rootOver_plain _ _ _ h]
  unfold stamp
  split
  · rw [get?_stampLayoutId_params]
  · rfl

theorem get?_rootOver (key : String) (hk : key ∉ overrideKeys) (hid : key ≠ idKey) :
    Keyed.get? (x.rootOver p tree) key = Keyed.get? tree key := by
  have hparams : key ≠ paramsKey := by
    rintro rfl
    exact hk (by decide)
  rw [get?_rootOver_graft _ _ _ key hparams, p.get?_graft_other tree key hk hid]

theorem keys_prefix_rootOver : Keyed.keys tree <+: Keyed.keys (x.rootOver p tree) := by
  refine (p.keys_prefix_graft tree).trans ?_
  unfold rootOver stamp
  split
  · exact List.prefix_refl _
  · split
    · exact keys_prefix_stampLayoutId _ _
    · exact List.prefix_refl _

theorem isOrgan_rootOver : isOrgan (x.rootOver p tree) = isOrgan tree := by
  unfold isOrgan
  rw [get?_rootOver _ _ _ _ (by decide) (by decide)]

theorem children?_rootOver :
    (Json.object (x.rootOver p tree)).children? = (Json.object tree).children? := by
  show (Keyed.get? (x.rootOver p tree) childrenKey).bind Json.array? = _
  rw [get?_rootOver _ _ _ _ (by decide) (by decide)]
  rfl

/-- an alias exposes itself, with the fields that were laid over it -/
theorem exposedNode_rootOver_alias (h : isOrgan tree = true) :
    exposedNode (.object (x.rootOver p tree)) = [p.graft tree] := by
  rw [exposedNode_organ _ ((x.isOrgan_rootOver p tree).trans h), x.rootOver_alias p tree h]

theorem exposedNode_rootOver_plain (h : isOrgan tree = false) :
    exposedNode (.object (x.rootOver p tree)) = exposedNode (.object tree) := by
  rw [exposedNode_plain _ ((x.isOrgan_rootOver p tree).trans h), exposedNode_plain _ h,
    x.children?_rootOver]

end Expander

end Graft
