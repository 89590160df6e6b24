import Graft.Proofs.Encounters
import Graft.Proofs.Normal
import Graft.Proofs.Places
import Graft.Registry.Basic
import Mathlib.Data.Finset.Card
import Mathlib.Logic.Relation

/-!
# The guard against cycles

The trees of a registry make a graph of keys: a key leads to the keys that its tree exposes.  Which
variant a key is looked up under, and in what spelling, is the registry's affair; an alias leads to
the key that it stands for.

* `exposedKeys`            the keys of the exposed placeholders, as the document chooses variants;
* `Registry.Leads`         the edges, `Registry.ReachesCycle` the keys from which a cycle is reached;
* `Registry.allKeys`       every key in a list of nodes or in a registered tree, at any depth;
* `Registry.source_of_encounters`   what is met names organ and variant as the document or a tree does;
* `Registry.Opened`        the organs that are open during an expansion: none twice, all of them known;
* `Registry.depth_not_reported_of_known`   with a level for every key the guard against cycles is first;
* `Registry.depth_not_reported`   so it is with a level for every key in `allKeys`;
* `Registry.cycleDetected_iff`    a cycle is reported exactly when one is reached.
-/

namespace Graft

open Node Relation Expander

/-! ## keys of placeholders -/

namespace Placeholder

/-- the key under which the document asks for a tree -/
def authoredKey (p : Placeholder) : VariantKey := .of p.organId p.variantOrDefault

/-- the key of a placeholder that names its organ -/
def key? (fields : Keyed Json) : Option VariantKey := (ofFields? fields).map authoredKey

theorem key?_eq (fields : Keyed Json) :
    key? fields =
      if isOrgan fields then
        (text? fields organIdKey).map fun organId =>
          .of organId ((text? fields variantKey).getD defaultVariant)
      else none := by
  unfold key? ofFields?
  split
  · rw [Option.map_map]
    rfl
  · rfl

theorem key?_of_ofFields? {fields : Keyed Json} {p : Placeholder} (h : ofFields? fields = some p) :
    key? fields = some p.authoredKey := by
  rw [key?, h]
  rfl

theorem key?_congr {fields fields' : Keyed Json}
    (h : ∀ key ∈ [typeKey, organIdKey, variantKey],
      Keyed.get? fields key = Keyed.get? fields' key) : key? fields = key? fields' := by
  rw [key?_eq, key?_eq]
  unfold isOrgan text?
  rw [h typeKey (by simp), h organIdKey (by simp), h variantKey (by simp)]

end Placeholder

open Placeholder

def exposedKeys (nodes : List Json) : List VariantKey := (exposedNodes nodes).filterMap key?

theorem mem_exposedKeys {nodes : List Json} {k : VariantKey} :
    k ∈ exposedKeys nodes ↔ ∃ fields ∈ exposedNodes nodes, key? fields = some k :=
  List.mem_filterMap

theorem mem_exposedNodes {nodes : List Json} {fields : Keyed Json} :
    fields ∈ exposedNodes nodes ↔ ∃ node ∈ nodes, fields ∈ exposedNode node := by
  induction nodes with
  | nil => simp [exposedNodes_nil]
  | cons node rest ih => rw [exposedNodes_cons, List.mem_append, ih, List.exists_mem_cons_iff]

/-- the fields that are laid over a root choose no organ and no variant -/
theorem exposedKeys_rootOver (x : Expander) (p : Placeholder) (tree : Keyed Json) :
    exposedKeys [.object (x.rootOver p tree)] = exposedKeys [.object tree] := by
  unfold exposedKeys
  rw [exposedNodes_singleton, exposedNodes_singleton]
  cases h : isOrgan tree with
  | true =>
    have hother : ∀ key ∈ [typeKey, organIdKey, variantKey], key ∉ overrideKeys ∧ key ≠ idKey := by
      decide
    have hkey : key? (p.graft tree) = key? tree := key?_congr fun key hm =>
      p.get?_graft_other tree key (hother key hm).1 (hother key hm).2
    rw [x.exposedNode_rootOver_alias p tree h, exposedNode_organ _ h, List.filterMap_cons, hkey]
    rfl
  | false => rw [x.exposedNode_rootOver_plain p tree h]

namespace Registry

variable (r : Registry)

/-! ## the graph of keys -/

/-- the tree under `k` exposes `k'` -/
def Leads (k k' : VariantKey) : Prop :=
  ∃ tree, r.lookup k.organ k.variant = some (.object tree) ∧ k' ∈ exposedKeys [.object tree]

def ReachesCycle (k : VariantKey) : Prop :=
  ∃ l, ReflTransGen r.Leads k l ∧ TransGen r.Leads l l

/-- every registered tree, static or discovered -/
def trees : List Json :=
  r.organs.flatMap (fun organ => organ.2.map Prod.snd) ++ r.discovered.map Prod.snd

/-- the keys of all placeholders in `nodes` and in the registered trees -/
def allKeys (nodes : List Json) : Finset VariantKey :=
  ((placeholders (nodes ++ r.trees)).map authoredKey).toFinset

variable {r}

theorem ReachesCycle.step {k : VariantKey} (h : r.ReachesCycle k) :
    ∃ k', r.Leads k k' ∧ r.ReachesCycle k' := by
  obtain ⟨l, hpath, hround⟩ := h
  rcases hpath.cases_head with rfl | ⟨k', hstep, hpath⟩
  · obtain ⟨k', hstep, hback⟩ := TransGen.head'_iff.mp hround
    exact ⟨k', hstep, k, hback, hround⟩
  · exact ⟨k', hstep, l, hpath, hround⟩

theorem mem_trees_of_lookup {organId variantId : String} {tree : Json}
    (h : r.lookup organId variantId = some tree) : tree ∈ r.trees := by
  rcases Option.or_eq_some_iff.mp h with hs | ⟨_, hd⟩
  · obtain ⟨variants, hv, ht⟩ := Option.bind_eq_some_iff.mp hs
    refine List.mem_append_left _ (List.mem_flatMap.mpr ⟨_, Keyed.mem_of_get? hv, ?_⟩)
    rcases Option.or_eq_some_iff.mp ht with ht | ⟨_, ht⟩
    · exact List.mem_map_of_mem (Keyed.mem_of_get? ht)
    · exact List.mem_map_of_mem (Keyed.mem_of_get? ht)
  · unfold discoveredTree? at hd
    split at hd
    · exact List.mem_append_right _ (List.mem_map_of_mem (Keyed.mem_of_get? hd))
    · exact absurd hd (by simp)

theorem lookup_authoredKey (p : Placeholder) :
    r.lookup p.authoredKey.organ p.authoredKey.variant = r.lookup p.organId p.variantOrDefault := by
  have h : VariantKey.of p.authoredKey.organ p.authoredKey.variant = p.authoredKey :=
    VariantKey.of_of p.organId p.variantOrDefault
  unfold lookup
  rw [h]
  rfl

/-! ## expansion along the graph -/

/-- the document chooses the variants -/
def expander (r : Registry) (options : ExpandOptions) : Expander :=
  ⟨r.toLookup, .authored, options⟩

variable {options : ExpandOptions}

theorem leads_of_entry {stack : List VariantKey} {fields tree : Keyed Json} {p : Placeholder}
    (h : (r.expander options).Entry stack fields p tree) {k : VariantKey} :
    r.Leads p.authoredKey k ↔
      ∃ inner ∈ exposedNode (.object ((r.expander options).rootOver p tree)),
        key? inner = some k := by
  have hload : r.lookup p.authoredKey.organ p.authoredKey.variant = some (.object tree) :=
    (lookup_authoredKey p).trans h.load
  rw [← exposedNodes_singleton, ← mem_exposedKeys, exposedKeys_rootOver]
  constructor
  · rintro ⟨tree', ht, hk⟩
    obtain rfl : tree = tree' := by simpa [hload] using ht
    exact hk
  · exact fun hk => ⟨tree, hload, hk⟩

/-! ## the guard against depth -/

/-- the organs of `stack` are open with `left` of `depth` levels to go -/
structure Opened (keys : Finset VariantKey) (depth left : Nat) (stack : List VariantKey) : Prop where
  nodup : stack.Nodup
  known : ∀ k ∈ stack, k ∈ keys
  spent : left + stack.length = depth

/-- when no level is left, every key is open -/
theorem Opened.mem_of_full {keys : Finset VariantKey} {depth : Nat} {stack : List VariantKey}
    {k : VariantKey} (h : Opened keys depth 0 stack) (hd : keys.card ≤ depth) (hk : k ∈ keys) :
    k ∈ stack := by
  have hsub : stack.toFinset ⊆ keys := fun l hl => h.known l (List.mem_toFinset.mp hl)
  have hcard : keys.card ≤ stack.toFinset.card := by
    have := h.spent
    rw [List.toFinset_card_of_nodup h.nodup]
    omega
  rw [← Finset.eq_of_subset_of_card_le hsub hcard] at hk
  exact List.mem_toFinset.mp hk

/-- with a level for every key that is met, the guard against cycles acts first -/
theorem depth_not_reported_of_known {x : Expander} {nodes : List Json} {keys : Finset VariantKey}
    (hknown : ∀ p, x.Encounters nodes p → x.keyOf p ∈ keys) (hd : keys.card ≤ x.options.maxDepth)
    (n : Nat) : .maxDepthExceeded n ∉ (x.expand nodes).diagnostics := by
  intro hn
  obtain ⟨left, stack, fields, hmeets, hrefused⟩ := mem_diagnostics_iff_refused.mp hn
  have hs : Opened keys x.options.maxDepth left stack := by
    refine ⟨hmeets.nodup, fun k hk => ?_, hmeets.spent⟩
    obtain ⟨p, hp, rfl⟩ := hmeets.of_mem_stack k hk
    exact hknown p hp
  cases hrefused with
  | depth hp hfresh =>
    -- the organs that are open are as many as there are keys, so this key is open already
    exact hfresh (hs.mem_of_full hd (hknown _ (hmeets.encounters hp)))

/-- what exposes a placeholder is a node or a registered tree, so a scan of both finds it -/
theorem mem_placeholders_of_part {nodes part : List Json} (h : part ⊆ nodes ++ r.trees)
    {fields : Keyed Json} {p : Placeholder} (hm : fields ∈ exposedNodes part)
    (hp : ofFields? fields = some p) : p ∈ placeholders (nodes ++ r.trees) := by
  obtain ⟨node, hnode, hm⟩ := mem_exposedNodes.mp hm
  exact mem_placeholders_of_exposed (mem_exposedNodes.mpr ⟨node, h hnode, hm⟩) hp

/-- a placeholder that is met says which organ and which variant as the document or a registered tree
says it, whatever was laid over it -/
theorem source_of_encounters {x : Expander} (hx : x.lookup = r.toLookup) {nodes : List Json}
    {q : Placeholder} (h : x.Encounters nodes q) :
    ∃ t ∈ placeholders (nodes ++ r.trees), q.organId = t.organId ∧ q.variant = t.variant := by
  have htree : ∀ {p : Placeholder} {tree : Keyed Json},
      x.lookup.load p.organId (x.resolver p) = some (.object tree) →
      [.object tree] ⊆ nodes ++ r.trees := by
    intro p tree hl node hnode
    rw [hx] at hl
    rw [List.mem_singleton.mp hnode]
    exact List.mem_append_right _ (mem_trees_of_lookup hl)
  rcases h.exposed_or_leadsTo with ⟨fields, hm, hq⟩ | ⟨p, ⟨_, _, fields, _, hp⟩, hlead⟩
  · exact ⟨q, mem_placeholders_of_part (List.subset_append_left _ _) hm hq, rfl, rfl⟩
  · cases hlead with
    | @root tree hl hq =>
      obtain ⟨t, ht, halias⟩ := aliasOf_graft hp hq
      have hm : tree ∈ exposedNodes [.object tree] := by
        rw [exposedNodes_singleton, exposedNode_organ tree (isOrgan_of_ofFields? ht)]
        exact List.mem_singleton_self tree
      exact ⟨t, mem_placeholders_of_part (htree hl) hm ht, halias.organId, halias.variant⟩
    | @child tree items inner hl ho hc hm hq =>
      have hm' : inner ∈ exposedNodes [.object tree] := by
        rw [exposedNodes_singleton, exposedNode_plain tree ho, hc]
        exact hm
      exact ⟨q, mem_placeholders_of_part (htree hl) hm' hq, rfl, rfl⟩

theorem depth_not_reported {nodes : List Json} (hd : (r.allKeys nodes).card ≤ options.maxDepth) :
    ∀ n, .maxDepthExceeded n ∉ ((r.expander options).expand nodes).diagnostics := by
  refine depth_not_reported_of_known (fun p hp => ?_) hd
  obtain ⟨t, ht, horgan, hvariant⟩ := source_of_encounters rfl hp
  have hkey : t.authoredKey = p.authoredKey := by
    unfold authoredKey variantOrDefault
    rw [horgan, hvariant]
  exact List.mem_toFinset.mpr (List.mem_map.mpr ⟨t, ht, hkey⟩)

/-! ## the guard against cycles -/

/-- a reported cycle either ends in an organ that was open before, or lies ahead in the graph -/
theorem open_or_reachesCycle (left : Nat) (stack : List VariantKey) (fields : Keyed Json)
    (ho : isOrgan fields = true) (cycle : List VariantKey)
    (hc : .cycleDetected cycle ∈
      ((r.expander options).expandOrgan left stack fields).diagnostics) :
    ∃ k, key? fields = some k ∧ ((∃ l ∈ stack, ReflTransGen r.Leads k l) ∨ r.ReachesCycle k) := by
  refine (r.expander options).expandOrgan_rec
    (P := fun _ stack fields e => .cycleDetected cycle ∈ e.diagnostics →
      ∃ k, key? fields = some k ∧ ((∃ l ∈ stack, ReflTransGen r.Leads k l) ∨ r.ReachesCycle k))
    ?_ ?_ left stack fields ho hc
  · intro left stack fields d _ h hc
    obtain rfl := List.mem_singleton.mp hc
    cases h with
    | @cycle _ _ _ p hp hs => exact ⟨_, key?_of_ofFields? hp, Or.inl ⟨_, hs, .refl⟩⟩
  · intro below stack fields p tree h ih hc
    obtain ⟨inner, hm, hc⟩ := mem_diagnostics_replace.mp hc
    obtain ⟨k, hk, hcases⟩ := ih inner hm hc
    have hstep : r.Leads p.authoredKey k := (leads_of_entry h).mpr ⟨inner, hm, hk⟩
    refine ⟨p.authoredKey, key?_of_ofFields? h.view, ?_⟩
    rcases hcases with ⟨l, hl, hpath⟩ | ⟨l, hpath, hround⟩
    · rcases List.mem_append.mp hl with hl | hl
      · exact Or.inl ⟨l, hl, .head hstep hpath⟩
      -- the way back to the placeholder itself closes a cycle of the graph
      · rw [List.mem_singleton.mp hl] at hpath
        exact Or.inr ⟨p.authoredKey, .refl, .head' hstep hpath⟩
    · exact Or.inr ⟨l, .head hstep hpath, hround⟩

/-- where no guard has acted, every way through the graph has an end -/
theorem acc_of_unguarded (left : Nat) (stack : List VariantKey) (fields : Keyed Json)
    (ho : isOrgan fields = true)
    (hd : ∀ d ∈ ((r.expander options).expandOrgan left stack fields).diagnostics,
      d.isGuard = false) :
    ∀ k, key? fields = some k → Acc (Function.swap r.Leads) k := by
  refine (r.expander options).expandOrgan_rec
    (P := fun _ _ fields e => (∀ d ∈ e.diagnostics, d.isGuard = false) →
      ∀ k, key? fields = some k → Acc (Function.swap r.Leads) k)
    ?_ ?_ left stack fields ho hd
  · intro left stack fields d _ h hd k hk
    obtain ⟨p, hp, rfl⟩ := Option.map_eq_some_iff.mp hk
    -- no guard has refused it, so its key has no tree to expose anything
    have hno := h.load_ne (hd d List.mem_cons_self) hp
    exact ⟨_, fun _ ⟨tree, ht, _⟩ => absurd ((lookup_authoredKey p).symm.trans ht) (hno tree)⟩
  · intro below stack fields p tree h ih hd k hk
    obtain rfl : p.authoredKey = k := Option.some.inj ((key?_of_ofFields? h.view).symm.trans hk)
    refine ⟨_, fun k hstep => ?_⟩
    obtain ⟨inner, hm, hk⟩ := (leads_of_entry h).mp hstep
    have hinner : ∀ d ∈ ((r.expander options).expandOrgan below (stack ++ [(r.expander options).keyOf p])
        inner).diagnostics, d.isGuard = false :=
      fun d hmem => hd d (mem_diagnostics_replace.mpr ⟨inner, hm, hmem⟩)
    exact ih inner hm hinner k hk

theorem not_reachesCycle_of_acc {k : VariantKey} (h : Acc (Function.swap r.Leads) k) :
    ¬ r.ReachesCycle k := by
  induction h with
  | intro k _ ih =>
    intro hk
    obtain ⟨k', hstep, hk'⟩ := hk.step
    exact ih k' hstep hk'

/-- **The guard against cycles is exact.**  If expansion may go as deep as there are keys, it reports
a cycle exactly when the graph has one that is reached from an exposed key. -/
theorem cycleDetected_iff (nodes : List Json) (h : (r.allKeys nodes).card ≤ options.maxDepth) :
    (∃ cycle, .cycleDetected cycle ∈ ((r.expander options).expand nodes).diagnostics) ↔
      ∃ k ∈ exposedKeys nodes, r.ReachesCycle k := by
  have horgan := isOrgan_of_mem_exposed.2 nodes
  constructor
  · rintro ⟨cycle, hc⟩
    obtain ⟨fields, hm, hc⟩ := mem_diagnostics_expand.mp hc
    obtain ⟨k, hk, ⟨l, hl, _⟩ | hreach⟩ := open_or_reachesCycle _ [] fields (horgan _ hm) cycle hc
    · exact absurd hl List.not_mem_nil
    · exact ⟨k, mem_exposedKeys.mpr ⟨fields, hm, hk⟩, hreach⟩
  · rintro ⟨k, hk, hreach⟩
    obtain ⟨fields, hm, hkey⟩ := mem_exposedKeys.mp hk
    by_contra hno
    have hd : ∀ d ∈ ((r.expander options).expandOrgan options.maxDepth [] fields).diagnostics,
        d.isGuard = false := by
      intro d hd
      have hd' := mem_diagnostics_expand.mpr ⟨fields, hm, hd⟩
      cases d with
      | cycleDetected cycle => exact absurd ⟨cycle, hd'⟩ hno
      | maxDepthExceeded n => exact absurd hd' (depth_not_reported h n)
      | _ => rfl
    have hacc := acc_of_unguarded _ [] fields (horgan _ hm) hd k hkey
    exact not_reachesCycle_of_acc hacc hreach

/-- `hero` is an alias of a card; whichever card is asked for, it is the default one, which shows
another card -/
def cardRegistry : Registry :=
  (Registry.empty.registerVariant "Hero" "default" (.object [("type", .string "organ"),
    ("organId", .string "card"), ("variant", .string "wide")])).registerVariant
    "card" "default" (.object [("children", .array [.object [("type", .string "organ"),
      ("organId", .string " CARD "), ("variant", .string "narrow")]])])

def heroPage : List Json := [
  .object [("children", .array [.object [("type", .string "organ"), ("organId", .string "hero")]])]]

theorem cycleDetected_heroPage :
    (cardRegistry.allKeys heroPage).card ≤ 3 ∧
      (∃ cycle, .cycleDetected cycle ∈
        ((cardRegistry.expander { maxDepth := 3 }).expand heroPage).diagnostics) ∧
      ∃ k ∈ exposedKeys heroPage, cardRegistry.ReachesCycle k := by
  have h : (cardRegistry.allKeys heroPage).card ≤ 3 := by decide +kernel
  have hd : ((cardRegistry.expander { maxDepth := 3 }).expand heroPage).diagnostics =
      [.cycleDetected [⟨"card", "narrow"⟩, ⟨"card", "narrow"⟩]] := by decide +kernel
  have hc : ∃ cycle, .cycleDetected cycle ∈
      ((cardRegistry.expander { maxDepth := 3 }).expand heroPage).diagnostics :=
    ⟨_, by rw [hd]; exact List.mem_singleton_self _⟩
  exact ⟨h, hc, (cycleDetected_iff heroPage h).mp hc⟩

end Registry

end Graft
