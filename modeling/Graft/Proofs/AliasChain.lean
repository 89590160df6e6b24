import Graft.Proofs.Root

/-!
# Chains of aliases

A placeholder may lead to an alias, that one to another, and so on to a tree whose root is no
placeholder.  Each root on the way takes over the fields of the one before, so the last tree gets
everything that was laid over on the way, the first placeholder's fields on top.

* `AliasChain`                 the placeholders and trees on the way, however many;
* `overlaidBy`                 a field of the trees, each over the next, under the first placeholder's;
* `AliasChain.expandOrgan`     expansion follows the chain and goes on below its last tree;
* `AliasChain.get?_override`, `get?_id`   the last grafted root, field by field;
* `AliasChain.outcome`         the node that replaces the first placeholder.
-/

namespace Graft

open Node

/-- a placeholder and the tree that was loaded for it -/
structure Link where
  placeholder : Placeholder
  tree : Keyed Json

/-- from the placeholder with `fields`, inside the organs of `stack`, the aliases one after the other
lead to `last`, whose tree is none; no cycle and no depth stands in the way -/
inductive AliasChain (x : Expander) :
    (stack : List VariantKey) → (fields : Keyed Json) → List Link → Link → Prop where
  | direct {stack fields p tree} (entry : x.Entry stack fields p tree)
      (room : stack.length < x.options.maxDepth) (plain : isOrgan (p.graft tree) = false) :
      AliasChain x stack fields [] ⟨p, tree⟩
  | via {stack fields p tree rest last} (entry : x.Entry stack fields p tree)
      (room : stack.length < x.options.maxDepth)
      (next : AliasChain x (stack ++ [x.keyOf p]) (p.graft tree) rest last) :
      AliasChain x stack fields (⟨p, tree⟩ :: rest) last

/-- the field of each tree under what came before it, from the placeholder's own on -/
def overlaidBy (key : String) (fields : Keyed Json) (trees : List (Keyed Json)) : Option Json :=
  trees.foldl (fun above tree => overlaid? (Keyed.get? tree key) above) (Keyed.get? fields key)

/-- the first id that is one, else the id field of the last tree, if it has one -/
def firstId (fields : Keyed Json) (trees : List (Keyed Json)) (last : Keyed Json) : Option Json :=
  ((fields :: trees).findSome? ownId?).or (Keyed.get? last idKey)

/-- what `root` and the diagnostics are when the placeholder with `fields` goes through a chain to
`last`, the trees on the way and `last`'s in `trees`, the keys of their placeholders in `keys` -/
structure ChainOutcome (x : Expander) (fields : Keyed Json) (trees : List (Keyed Json))
    (keys : List VariantKey) (last : Link) (root : Keyed Json) (ds : List Diagnostic) : Prop where
  layout : Keyed.get? root "layout" = overlaidBy "layout" fields trees
  content : Keyed.get? root "content" = overlaidBy "content" fields trees
  absent : ∀ key ∈ ["layout", "content"], Keyed.get? root key = none ↔
    ∀ tree ∈ fields :: trees, Keyed.get? tree key = none
  params : Keyed.get? root paramsKey =
    if x.options.stampLayoutId then
      some (stamped (x.resolver last.placeholder) (overlaidBy paramsKey fields trees))
    else overlaidBy paramsKey fields trees
  id : Keyed.get? root idKey = firstId fields trees last.tree
  /-- a list of children is expanded inside the organs of the whole chain -/
  children : ∀ items, (Json.object last.tree).children? = some items →
    let inner := replaceNodes (x.expandOrgan (x.options.maxDepth - keys.length) keys) items
    Keyed.get? root childrenKey = some (.array inner.output) ∧ ds = inner.diagnostics
  /-- anything else under the children's key is kept -/
  childless : (Json.object last.tree).children? = none →
    Keyed.get? root childrenKey = Keyed.get? last.tree childrenKey ∧ ds = []
  others : ∀ key, key ∉ overrideKeys → key ≠ idKey → key ≠ childrenKey →
    Keyed.get? root key = Keyed.get? last.tree key
  /-- new fields go last -/
  keys : Keyed.keys last.tree <+: Keyed.keys root

theorem overlaidBy_eq_none (key : String) (fields : Keyed Json) (trees : List (Keyed Json)) :
    overlaidBy key fields trees = none ↔
      ∀ tree ∈ fields :: trees, Keyed.get? tree key = none := by
  have step : ∀ (trees : List (Keyed Json)) (above : Option Json),
      trees.foldl (fun above tree => overlaid? (Keyed.get? tree key) above) above = none ↔
        above = none ∧ ∀ tree ∈ trees, Keyed.get? tree key = none := by
    intro trees
    induction trees with
    | nil => simp
    | cons tree rest ih =>
      intro above
      rw [List.foldl_cons, ih, List.forall_mem_cons, ← and_assoc]
      cases above with
      | none => simp [overlaid?]
      | some value => simp [overlaid?]
  rw [overlaidBy, step, List.forall_mem_cons]

namespace AliasChain

variable {x : Expander} {stack : List VariantKey} {fields : Keyed Json} {aliases : List Link}
  {last : Link}

theorem isOrgan (h : AliasChain x stack fields aliases last) : Graft.isOrgan fields = true := by
  cases h with
  | direct entry _ _ => exact Placeholder.isOrgan_of_ofFields? entry.view
  | via entry _ _ => exact Placeholder.isOrgan_of_ofFields? entry.view

theorem plain (h : AliasChain x stack fields aliases last) : Graft.isOrgan last.tree = false := by
  induction h with
  | @direct _ _ p tree _ _ plain => rwa [p.isOrgan_graft] at plain
  | via _ _ _ ih => exact ih

theorem expandOrgan (h : AliasChain x stack fields aliases last) (left : Nat)
    (hl : left + stack.length = x.options.maxDepth) :
    x.expandOrgan left stack fields =
      (replaceFields
        (x.expandOrgan (left - (aliases.length + 1))
          (stack ++ (aliases ++ [last]).map fun l => x.keyOf l.placeholder))
        (x.rootOver last.placeholder last.tree)).map .object := by
  induction h generalizing left with
  | @direct stack fields p tree entry room plain =>
    obtain ⟨below, rfl⟩ : ∃ below, left = below + 1 := ⟨left - 1, by omega⟩
    rw [p.isOrgan_graft] at plain
    rw [x.expandOrgan_of_entry entry,
      replaceNode_plain _ _ (by rw [x.isOrgan_rootOver, plain])]
    rfl
  | @via stack fields p tree rest last entry room next ih =>
    obtain ⟨below, rfl⟩ : ∃ below, left = below + 1 := ⟨left - 1, by omega⟩
    have ho := next.isOrgan
    have htree : Graft.isOrgan tree = true := by rwa [p.isOrgan_graft] at ho
    have hbelow : below + (stack ++ [x.keyOf p]).length = x.options.maxDepth := by
      rw [List.length_append, List.length_singleton]
      omega
    have hleft : below - (rest.length + 1) = below + 1 - (rest.length + 1 + 1) := by omega
    rw [x.expandOrgan_of_entry entry, x.rootOver_alias p tree htree, replaceNode_organ _ _ ho,
      ih below hbelow, List.append_assoc, List.length_cons, hleft]
    rfl

theorem get?_override (h : AliasChain x stack fields aliases last) (key : String)
    (hk : key ∈ overrideKeys) :
    Keyed.get? (last.placeholder.graft last.tree) key =
      overlaidBy key fields ((aliases ++ [last]).map Link.tree) := by
  induction h with
  | @direct _ fields p tree entry _ _ =>
    rw [p.get?_graft_override tree key hk, Placeholder.field?,
      Placeholder.fields_of_ofFields? entry.view]
    rfl
  | @via _ fields p tree rest last entry _ _ ih =>
    rw [ih, overlaidBy, p.get?_graft_override tree key hk, Placeholder.field?,
      Placeholder.fields_of_ofFields? entry.view]
    rfl

theorem get?_id (h : AliasChain x stack fields aliases last) :
    Keyed.get? (last.placeholder.graft last.tree) idKey =
      firstId fields ((aliases ++ [last]).map Link.tree) last.tree := by
  induction h with
  | @direct _ fields p tree entry _ _ =>
    rw [p.get?_graft_id, Placeholder.fields_of_ofFields? entry.view]
    show (ownId? fields).or (Keyed.get? tree idKey) = firstId fields [tree] tree
    rw [firstId, List.findSome?_cons, List.findSome?_singleton]
    cases ownId? fields with
    | some id => rfl
    | none =>
      cases ht : ownId? tree with
      | none => rfl
      | some id => rw [(ownId?_eq_some.mp ht).1]; rfl
  | @via _ fields p tree rest last entry _ _ ih =>
    rw [ih, firstId, List.findSome?_cons, p.ownId?_graft,
      Placeholder.fields_of_ofFields? entry.view]
    rw [firstId, List.cons_append, List.map_cons, List.findSome?_cons, List.findSome?_cons]
    cases ownId? fields with
    | some id => rfl
    | none => cases ownId? tree <;> rfl

/-- **What a chain of aliases leads to**, for a placeholder that stands inside no organ. -/
theorem outcome (h : AliasChain x [] fields aliases last) :
    ∃ root ds,
      x.expandOrgan x.options.maxDepth [] fields = ⟨.object root, ds⟩ ∧
        x.expand [.object fields] = ⟨[.object root], ds⟩ ∧
        ChainOutcome x fields ((aliases ++ [last]).map Link.tree)
          ((aliases ++ [last]).map fun l => x.keyOf l.placeholder) last root ds := by
  have hroot := h.expandOrgan x.options.maxDepth rfl
  have hlen : ((aliases ++ [last]).map fun l => x.keyOf l.placeholder).length =
      aliases.length + 1 := by
    rw [List.length_map, List.length_append, List.length_singleton]
  rw [List.nil_append, ← hlen] at hroot
  have hkept : ∀ key, key ≠ paramsKey → key ≠ childrenKey → ∀ f,
      Keyed.get? (replaceFields f (x.rootOver last.placeholder last.tree)).output key =
        Keyed.get? (last.placeholder.graft last.tree) key := by
    intro key hp hc f
    rw [get?_replaceFields f _ key hc, x.get?_rootOver_graft _ _ key hp]
  have hitems := x.children?_rootOver last.placeholder last.tree
  refine ⟨_, _, hroot, ?_, ?_, ?_, ?_, ?_, ?_, ?_, ?_, ?_, ?_⟩
  · rw [Expander.expand, replaceNodes_cons, replaceNode_organ _ _ h.isOrgan, hroot, replaceNodes_nil]
    simp only [Expanded.bind, Expanded.map, Expanded.clean, List.append_nil]
  · rw [hkept _ (by decide) (by decide), h.get?_override _ (by decide)]
  · rw [hkept _ (by decide) (by decide), h.get?_override _ (by decide)]
  · intro key hk
    have hkey : key ∈ overrideKeys ∧ key ≠ paramsKey ∧ key ≠ childrenKey := by
      rcases List.mem_pair.mp hk with rfl | rfl <;> decide
    rw [hkept _ hkey.2.1 hkey.2.2, h.get?_override _ hkey.1, overlaidBy_eq_none]
  · rw [get?_replaceFields _ _ _ (by decide), x.get?_rootOver_params _ _ h.plain,
      h.get?_override _ (by decide)]
  · rw [hkept _ (by decide) (by decide), h.get?_id]
  · intro items hc
    rw [replaceFields_items _ _ items (hitems.trans hc)]
    exact ⟨by rw [Expanded.output_map, Keyed.get?_insert, if_pos rfl], rfl⟩
  · intro hc
    rw [replaceFields_no_items _ _ (hitems.trans hc)]
    exact ⟨x.get?_rootOver _ _ _ (by decide) (by decide), rfl⟩
  · intro key hk hid hc
    rw [get?_replaceFields _ _ key hc, x.get?_rootOver _ _ key hk hid]
  · rw [keys_replaceFields]
    exact x.keys_prefix_rootOver _ _

/-- `hero` stands for `banner`, and that for the wide `card` -/
def heroTree : Keyed Json :=
  [("type", .string "organ"), ("organId", .string "banner"),
    ("layout", .object [("rows", .bool true)])]

def bannerTree : Keyed Json :=
  [("type", .string "organ"), ("organId", .string "card"), ("variant", .string "wide"),
    ("id", .null), ("content", .array [])]

def cardTree : Keyed Json :=
  [("id", .string "c1"), ("type", .string "Stack"),
    ("layout", .object [("rows", .bool false), ("gap", .null)]),
    ("children", .array [.object [("type", .string "organ")], .string "text"])]

theorem outcome_hero :
    let x : Expander :=
      ⟨.ofTable [⟨"hero", none, .object heroTree⟩, ⟨"banner", none, .object bannerTree⟩,
        ⟨"card", some "wide", .object cardTree⟩], .authored, {}⟩
    let fields : Keyed Json :=
      [("type", .string "organ"), ("organId", .string "hero"), ("params", .bool true)]
    let hero : Placeholder := ⟨"hero", none, none, fields⟩
    let banner : Placeholder := ⟨"banner", none, none, hero.graft heroTree⟩
    let card : Placeholder := ⟨"card", some "wide", none, banner.graft bannerTree⟩
    AliasChain x [] fields [⟨hero, heroTree⟩, ⟨banner, bannerTree⟩] ⟨card, cardTree⟩ ∧
      ∃ root ds,
        x.expandOrgan x.options.maxDepth [] fields = ⟨.object root, ds⟩ ∧
          x.expand [.object fields] = ⟨[.object root], ds⟩ ∧
          ChainOutcome x fields [heroTree, bannerTree, cardTree]
            [x.keyOf hero, x.keyOf banner, x.keyOf card] ⟨card, cardTree⟩ root ds := by
  intro x fields hero banner card
  have hcard : x.Entry [x.keyOf hero, x.keyOf banner] (banner.graft bannerTree) card cardTree :=
    ⟨by decide +kernel, by decide +kernel, by decide +kernel⟩
  have hbanner : x.Entry [x.keyOf hero] (hero.graft heroTree) banner bannerTree :=
    ⟨by decide +kernel, by decide +kernel, by decide +kernel⟩
  have hhero : x.Entry [] fields hero heroTree :=
    ⟨by decide +kernel, by decide +kernel, by decide +kernel⟩
  have h : AliasChain x [] fields [⟨hero, heroTree⟩, ⟨banner, bannerTree⟩] ⟨card, cardTree⟩ :=
    .via hhero (by decide) (.via hbanner (by decide) (.direct hcard (by decide) (by decide +kernel)))
  exact ⟨h, h.outcome⟩

end AliasChain

end Graft
