import Graft.Proofs.Encounters
import Graft.Proofs.Places

/-!
# Expansions that agree

An expansion asks its lookup and its resolver about the placeholders that it meets and about nothing
else.  Two expanders that answer alike there come out alike, whatever they say of other placeholders.

An override speaks of the placeholders under its key, which is their id or their organ.  An alias is of
the organ that its own tree names, and its id is its own or that of the placeholder whose place it
takes.  So a key that is found neither at a node nor in the trees is not found on the way either, and
an override under it is not felt there.

* `Expander.Agree`               two expanders answer alike about a placeholder;
* `Expander.expand_agree`        two that agree on all that is met make the same of the nodes;
* `Expander.replaceNode_agree`   two that agree on what has a property make the same of a node with it;
* `Placeholder.Addressed`        a placeholder that an override under a key speaks of;
* `unaddressed_below`            what is met below is not addressed either;
* `Overrides.AgreeOff`           two tables that differ under one key at most;
* `Expander.expand_elsewhere`    a node out of reach of a key does not feel an override under it.
-/

namespace Graft

open Node

/-! ## two expanders -/

namespace Expander

/-- `x` and `y` choose the same variant for `p` and know the same of it -/
structure Agree (x y : Expander) (p : Placeholder) : Prop where
  variant : y.resolver p = x.resolver p
  load : y.lookup.load p.organId (x.resolver p) = x.lookup.load p.organId (x.resolver p)
  contains : y.lookup.contains p.organId = x.lookup.contains p.organId

variable {x y : Expander}

theorem Agree.keyOf {p : Placeholder} (h : Agree x y p) : y.keyOf p = x.keyOf p := by
  unfold Expander.keyOf
  rw [h.variant]

theorem Agree.rootOver {p : Placeholder} (h : Agree x y p) (ho : y.options = x.options)
    (tree : Keyed Json) : y.rootOver p tree = x.rootOver p tree := by
  unfold Expander.rootOver stamp
  rw [h.variant, ho]

theorem Refusal.agree {left : Nat} {stack : List VariantKey} {fields : Keyed Json} {d : Diagnostic}
    (h : x.Refusal left stack fields d) (ho : y.options.maxDepth = x.options.maxDepth)
    (hp : ∀ p, Placeholder.ofFields? fields = some p → Agree x y p) :
    y.Refusal left stack fields d := by
  cases h with
  | malformed hv => exact .malformed hv
  | cycle hv hs =>
    rw [← (hp _ hv).keyOf] at hs ⊢
    exact .cycle hv hs
  | depth hv hs =>
    rw [← (hp _ hv).keyOf] at hs
    rw [← ho]
    exact .depth hv hs
  | organ hv hs hl hc =>
    rw [← (hp _ hv).keyOf] at hs
    rw [← (hp _ hv).load, ← (hp _ hv).variant] at hl
    rw [← (hp _ hv).contains] at hc
    exact .organ hv hs hl hc
  | variant hv hs hl hc =>
    rw [← (hp _ hv).keyOf] at hs
    rw [← (hp _ hv).load, ← (hp _ hv).variant] at hl
    rw [← (hp _ hv).contains] at hc
    rw [← (hp _ hv).variant]
    exact .variant hv hs hl hc
  | tree hv hs hl hn =>
    rw [← (hp _ hv).keyOf] at hs
    rw [← (hp _ hv).load, ← (hp _ hv).variant] at hl
    rw [← (hp _ hv).variant]
    exact .tree hv hs hl hn

theorem Entry.agree {stack : List VariantKey} {fields tree : Keyed Json} {p : Placeholder}
    (h : x.Entry stack fields p tree) (hp : Agree x y p) : y.Entry stack fields p tree where
  view := h.view
  fresh := by
    rw [hp.keyOf]
    exact h.fresh
  load := by
    rw [hp.variant, hp.load]
    exact h.load

/-- where `x` and `y` agree on all that is met, they make the same of whatever is met -/
theorem Meets.agree (ho : y.options = x.options) {nodes : List Json}
    (agree : ∀ p, x.Encounters nodes p → Agree x y p) {left : Nat} {stack : List VariantKey}
    {fields : Keyed Json} (h : x.Meets nodes left stack fields) :
    y.expandOrgan left stack fields = x.expandOrgan left stack fields := by
  refine x.expandOrgan_rec
    (P := fun left stack fields e => x.Meets nodes left stack fields →
      y.expandOrgan left stack fields = e) ?_ ?_ left stack fields h.isOrgan h
  · intro left stack fields d _ hd h
    exact y.expandOrgan_of_refusal (hd.agree (congrArg _ ho) fun p hp => agree p (h.encounters hp))
  · intro left stack fields p tree entry ih h
    have hp := agree p (h.encounters entry.view)
    rw [y.expandOrgan_of_entry (entry.agree hp), hp.keyOf, hp.rootOver ho]
    exact (replace_congr _ _).1 _ fun inner hm => ih inner hm (h.inside entry hm)

theorem expand_agree (ho : y.options = x.options) {nodes : List Json}
    (agree : ∀ p, x.Encounters nodes p → Agree x y p) : y.expand nodes = x.expand nodes := by
  unfold expand
  rw [ho]
  exact replaceNodes_congr fun fields hm => Meets.agree ho agree (.exposed hm)

/-- where `S` holds of what is met, and `x` and `y` agree on it, they make the same of it -/
theorem replaceNode_agree (ho : y.options = x.options) {S : Keyed Json → Prop}
    (agree : ∀ fields p, S fields → Placeholder.ofFields? fields = some p → Agree x y p)
    (below : ∀ fields p tree, S fields → Placeholder.ofFields? fields = some p →
      x.lookup.load p.organId (x.resolver p) = some (.object tree) →
      ∀ inner ∈ exposedNode (.object (x.rootOver p tree)), S inner)
    (node : Json) (h : ∀ fields ∈ exposedNode node, S fields) :
    replaceNode (y.expandOrgan y.options.maxDepth []) node =
      replaceNode (x.expandOrgan x.options.maxDepth []) node := by
  rw [← exposedNodes_singleton] at h
  have hmet : ∀ p, x.Encounters [node] p → Agree x y p := by
    rintro p ⟨left, stack, fields, hmeets, hp⟩
    refine agree fields p (hmeets.keeps h ?_) hp
    exact fun fields p tree hf entry => below fields p tree hf entry.view entry.load
  rw [ho]
  refine (replace_congr _ _).1 node fun fields hm => ?_
  rw [← exposedNodes_singleton] at hm
  exact Meets.agree ho hmet (.exposed hm)

end Expander

/-! ## what a key addresses -/

namespace Placeholder

/-- an override under `key` speaks of `p` -/
def Addressed (key : String) (p : Placeholder) : Prop := p.instanceKey = some key ∨ p.organId = key

instance (key : String) (p : Placeholder) : Decidable (p.Addressed key) :=
  inferInstanceAs (Decidable (_ ∨ _))

end Placeholder

/-- as a placeholder, if they are one, these fields are not addressed -/
def Unaddressed (key : String) (fields : Keyed Json) : Prop :=
  ∀ p, Placeholder.ofFields? fields = some p → ¬ p.Addressed key

theorem unaddressed_of_exposed {key : String} {node : Json}
    (h : ∀ p ∈ placeholders [node], ¬ p.Addressed key) {fields : Keyed Json}
    (hm : fields ∈ exposedNode node) : Unaddressed key fields := by
  intro p hp
  rw [← exposedNodes_singleton] at hm
  exact h p (mem_placeholders_of_exposed hm hp)

/-- what a loaded root exposes is addressed only if the placeholder or the tree has the key -/
theorem unaddressed_below {x : Expander} {key : String} {fields tree : Keyed Json}
    {p : Placeholder} (h : Unaddressed key fields) (hp : Placeholder.ofFields? fields = some p)
    (htree : ∀ q ∈ placeholders [.object tree], ¬ q.Addressed key) :
    ∀ inner ∈ exposedNode (.object (x.rootOver p tree)), Unaddressed key inner := by
  intro inner hm
  cases ho : isOrgan tree with
  | false =>
    rw [x.exposedNode_rootOver_plain p tree ho] at hm
    exact unaddressed_of_exposed htree hm
  | true =>
    rw [x.exposedNode_rootOver_alias p tree ho, List.mem_singleton] at hm
    subst hm
    intro q hq
    obtain ⟨t, ht, halias⟩ := Placeholder.aliasOf_graft hp hq
    have hown : ¬ t.Addressed key := by
      refine unaddressed_of_exposed htree ?_ t ht
      rw [exposedNode_organ tree ho]
      exact List.mem_singleton_self tree
    rintro (hid | horgan)
    -- the id is that of `p`, or it is the tree's own
    · rcases halias.source key hid with hid | hid
      · exact h p hp (Or.inl hid)
      · exact hown (Or.inl hid)
    · exact hown (Or.inr (halias.organId ▸ horgan))

/-! ## overrides under one key -/

namespace Overrides

/-- `o` and `m` say the same under every other key -/
def AgreeOff (key : String) (o m : Overrides) : Prop := ∀ k, k ≠ key → o.get? k = m.get? k

theorem agreeOff_choose (m : Overrides) (key variantId : String) :
    AgreeOff key (m.choose key variantId) m := by
  intro k hk
  rw [get?_choose, if_neg (Ne.symm hk)]

theorem agreeOff_clear (m : Overrides) (key : String) : AgreeOff key (m.clear key) m := by
  intro k hk
  rw [get?_clear, if_neg (Ne.symm hk)]

theorem resolver_of_agreeOff {key : String} {o m : Overrides} (h : AgreeOff key o m)
    {p : Placeholder} (hp : ¬ p.Addressed key) : o.resolver p = m.resolver p := by
  have horgan : o.get? p.organId = m.get? p.organId := h _ fun e => hp (Or.inr e)
  have hid : p.instanceKey.bind o.get? = p.instanceKey.bind m.get? := by
    cases hkey : p.instanceKey with
    | none => rfl
    | some own =>
      refine h own fun e => hp (Or.inl ?_)
      rw [hkey, e]
  have hvariant : o.variant? p = m.variant? p := by
    unfold variant?
    rw [hid, horgan]
  show (o.variant? p).getD p.variantOrDefault = (m.variant? p).getD p.variantOrDefault
  rw [hvariant]

end Overrides

namespace Expander

/-- tables that agree off a key make the same of a node that is out of the key's reach -/
theorem replaceNode_agreeOff {lookup : Lookup} (options : ExpandOptions) {key : String}
    {o m : Overrides} (h : Overrides.AgreeOff key o m) (node : Json)
    (own : ∀ p ∈ placeholders [node], ¬ p.Addressed key)
    (trees : ∀ organId w tree, lookup.load organId w = some tree →
      ∀ p ∈ placeholders [tree], ¬ p.Addressed key) :
    replaceNode ((Expander.mk lookup o.resolver options).expandOrgan options.maxDepth []) node =
      replaceNode ((Expander.mk lookup m.resolver options).expandOrgan options.maxDepth []) node := by
  refine replaceNode_agree (x := ⟨lookup, m.resolver, options⟩) (y := ⟨lookup, o.resolver, options⟩)
    rfl (S := Unaddressed key) ?_ ?_ node fun fields hm => unaddressed_of_exposed own hm
  · exact fun fields p hf hp => ⟨Overrides.resolver_of_agreeOff h (hf p hp), rfl, rfl⟩
  · exact fun fields p tree hf hp hload => unaddressed_below hf hp (trees _ _ _ hload)

/-- **Overrides are local.**  If `key` is the id or the organ of no placeholder in the node at position
`j` nor in any tree of the lookup, then choosing a variant under `key` and clearing `key` both leave
the output at that position as it is, and what the node by itself reports. -/
theorem expand_elsewhere (lookup : Lookup) (options : ExpandOptions) (m : Overrides)
    (key variantId : String) (nodes : List Json) (j : Nat) (node : Json) (hj : nodes[j]? = some node)
    (own : ∀ p ∈ placeholders [node], ¬ p.Addressed key)
    (trees : ∀ organId w tree, lookup.load organId w = some tree →
      ∀ p ∈ placeholders [tree], ¬ p.Addressed key) :
    ∀ o ∈ [m.choose key variantId, m.clear key],
      ((Expander.mk lookup o.resolver options).expand nodes).output[j]? =
          ((Expander.mk lookup m.resolver options).expand nodes).output[j]? ∧
        ((Expander.mk lookup o.resolver options).expand [node]).diagnostics =
          ((Expander.mk lookup m.resolver options).expand [node]).diagnostics := by
  intro o ho
  have hoff : Overrides.AgreeOff key o m := by
    rcases List.mem_pair.mp ho with rfl | rfl
    · exact m.agreeOff_choose key variantId
    · exact m.agreeOff_clear key
  have hnode := replaceNode_agreeOff options hoff node own trees
  constructor
  · simp only [expand, output_replaceNodes, List.getElem?_map, hj, Option.map_some, hnode]
  · simp only [expand, replaceNodes_cons, replaceNodes_nil, hnode]

/-- a wide `hero` is an alias of a card without an id, and a wide `card` shows a `note` -/
def cardTable : List Lookup.Row := [
  ⟨"hero", some "wide", .object [("type", .string "organ"), ("organId", .string "card"),
    ("id", .null)]⟩,
  ⟨"card", some "wide", .object [("type", .string "Stack"), ("children", .array [
    .object [("type", .string "organ"), ("organId", .string "note"), ("id", .string "n1")]])]⟩,
  ⟨"note", none, .object [("type", .string "Text")]⟩,
  ⟨"teaser", some "split", .object [("type", .string "Split")]⟩,
  ⟨"teaser", none, .object [("type", .string "Plain")]⟩]

/-- a teaser with the id, and below another node a hero with an id of its own -/
def heroAndTeaser : List Json := [
  .object [("type", .string "organ"), ("organId", .string "teaser"), ("id", .string "k1")],
  .object [("children", .array [
    .object [("type", .string "organ"), ("organId", .string "hero"), ("id", .string "h1")]])]]

/-- the override changes the teaser and not the hero, whose own override chooses for its alias too -/
theorem expand_elsewhere_heroAndTeaser :
    let lookup := Lookup.ofTable cardTable
    let m : Overrides := .ofList [("h1", "wide"), ("note", "long")]
    let node : Json := .object [("children", .array [
      .object [("type", .string "organ"), ("organId", .string "hero"), ("id", .string "h1")]])]
    (heroAndTeaser[1]? = some node ∧
        (∀ p ∈ placeholders [node], ¬ p.Addressed "k1") ∧
        ∀ organId w tree, lookup.load organId w = some tree →
          ∀ p ∈ placeholders [tree], ¬ p.Addressed "k1") ∧
      (∀ o ∈ [m.choose "k1" "split", m.clear "k1"],
        ((Expander.mk lookup o.resolver {}).expand heroAndTeaser).output[1]? =
            ((Expander.mk lookup m.resolver {}).expand heroAndTeaser).output[1]? ∧
          ((Expander.mk lookup o.resolver {}).expand [node]).diagnostics =
            ((Expander.mk lookup m.resolver {}).expand [node]).diagnostics) ∧
      ((Expander.mk lookup (m.choose "k1" "split").resolver {}).expand heroAndTeaser).output[0]? ≠
        ((Expander.mk lookup m.resolver {}).expand heroAndTeaser).output[0]? := by
  intro lookup m node
  have hj : heroAndTeaser[1]? = some node := rfl
  have hown : ∀ p ∈ placeholders [node], ¬ p.Addressed "k1" := by decide
  have htrees : ∀ organId w tree, lookup.load organId w = some tree →
      ∀ p ∈ placeholders [tree], ¬ p.Addressed "k1" := by
    intro organId w tree ht
    obtain ⟨row, hrow, rfl⟩ := Lookup.load_ofTable ht
    have hrows : ∀ row ∈ cardTable, ∀ p ∈ placeholders [row.tree], ¬ p.Addressed "k1" := by decide
    exact hrows row hrow
  exact ⟨⟨hj, hown, htrees⟩,
    expand_elsewhere lookup {} m "k1" "split" heroAndTeaser 1 node hj hown htrees,
    by decide +kernel⟩

end Expander

end Graft
