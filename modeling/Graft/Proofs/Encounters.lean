import Graft.Proofs.Root
import Mathlib.Data.List.Nodup

/-!
# What an expansion meets

An expansion comes to the placeholders that its nodes expose, and from each that it enters to those that
the root in its place exposes.  Each is met inside the organs that were entered on the way.

* `Expander.Meets`       a placeholder that is met, with the organs that are open and the levels left;
* `Meets.keeps`          a property that the exposed placeholders have and every entry hands on;
* `Meets.spent`, `Meets.nodup`   every open organ takes a level, and none is open twice;
* `Expander.Encounters`  the same of a placeholder that names its organ, wherever it is met;
* `Meets.of_mem_stack`   the open organs are those of placeholders that were met before;
* `Expander.LeadsTo`     the tree of one placeholder leads to another placeholder;
* `Encounters.exposed_or_leadsTo`   all that is met is exposed, or led to by what was met before;
* `meets_of_exposed_output`   all that is left was met;
* `mem_diagnostics_iff_refused`   the reports are those of the refusals among what is met.
-/

namespace Graft

open Node

namespace Expander

/-- expansion of `nodes` comes to the placeholder with `fields`, inside the organs of `stack` and with
`left` levels to go -/
inductive Meets (x : Expander) (nodes : List Json) :
    (left : Nat) → (stack : List VariantKey) → (fields : Keyed Json) → Prop where
  | exposed {fields} (hm : fields ∈ exposedNodes nodes) : Meets x nodes x.options.maxDepth [] fields
  | inside {left stack fields p tree inner} (above : Meets x nodes (left + 1) stack fields)
      (entry : x.Entry stack fields p tree)
      (hm : inner ∈ exposedNode (.object (x.rootOver p tree))) :
      Meets x nodes left (stack ++ [x.keyOf p]) inner

/-- expansion of `nodes` comes to `p` -/
def Encounters (x : Expander) (nodes : List Json) (p : Placeholder) : Prop :=
  ∃ left stack fields, x.Meets nodes left stack fields ∧ Placeholder.ofFields? fields = some p

variable {x : Expander} {nodes : List Json} {left : Nat} {stack : List VariantKey}
  {fields : Keyed Json}

theorem Meets.encounters (h : x.Meets nodes left stack fields) {p : Placeholder}
    (hp : Placeholder.ofFields? fields = some p) : x.Encounters nodes p := ⟨left, stack, fields, h, hp⟩

theorem Meets.isOrgan (h : x.Meets nodes left stack fields) : isOrgan fields = true := by
  cases h with
  | exposed hm => exact isOrgan_of_mem_exposed.2 nodes fields hm
  | inside above entry hm => exact isOrgan_of_mem_exposed.1 _ fields hm

/-- a property of the exposed placeholders that every entry hands on to what its root exposes is one of
all that is met -/
theorem Meets.keeps {S : Keyed Json → Prop} (h : x.Meets nodes left stack fields)
    (exposed : ∀ fields ∈ exposedNodes nodes, S fields)
    (below : ∀ {stack} fields p tree, S fields → x.Entry stack fields p tree →
      ∀ inner ∈ exposedNode (.object (x.rootOver p tree)), S inner) : S fields := by
  induction h with
  | exposed hm => exact exposed _ hm
  | inside above entry hm ih => exact below _ _ _ ih entry _ hm

/-! ## the open organs -/

theorem Meets.spent (h : x.Meets nodes left stack fields) :
    left + stack.length = x.options.maxDepth := by
  induction h with
  | exposed hm => rfl
  | inside above entry hm ih =>
    rw [List.length_append, List.length_singleton]
    omega

theorem Meets.nodup (h : x.Meets nodes left stack fields) : stack.Nodup := by
  induction h with
  | exposed hm => exact List.nodup_nil
  | inside above entry hm ih =>
    rw [← List.concat_eq_append]
    exact List.Nodup.concat entry.fresh ih

theorem Meets.of_mem_stack (h : x.Meets nodes left stack fields) :
    ∀ k ∈ stack, ∃ p, x.Encounters nodes p ∧ x.keyOf p = k := by
  induction h with
  | exposed hm => exact fun k hk => absurd hk List.not_mem_nil
  | @inside left stack fields p tree inner above entry hm ih =>
    intro k hk
    rcases List.mem_append.mp hk with hk | hk
    · exact ih k hk
    · exact ⟨p, above.encounters entry.view, (List.mem_singleton.mp hk).symm⟩

/-! ## references -/

/-- the tree that is loaded for `p` leads to `q` -/
inductive LeadsTo (x : Expander) (p q : Placeholder) : Prop where
  /-- its root, with the fields of `p` laid over it, is `q` -/
  | root {tree} (hl : x.lookup.load p.organId (x.resolver p) = some (.object tree))
      (hq : Placeholder.ofFields? (p.graft tree) = some q)
  /-- its root is no placeholder, and the children expose `q` -/
  | child {tree items inner} (hl : x.lookup.load p.organId (x.resolver p) = some (.object tree))
      (ho : isOrgan tree = false) (hc : (Json.object tree).children? = some items)
      (hm : inner ∈ exposedNodes items) (hq : Placeholder.ofFields? inner = some q)

theorem leadsTo_of_entry {tree inner : Keyed Json} {p q : Placeholder}
    (h : x.Entry stack fields p tree) (hm : inner ∈ exposedNode (.object (x.rootOver p tree)))
    (hq : Placeholder.ofFields? inner = some q) : x.LeadsTo p q := by
  cases ho : isOrgan tree with
  | true =>
    rw [x.exposedNode_rootOver_alias p tree ho, List.mem_singleton] at hm
    exact .root h.load (hm ▸ hq)
  | false =>
    rw [x.exposedNode_rootOver_plain p tree ho, exposedNode_plain tree ho] at hm
    cases hc : (Json.object tree).children? with
    | none =>
      rw [hc] at hm
      exact absurd hm List.not_mem_nil
    | some items =>
      rw [hc] at hm
      exact .child h.load ho hc hm hq

theorem Encounters.exposed_or_leadsTo {q : Placeholder} (h : x.Encounters nodes q) :
    (∃ fields ∈ exposedNodes nodes, Placeholder.ofFields? fields = some q) ∨
      ∃ p, x.Encounters nodes p ∧ x.LeadsTo p q := by
  obtain ⟨left, stack, fields, hmeets, hq⟩ := h
  cases hmeets with
  | exposed hm => exact .inl ⟨fields, hm, hq⟩
  | inside above entry hm =>
    exact .inr ⟨_, above.encounters entry.view, leadsTo_of_entry entry hm hq⟩

/-! ## reports and refusals -/

theorem Meets.refused_of_mem_diagnostics (h : x.Meets nodes left stack fields) {d : Diagnostic}
    (hd : d ∈ (x.expandOrgan left stack fields).diagnostics) :
    ∃ left stack fields, x.Meets nodes left stack fields ∧ x.Refusal left stack fields d := by
  refine x.expandOrgan_rec
    (P := fun left stack fields e => x.Meets nodes left stack fields → d ∈ e.diagnostics →
      ∃ left stack fields, x.Meets nodes left stack fields ∧ x.Refusal left stack fields d)
    ?_ ?_ left stack fields h.isOrgan h hd
  · intro left stack fields d' _ hr h hd
    obtain rfl := List.mem_singleton.mp hd
    exact ⟨left, stack, fields, h, hr⟩
  · intro below stack fields p tree entry ih h hd
    obtain ⟨inner, hm, hd⟩ := mem_diagnostics_replace.mp hd
    exact ih inner hm (h.inside entry hm) hd

/-- what is left in the place of a placeholder that is met, was met too -/
theorem Meets.of_exposed_output (h : x.Meets nodes left stack fields) {inner : Keyed Json}
    (hm : inner ∈ exposedNode (x.expandOrgan left stack fields).output) :
    ∃ left stack, x.Meets nodes left stack inner := by
  refine x.expandOrgan_rec
    (P := fun left stack fields e => x.Meets nodes left stack fields →
      ∀ inner ∈ exposedNode e.output, ∃ left stack, x.Meets nodes left stack inner)
    ?_ ?_ left stack fields h.isOrgan h inner hm
  · intro left stack fields d ho _ h inner hm
    have hm' : inner ∈ exposedNode (.object fields) := hm
    rw [exposedNode_organ fields ho, List.mem_singleton] at hm'
    exact ⟨left, stack, hm' ▸ h⟩
  · intro below stack fields p tree entry ih h inner hm
    rw [(exposed_replace _).1, List.mem_flatMap] at hm
    obtain ⟨outer, houter, hm⟩ := hm
    exact ih outer houter (h.inside entry houter) inner hm

theorem meets_of_exposed_output {fields : Keyed Json}
    (hm : fields ∈ exposedNodes (x.expand nodes).output) :
    ∃ left stack, x.Meets nodes left stack fields := by
  rw [expand, (exposed_replace _).2, List.mem_flatMap] at hm
  obtain ⟨outer, houter, hm⟩ := hm
  exact Meets.of_exposed_output (.exposed houter) hm

/-- what is reported of a placeholder that is met is reported of the whole -/
theorem Meets.mem_diagnostics (h : x.Meets nodes left stack fields) {d : Diagnostic}
    (hd : d ∈ (x.expandOrgan left stack fields).diagnostics) : d ∈ (x.expand nodes).diagnostics := by
  induction h with
  | exposed hm => exact mem_diagnostics_expand.mpr ⟨_, hm, hd⟩
  | inside above entry hm ih =>
    refine ih ?_
    rw [x.expandOrgan_of_entry entry]
    exact mem_diagnostics_replace.mpr ⟨_, hm, hd⟩

theorem mem_diagnostics_iff_refused {d : Diagnostic} :
    d ∈ (x.expand nodes).diagnostics ↔
      ∃ left stack fields, x.Meets nodes left stack fields ∧ x.Refusal left stack fields d := by
  constructor
  · intro hd
    obtain ⟨fields, hm, hd⟩ := mem_diagnostics_expand.mp hd
    exact Meets.refused_of_mem_diagnostics (.exposed hm) hd
  · rintro ⟨left, stack, fields, h, hr⟩
    refine h.mem_diagnostics ?_
    rw [x.expandOrgan_of_refusal hr]
    exact List.mem_singleton_self d

end Expander

end Graft
