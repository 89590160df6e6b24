import Graft.Expander
import Graft.Proofs.Exposed

/-!
# One step of an expansion

A placeholder is either refused, which leaves it in its place under one diagnostic, or entered: its
variant's tree is loaded, the placeholder's own fields are laid over the root, and expansion goes on
at what that root exposes.  An alias root exposes itself.

* `Diagnostic.isGuard`      the reports of the two guards, against cycles and against depth;
* `Expander.Refusal`        the ways to be refused, the first that applies;
* `Expander.Entry`          what holds of a placeholder that is entered;
* `expandOrgan_of_refusal`, `expandOrgan_of_entry`   what expansion does in either case;
* `expandOrgan_rec`         induction over an expansion, one case for each.
-/

namespace Graft

open Node

def Diagnostic.isGuard : Diagnostic → Bool
  | .cycleDetected _ | .maxDepthExceeded _ => true
  | _ => false

namespace Expander

/-- the key that `p` stands for under this expander's resolver -/
def keyOf (x : Expander) (p : Placeholder) : VariantKey := .of p.organId (x.resolver p)

/-- the root that takes the place of `p`; an alias gets no stamp -/
def rootOver (x : Expander) (p : Placeholder) (tree : Keyed Json) : Keyed Json :=
  if isOrgan (p.graft tree) then p.graft tree else x.stamp (x.resolver p) (p.graft tree)

/-- the placeholder with `fields`, inside the organs of `stack` and with `left` levels to go, is left
in its place under a diagnostic -/
inductive Refusal (x : Expander) :
    (left : Nat) → (stack : List VariantKey) → (fields : Keyed Json) → Diagnostic → Prop where
  | malformed {left stack fields} (hp : Placeholder.ofFields? fields = none) :
      Refusal x left stack fields .malformedPlaceholder
  | cycle {left stack fields p} (hp : Placeholder.ofFields? fields = some p)
      (hs : x.keyOf p ∈ stack) :
      Refusal x left stack fields (.cycleDetected (cycleOf stack (x.keyOf p)))
  | depth {stack fields p} (hp : Placeholder.ofFields? fields = some p)
      (hs : x.keyOf p ∉ stack) :
      Refusal x 0 stack fields (.maxDepthExceeded x.options.maxDepth)
  | organ {left stack fields p} (hp : Placeholder.ofFields? fields = some p)
      (hs : x.keyOf p ∉ stack) (hl : x.lookup.load p.organId (x.resolver p) = none)
      (hc : x.lookup.contains p.organId = false) :
      Refusal x (left + 1) stack fields (.unknownOrgan p.organId)
  | variant {left stack fields p} (hp : Placeholder.ofFields? fields = some p)
      (hs : x.keyOf p ∉ stack) (hl : x.lookup.load p.organId (x.resolver p) = none)
      (hc : x.lookup.contains p.organId = true) :
      Refusal x (left + 1) stack fields (.unknownVariant p.organId (x.resolver p))
  | tree {left stack fields p value} (hp : Placeholder.ofFields? fields = some p)
      (hs : x.keyOf p ∉ stack) (hl : x.lookup.load p.organId (x.resolver p) = some value)
      (hv : ∀ tree, value ≠ .object tree) :
      Refusal x (left + 1) stack fields (.malformedVariant p.organId (x.resolver p))

/-- the placeholder with `fields` is `p`, opens no cycle, and has the object `tree` for a variant -/
structure Entry (x : Expander) (stack : List VariantKey) (fields : Keyed Json) (p : Placeholder)
    (tree : Keyed Json) : Prop where
  view : Placeholder.ofFields? fields = some p
  fresh : x.keyOf p ∉ stack
  load : x.lookup.load p.organId (x.resolver p) = some (.object tree)

variable (x : Expander)

/-! ## the two outcomes -/

theorem refusal_or_entry (left : Nat) (stack : List VariantKey) (fields : Keyed Json) :
    (∃ d, x.Refusal left stack fields d) ∨
      ∃ below p tree, left = below + 1 ∧ x.Entry stack fields p tree := by
  cases hp : Placeholder.ofFields? fields with
  | none => exact Or.inl ⟨_, .malformed hp⟩
  | some p =>
    by_cases hs : x.keyOf p ∈ stack
    · exact Or.inl ⟨_, .cycle hp hs⟩
    cases left with
    | zero => exact Or.inl ⟨_, .depth hp hs⟩
    | succ below =>
      cases hl : x.lookup.load p.organId (x.resolver p) with
      | none =>
        cases hc : x.lookup.contains p.organId with
        | false => exact Or.inl ⟨_, .organ hp hs hl hc⟩
        | true => exact Or.inl ⟨_, .variant hp hs hl hc⟩
      | some value =>
        by_cases hv : ∃ tree, value = .object tree
        · obtain ⟨tree, rfl⟩ := hv
          exact Or.inr ⟨below, p, tree, rfl, hp, hs, hl⟩
        · exact Or.inl ⟨_, .tree hp hs hl fun tree h => hv ⟨tree, h⟩⟩

/-- where no guard refuses there is no object for a tree -/
theorem Refusal.load_ne {x : Expander} {left : Nat} {stack : List VariantKey} {fields : Keyed Json}
    {d : Diagnostic} {p : Placeholder} (h : x.Refusal left stack fields d) (hd : d.isGuard = false)
    (hp : Placeholder.ofFields? fields = some p) (tree : Keyed Json) :
    x.lookup.load p.organId (x.resolver p) ≠ some (.object tree) := by
  cases h with
  | malformed hm => exact absurd (hm.symm.trans hp) (by simp)
  | cycle hq hs => exact absurd hd (by simp [Diagnostic.isGuard])
  | depth hq hs => exact absurd hd (by simp [Diagnostic.isGuard])
  | organ hq hs hl hc =>
    obtain rfl := Option.some.inj (hq.symm.trans hp)
    simp [hl]
  | variant hq hs hl hc =>
    obtain rfl := Option.some.inj (hq.symm.trans hp)
    simp [hl]
  | tree hq hs hl hv =>
    obtain rfl := Option.some.inj (hq.symm.trans hp)
    rw [hl]
    exact fun he => hv tree (Option.some.inj he)

theorem choice?_of_mem {stack : List VariantKey} {fields : Keyed Json} {p : Placeholder}
    (hp : Placeholder.ofFields? fields = some p) (hs : x.keyOf p ∈ stack) :
    x.choice? stack fields = .error (.cycleDetected (cycleOf stack (x.keyOf p))) := by
  unfold choice?
  rw [hp]
  exact if_pos hs

theorem choice?_of_not_mem {stack : List VariantKey} {fields : Keyed Json} {p : Placeholder}
    (hp : Placeholder.ofFields? fields = some p) (hs : x.keyOf p ∉ stack) :
    x.choice? stack fields = .ok ⟨p, x.resolver p⟩ := by
  unfold choice?
  rw [hp]
  exact if_neg hs

/-- whoever is refused stays, and this is all that is reported -/
theorem expandOrgan_of_refusal {left : Nat} {stack : List VariantKey} {fields : Keyed Json}
    {d : Diagnostic} (h : x.Refusal left stack fields d) :
    x.expandOrgan left stack fields = leave fields d := by
  unfold expandOrgan
  cases h with
  | malformed hp =>
    have hc : x.choice? stack fields = .error .malformedPlaceholder := by
      unfold choice?
      rw [hp]
    rw [hc]
  | cycle hp hs => rw [x.choice?_of_mem hp hs]
  | depth hp hs => rw [x.choice?_of_not_mem hp hs]
  | organ hp hs hl hc =>
    rw [x.choice?_of_not_mem hp hs]
    simp only [root?, hl, hc, Bool.false_eq_true, if_false]
  | variant hp hs hl hc =>
    rw [x.choice?_of_not_mem hp hs]
    simp only [root?, hl, hc, if_true]
  | @tree _ _ _ _ value hp hs hl hv =>
    rw [x.choice?_of_not_mem hp hs]
    cases value with
    | object tree => exact absurd rfl (hv tree)
    | _ => simp only [root?, hl]

/-- whoever is entered is replaced by the loaded root, and expansion goes on at what that exposes -/
theorem expandOrgan_of_entry {below : Nat} {stack : List VariantKey} {fields : Keyed Json}
    {p : Placeholder} {tree : Keyed Json} (h : x.Entry stack fields p tree) :
    x.expandOrgan (below + 1) stack fields =
      replaceNode (x.expandOrgan below (stack ++ [x.keyOf p])) (.object (x.rootOver p tree)) := by
  have hr : x.root? ⟨p, x.resolver p⟩ = .ok (p.graft tree) := by
    simp only [root?, h.load]
  unfold rootOver
  rw [expandOrgan, x.choice?_of_not_mem h.view h.fresh]
  simp only [hr]
  cases ho : isOrgan (p.graft tree) with
  | true =>
    rw [if_pos rfl, if_pos rfl, replaceNode_organ _ _ ho]
    rfl
  | false =>
    have hs : isOrgan (x.stamp (x.resolver p) (p.graft tree)) = false := by
      unfold stamp
      split
      · rw [isOrgan_stampLayoutId, ho]
      · exact ho
    rw [if_neg (by simp), if_neg (by simp), replaceNode_plain _ _ hs]
    rfl

/-- a placeholder for which nothing is reported was entered -/
theorem entry_of_clean {left : Nat} {stack : List VariantKey} {fields : Keyed Json}
    (h : (x.expandOrgan left stack fields).diagnostics = []) :
    ∃ below p tree, left = below + 1 ∧ x.Entry stack fields p tree := by
  refine (x.refusal_or_entry left stack fields).resolve_left ?_
  rintro ⟨d, hd⟩
  rw [x.expandOrgan_of_refusal hd] at h
  exact List.cons_ne_nil _ _ h

/-- induction over an expansion: what holds of every refusal, and of an entry when it holds of all
that the loaded root exposes, holds of every placeholder -/
theorem expandOrgan_rec {P : Nat → List VariantKey → Keyed Json → Expanded Json → Prop}
    (refused : ∀ left stack fields d, isOrgan fields = true → x.Refusal left stack fields d →
      P left stack fields (leave fields d))
    (entered : ∀ below stack fields p tree, x.Entry stack fields p tree →
      (∀ inner ∈ exposedNode (.object (x.rootOver p tree)), P below (stack ++ [x.keyOf p]) inner
        (x.expandOrgan below (stack ++ [x.keyOf p]) inner)) →
      P (below + 1) stack fields
        (replaceNode (x.expandOrgan below (stack ++ [x.keyOf p])) (.object (x.rootOver p tree))))
    (left : Nat) (stack : List VariantKey) (fields : Keyed Json) (ho : isOrgan fields = true) :
    P left stack fields (x.expandOrgan left stack fields) := by
  induction left generalizing stack fields with
  | zero =>
    rcases x.refusal_or_entry 0 stack fields with ⟨d, h⟩ | ⟨below, _, _, h, _⟩
    · rw [x.expandOrgan_of_refusal h]
      exact refused 0 stack fields d ho h
    · exact absurd h (Nat.succ_ne_zero below).symm
  | succ below ih =>
    rcases x.refusal_or_entry (below + 1) stack fields with ⟨d, h⟩ | ⟨_, p, tree, hb, h⟩
    · rw [x.expandOrgan_of_refusal h]
      exact refused (below + 1) stack fields d ho h
    · obtain rfl := Nat.succ.inj hb
      rw [x.expandOrgan_of_entry h]
      exact entered _ stack fields p tree h fun inner hm =>
        ih (stack ++ [x.keyOf p]) inner (isOrgan_of_mem_exposed.1 _ inner hm)

theorem mem_diagnostics_expand {x : Expander} {nodes : List Json} {d : Diagnostic} :
    d ∈ (x.expand nodes).diagnostics ↔
      ∃ fields ∈ exposedNodes nodes,
        d ∈ (x.expandOrgan x.options.maxDepth [] fields).diagnostics := by
  rw [expand, (diagnostics_replace _).2, List.mem_flatMap]

end Expander

end Graft
