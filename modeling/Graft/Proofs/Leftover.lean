import Graft.Proofs.Places
import Graft.Proofs.Step

/-!
# What is left and what is reported

Expansion leaves a placeholder in its place exactly when it reports it.  So the diagnostics are the
exposed placeholders of the output, one by one and in order.

* `Expander.Refused`                refused somewhere in an expansion, under some stack;
* `Expander.refused_expand`         every exposed placeholder of the output was, for the diagnostic at
                                    its position;
* `Expander.Describes`              what a diagnostic says of the node it was reported for;
* `Expander.diagnostics_describe`   the diagnostics and the outermost leftovers of a survey, pairwise.
-/

namespace Graft

open Node

/-- the organ that a node names, if it names one by a string -/
def Json.organId? (node : Json) : Option String := (node.field? organIdKey).bind string?

theorem organId?_of_ofFields? {fields : Keyed Json} {p : Placeholder}
    (h : Placeholder.ofFields? fields = some p) :
    (Json.object fields).organId? = some p.organId := by
  have ho := Placeholder.isOrgan_of_ofFields? h
  rw [Placeholder.ofFields?, if_pos ho] at h
  obtain ⟨organId, hid, rfl⟩ := Option.map_eq_some_iff.mp h
  exact hid

theorem organId?_eq_none {fields : Keyed Json} (ho : isOrgan fields = true)
    (h : Placeholder.ofFields? fields = none) : (Json.object fields).organId? = none := by
  rw [Placeholder.ofFields?, if_pos ho] at h
  exact Option.map_eq_none_iff.mp h

namespace Expander

/-- a placeholder that is refused somewhere in an expansion of this depth -/
def Refused (x : Expander) (fields : Keyed Json) (d : Diagnostic) : Prop :=
  isOrgan fields = true ∧
    ∃ left stack, left ≤ x.options.maxDepth ∧ x.Refusal left stack fields d

/-- what `d` says of the node for which it is reported -/
def Describes (x : Expander) (node : Json) : Diagnostic → Prop
  | .malformedPlaceholder => node.organId? = none
  | .unknownOrgan organId => node.organId? = some organId
  | .unknownVariant organId variantId | .malformedVariant organId variantId =>
    node.organId? = some organId ∧
      ∃ p, Placeholder.ofNode? node = some p ∧ variantId = x.resolver p
  | .cycleDetected cycle =>
    ∃ p, Placeholder.ofNode? node = some p ∧
      cycle.getLast? = some (.of p.organId (x.resolver p)) ∧
      (cycle.map VariantKey.render).getLast? =
        some (normalizeId p.organId ++ ":" ++ normalizeId (x.resolver p))
  | .maxDepthExceeded depth => node.organId?.isSome ∧ depth = x.options.maxDepth
  | .malformedDocument _ => False

variable (x : Expander)

theorem describes_of_refused {fields : Keyed Json} {d : Diagnostic} (h : x.Refused fields d) :
    x.Describes (.object fields) d := by
  obtain ⟨ho, left, stack, _, h⟩ := h
  cases h with
  | malformed hp => exact organId?_eq_none ho hp
  | @cycle _ _ _ p hp hs =>
    refine ⟨p, hp, List.getLast?_concat, ?_⟩
    rw [cycleOf, List.map_append]
    exact List.getLast?_concat
  | depth hp hs => exact ⟨by rw [organId?_of_ofFields? hp]; rfl, rfl⟩
  | organ hp hs hl hc => exact organId?_of_ofFields? hp
  | variant hp hs hl hc => exact ⟨organId?_of_ofFields? hp, _, hp, rfl⟩
  | tree hp hs hl hv => exact ⟨organId?_of_ofFields? hp, _, hp, rfl⟩

/-- whatever is exposed in the place of a placeholder was refused for the diagnostic in its turn -/
theorem refused_expandOrgan (left : Nat) (stack : List VariantKey) (fields : Keyed Json)
    (hl : left ≤ x.options.maxDepth) (ho : isOrgan fields = true) :
    List.Forall₂ x.Refused (exposedNode (x.expandOrgan left stack fields).output)
      (x.expandOrgan left stack fields).diagnostics := by
  refine x.expandOrgan_rec (P := fun left _ _ e => left ≤ x.options.maxDepth →
    List.Forall₂ x.Refused (exposedNode e.output) e.diagnostics) ?_ ?_ left stack fields ho hl
  · intro left stack fields d ho h hl
    show List.Forall₂ x.Refused (exposedNode (.object fields)) [d]
    rw [exposedNode_organ fields ho]
    exact .cons ⟨ho, left, stack, hl, h⟩ .nil
  · intro below stack fields p tree _ ih hl
    rw [(exposed_replace _).1, (diagnostics_replace _).1]
    exact forall₂_replace _ _ fun inner hm => ih inner hm (by omega)

theorem refused_expand (nodes : List Json) :
    List.Forall₂ x.Refused (exposedNodes (x.expand nodes).output)
      (x.expand nodes).diagnostics := by
  unfold expand
  rw [(exposed_replace _).2, (diagnostics_replace _).2]
  exact forall₂_replace _ _ fun fields hm =>
    x.refused_expandOrgan _ [] fields (Nat.le_refl _) (isOrgan_of_mem_exposed.2 nodes fields hm)

/-- **Every diagnostic is for one leftover.**  The diagnostics of an expansion are, in order, those of
the placeholders that a survey of the output finds outside all others; each describes the node that
the pointer leads to.  So an expansion is complete exactly when its output is closed. -/
theorem diagnostics_describe (nodes : List Json) :
    List.Forall₂
        (fun u d => ∃ node, (Json.array (x.expand nodes).output).at? u.pointer = some node ∧
          node.isOrgan = true ∧ x.Describes node d)
        (outermostUnresolved (x.expand nodes).output) (x.expand nodes).diagnostics ∧
      ((x.expand nodes).isComplete = true ↔ isClosed (x.expand nodes).output = true) := by
  constructor
  · refine forall₂_outermost (R := fun node d => node.isOrgan = true ∧ x.Describes node d) ?_
    exact (x.refused_expand nodes).imp fun fields d h => ⟨h.1, x.describes_of_refused h⟩
  · have hlen := (x.refused_expand nodes).length_eq
    rw [Expanded.isComplete_iff, isClosed_iff_exposed, ← List.length_eq_zero_iff, ← hlen,
      List.length_eq_zero_iff]

end Expander

end Graft
