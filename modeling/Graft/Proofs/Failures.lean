import Graft.Proofs.Catalogue
import Graft.Proofs.Encounters

/-!
# Why a load fails

An expansion first asks for a tree and, when there is none, whether the organ is there.  A registry
answers the first question in three stages, from two sets of organs.  With normalized ids the two answers
leave no doubt: without a tree, an organ that is there is a static one, it has neither the variant nor a
default, and it has not been discovered as well.  So each of the three reports of a failed load has its
own condition on the registry; no two of these hold together, and one of them holds whenever a load
fails.

* `Registry.Confirms`          what a report says of the registry;
* `Registry.Normal.confirms_unknownVariant_iff`   there is no tree, and the organ is there;
* `Registry.failures`          the three reports of a failed load;
* `Registry.Normal.confirms_unique`   at most one of them is confirmed;
* `Registry.Normal.confirms_of_refusal`   whatever an expansion reports is confirmed;
* `Registry.refusal_of_failure`   where a load fails one of the three is reported;
* `Registry.failures_exact`    reports over a registry, after any changes.
-/

namespace Graft

open Node

namespace Registry

/-! ## conditions of the reports -/

/-- what `d` says of the registry is so; a report that is about the placeholder says nothing of it -/
def Confirms (r : Registry) : Diagnostic → Prop
  | .unknownOrgan organId => r.contains organId = false
  | .unknownVariant organId variantId =>
    r.contains organId = true ∧ normalizeId variantId ∉ r.variantIds organId ∧
      defaultVariant ∉ r.variantIds organId ∧
      Keyed.get? r.discovered (normalizeId organId) = none
  | .malformedVariant organId variantId =>
    ∃ value, r.lookup organId variantId = some value ∧ ∀ tree, value ≠ .object tree
  | _ => True

/-- the reports of a load that fails -/
def failures (organId variantId : String) : List Diagnostic := [
  .unknownOrgan organId, .unknownVariant organId variantId, .malformedVariant organId variantId]

variable {r : Registry} {organId variantId : String}

theorem lookup_of_not_contains (h : r.contains organId = false) : r.lookup organId variantId = none := by
  cases hl : r.lookup organId variantId with
  | none => rfl
  | some tree =>
    rw [contains_of_lookup (by rw [hl]; rfl)] at h
    exact nomatch h

/-- an organ that has not been discovered is there as a static one or not at all -/
theorem contains_of_not_discovered (h : Keyed.get? r.discovered (normalizeId organId) = none) :
    r.contains organId = (Keyed.get? r.organs (normalizeId organId)).isSome := by
  show ((Keyed.get? r.organs (normalizeId organId)).isSome ||
    (Keyed.get? r.discovered (normalizeId organId)).isSome) = _
  rw [h, Option.isSome_none, Bool.or_false]

namespace Normal

/-- without a tree, an organ that is there is static, has neither the variant nor a default, and has not
been discovered -/
theorem confirms_unknownVariant_iff (hr : r.Normal) :
    r.Confirms (.unknownVariant organId variantId) ↔
      r.contains organId = true ∧ r.lookup organId variantId = none := by
  have hlookup : r.lookup organId variantId = none ↔
      r.staticTree? ⟨normalizeId organId, normalizeId variantId⟩ = none ∧
        Keyed.get? r.discovered (normalizeId organId) = none := by
    rw [← hr.discoveredTree?]
    exact Option.or_eq_none_iff
  rw [hlookup]
  refine and_congr_right fun hc => ?_
  rw [← and_assoc]
  refine and_congr_left fun hd => ?_
  rw [contains_of_not_discovered hd] at hc
  obtain ⟨variants, hvariants⟩ := Option.isSome_iff_exists.mp hc
  rw [variantIds_of_organ hvariants, ← Keyed.get?_eq_none, ← Keyed.get?_eq_none, staticTree?,
    hvariants, Option.bind_some, Option.or_eq_none_iff]

/-- the conditions of the three reports exclude one another -/
theorem confirms_unique (hr : r.Normal) {d d' : Diagnostic} (hd : d ∈ failures organId variantId)
    (hd' : d' ∈ failures organId variantId) (h : r.Confirms d) (h' : r.Confirms d') : d = d' := by
  have hnone : r.Confirms (.unknownOrgan organId) ∨ r.Confirms (.unknownVariant organId variantId) →
      r.lookup organId variantId = none :=
    fun hu => hu.elim lookup_of_not_contains fun hv => (hr.confirms_unknownVariant_iff.mp hv).2
  have hapart : r.Confirms (.unknownOrgan organId) →
      ¬ r.Confirms (.unknownVariant organId variantId) := by
    intro ho hv
    have hc : r.contains organId = false := ho
    rw [hv.1] at hc
    exact nomatch hc
  have hfound : r.Confirms (.malformedVariant organId variantId) →
      r.lookup organId variantId ≠ none := by
    rintro ⟨value, hl, -⟩
    rw [hl]
    exact Option.some_ne_none value
  simp only [failures, List.mem_cons, List.not_mem_nil, or_false] at hd hd'
  rcases hd with rfl | rfl | rfl <;> rcases hd' with rfl | rfl | rfl
  · rfl
  · exact absurd h' (hapart h)
  · exact absurd (hnone (.inl h)) (hfound h')
  · exact absurd h (hapart h')
  · rfl
  · exact absurd (hnone (.inr h)) (hfound h')
  · exact absurd (hnone (.inl h')) (hfound h)
  · exact absurd (hnone (.inr h')) (hfound h)
  · rfl

end Normal

/-! ## reports of an expansion -/

section

variable {x : Expander} (hx : x.lookup = r.toLookup)
include hx

/-- a report says of the registry what is so, wherever it is made -/
theorem Normal.confirms_of_refusal (hr : r.Normal) {left : Nat} {stack : List VariantKey}
    {fields : Keyed Json} {d : Diagnostic} (h : x.Refusal left stack fields d) : r.Confirms d := by
  cases h with
  | malformed hp => trivial
  | cycle hp hs => trivial
  | depth hp hs => trivial
  | organ hp hs hl hc =>
    rw [hx] at hc
    exact hc
  | variant hp hs hl hc =>
    rw [hx] at hl hc
    exact hr.confirms_unknownVariant_iff.mpr ⟨hc, hl⟩
  | @tree _ _ _ p value hp hs hl hv =>
    rw [hx] at hl
    exact ⟨value, hl, hv⟩

/-- where a load fails, and no guard refuses first, one of the three reports is made -/
theorem refusal_of_failure {left : Nat} {stack : List VariantKey} {fields : Keyed Json} {p : Placeholder}
    (hp : Placeholder.ofFields? fields = some p) (hs : x.keyOf p ∉ stack)
    (h : ∀ tree, r.lookup p.organId (x.resolver p) ≠ some (.object tree)) :
    ∃ d ∈ failures p.organId (x.resolver p), x.Refusal (left + 1) stack fields d := by
  have hload : x.lookup.load p.organId (x.resolver p) = r.lookup p.organId (x.resolver p) := by
    rw [hx]
    rfl
  rw [← hload] at h
  cases hl : x.lookup.load p.organId (x.resolver p) with
  | none =>
    cases hc : x.lookup.contains p.organId with
    | false => exact ⟨_, List.mem_cons_self, .organ hp hs hl hc⟩
    | true => exact ⟨_, List.mem_cons_of_mem _ List.mem_cons_self, .variant hp hs hl hc⟩
  | some value =>
    refine ⟨_, List.mem_cons_of_mem _ (List.mem_cons_of_mem _ List.mem_cons_self),
      .tree hp hs hl fun tree hv => h tree ?_⟩
    rw [hl, hv]

end

end Registry

/-- a refused placeholder among its siblings: it stays in its place, with one report -/
theorem Expander.expand_refused (x : Expander) {fields : Keyed Json} {d : Diagnostic}
    (ho : isOrgan fields = true) (h : x.Refusal x.options.maxDepth [] fields d) (before after : List Json) :
    x.expand (before ++ .object fields :: after) =
      ⟨(x.expand before).output ++ .object fields :: (x.expand after).output,
        (x.expand before).diagnostics ++ d :: (x.expand after).diagnostics⟩ := by
  have hcons : x.expand (.object fields :: after) =
      ⟨.object fields :: (x.expand after).output, d :: (x.expand after).diagnostics⟩ := by
    rw [expand, replaceNodes_cons, replaceNode_organ _ _ ho, x.expandOrgan_of_refusal h]
    rfl
  rw [x.expand_append, hcons]

/-- **Failures are classified exactly.**  Over a registry, after any changes, every report says of the
registry what is so, at any depth.  And of a placeholder at the top for which there is no tree, or one
that is no object, exactly one of the three reports is confirmed; it is made in its place, and the
placeholder stays. -/
theorem Registry.failures_exact (start : Start) (changes : List Change) (resolver : Resolver)
    (options : ExpandOptions) :
    let r := start.registry.run changes
    let x : Expander := ⟨r.toLookup, resolver, options⟩
    (∀ nodes, ∀ d ∈ (x.expand nodes).diagnostics, r.Confirms d) ∧
      ∀ before fields after p, Placeholder.ofFields? fields = some p → 0 < options.maxDepth →
        (∀ tree, r.lookup p.organId (resolver p) ≠ some (.object tree)) →
        ∃ d ∈ failures p.organId (resolver p), r.Confirms d ∧
          (∀ d' ∈ failures p.organId (resolver p), r.Confirms d' → d' = d) ∧
          x.expand (before ++ .object fields :: after) =
            ⟨(x.expand before).output ++ .object fields :: (x.expand after).output,
              (x.expand before).diagnostics ++ d :: (x.expand after).diagnostics⟩ := by
  intro r x
  have hr : r.Normal := (reflects_run start changes).normal (history_sound start changes)
  constructor
  · intro nodes d hd
    obtain ⟨left, stack, fields, -, h⟩ := Expander.mem_diagnostics_iff_refused.mp hd
    exact hr.confirms_of_refusal (x := x) rfl h
  · intro before fields after p hp hpos hfail
    have hrefused : ∃ d ∈ failures p.organId (resolver p), x.Refusal x.options.maxDepth [] fields d := by
      obtain ⟨left, hleft⟩ := Nat.exists_eq_succ_of_ne_zero (Nat.ne_of_gt hpos)
      show ∃ d ∈ _, x.Refusal options.maxDepth [] fields d
      rw [hleft]
      exact refusal_of_failure (x := x) rfl hp List.not_mem_nil hfail
    obtain ⟨d, hd, h⟩ := hrefused
    have hconfirms : r.Confirms d := hr.confirms_of_refusal rfl h
    exact ⟨d, hd, hconfirms, fun d' hd' h' => hr.confirms_unique hd' hd h' hconfirms,
      x.expand_refused (Placeholder.isOrgan_of_ofFields? hp) h before after⟩

/-- a gallery without a default, registered in another spelling, beside an organ that nobody knows -/
theorem Registry.failures_exact_gallery :
    let changes : List Change := [.registerVariant " Gallery" "Grid" (.object [("type", .string "Grid")]),
      .registerDiscovered "odd.json" (.array [])]
    let r := Start.empty.registry.run changes
    let x : Expander := ⟨r.toLookup, Resolver.authored, {}⟩
    let fields : Keyed Json := [("type", .string "organ"), ("organId", .string "GALLERY"),
      ("variant", .string "masonry")]
    let p : Placeholder := ⟨"GALLERY", some "masonry", none, fields⟩
    let lost : Json := .object [("type", .string "organ"), ("organId", .string "lost")]
    Placeholder.ofFields? fields = some p ∧ 0 < x.options.maxDepth ∧
      (∀ tree, r.lookup "GALLERY" "masonry" ≠ some (.object tree)) ∧
      r.Confirms (.unknownVariant "GALLERY" "masonry") ∧ r.Confirms (.unknownOrgan "lost") ∧
      x.expand [lost, .object fields] =
        ⟨[lost, .object fields], [.unknownOrgan "lost", .unknownVariant "GALLERY" "masonry"]⟩ := by
  intro changes r x fields p lost
  have hnone : r.lookup "GALLERY" "masonry" = none := by decide +kernel
  have hlost : x.expand [lost] = ⟨[lost], [.unknownOrgan "lost"]⟩ := by decide +kernel
  obtain ⟨hall, hone⟩ := failures_exact .empty changes Resolver.authored {}
  have hp : Placeholder.ofFields? fields = some p := rfl
  have hpos : 0 < x.options.maxDepth := by decide
  have hfail : ∀ tree, r.lookup "GALLERY" "masonry" ≠ some (.object tree) := fun tree => by
    rw [hnone]
    exact (Option.some_ne_none _).symm
  obtain ⟨d, -, -, hunique, hexpand⟩ := hone [lost] fields [] p hp hpos hfail
  have hvariant : r.Confirms (.unknownVariant "GALLERY" "masonry") := by
    refine ⟨?_, ?_, ?_, ?_⟩ <;> decide +kernel
  have hd : d = .unknownVariant "GALLERY" "masonry" :=
    (hunique _ (List.mem_cons_of_mem _ List.mem_cons_self) hvariant).symm
  have horgan : r.Confirms (.unknownOrgan "lost") := by
    refine hall [lost] _ ?_
    show _ ∈ (x.expand [lost]).diagnostics
    rw [hlost]
    exact List.mem_singleton_self _
  refine ⟨hp, hpos, hfail, hvariant, horgan, ?_⟩
  rw [hd] at hexpand
  refine hexpand.trans ?_
  show Expanded.mk ((x.expand [lost]).output ++ _) ((x.expand [lost]).diagnostics ++ _) = _
  rw [hlost]
  rfl

end Graft
