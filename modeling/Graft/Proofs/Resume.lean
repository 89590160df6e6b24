import Graft.Proofs.Step

/-!
# Expanding a few levels at a time

What the guard against depth has left can be expanded further, and a deep expansion comes out as a
shallow one followed by another.  The second starts with no organ open.  The organs that were open
around a leftover matter to the guard against cycles only, so they may be forgotten where the deep
expansion meets no cycle.

* `Expander.atDepth`           the same expander with another depth;
* `NoCycle`                    no cycle is reported;
* `Expander.Refusal.stays`     a placeholder that has no tree stays, wherever it is met;
* `Expander.output_of_subset`  fewer open organs, the same output;
* `Expander.output_resume`     one placeholder: first some levels, then the others;
* `Expander.expand_resume`     a list of nodes.
-/

namespace Graft

def NoCycle (ds : List Diagnostic) : Prop := ∀ cycle, .cycleDetected cycle ∉ ds

/-- no exposed placeholder reports one either -/
theorem NoCycle.inner {f : Keyed Json → Expanded Json} {node : Json}
    (h : NoCycle (replaceNode f node).diagnostics) {fields : Keyed Json}
    (hm : fields ∈ exposedNode node) : NoCycle (f fields).diagnostics := by
  intro cycle hc
  exact h cycle (mem_diagnostics_replace.mpr ⟨fields, hm, hc⟩)

namespace Expander

variable (x : Expander)

/-- organs may nest to another depth; all else is the same -/
def atDepth (depth : Nat) : Expander := { x with options := { x.options with maxDepth := depth } }

variable {x}

theorem Entry.of_subset {d : Nat} {stack inner : List VariantKey} {fields tree : Keyed Json}
    {p : Placeholder} (h : (x.atDepth d).Entry stack fields p tree) (hs : inner ⊆ stack) (e : Nat) :
    (x.atDepth e).Entry inner fields p tree :=
  ⟨h.view, fun hm => h.fresh (hs hm), h.load⟩

/-! ## placeholders that stay -/

theorem output_zero (stack : List VariantKey) (fields : Keyed Json) :
    (x.expandOrgan 0 stack fields).output = .object fields := by
  rcases x.refusal_or_entry 0 stack fields with ⟨r, hr⟩ | ⟨below, _, _, hb, _⟩
  · rw [x.expandOrgan_of_refusal hr]
    rfl
  · exact absurd hb (Nat.succ_ne_zero below).symm

/-- above the last level, only a cycle makes a guard refuse -/
theorem Refusal.not_guard {below : Nat} {stack : List VariantKey} {fields : Keyed Json}
    {r : Diagnostic} (h : x.Refusal (below + 1) stack fields r)
    (hc : NoCycle (x.expandOrgan (below + 1) stack fields).diagnostics) : r.isGuard = false := by
  have he := x.expandOrgan_of_refusal h
  cases h with
  | cycle hp hs =>
    rw [he] at hc
    exact absurd List.mem_cons_self (hc _)
  | malformed hp => rfl
  | organ hp hs hl hn => rfl
  | variant hp hs hl hn => rfl
  | tree hp hs hl hv => rfl

/-- what is refused there without a cycle has no tree, so it stays wherever it is met -/
theorem Refusal.stays {d below : Nat} {stack : List VariantKey} {fields : Keyed Json}
    {r : Diagnostic} (h : (x.atDepth d).Refusal (below + 1) stack fields r)
    (hc : NoCycle ((x.atDepth d).expandOrgan (below + 1) stack fields).diagnostics)
    (e left : Nat) (inner : List VariantKey) :
    ((x.atDepth e).expandOrgan left inner fields).output = .object fields := by
  rcases (x.atDepth e).refusal_or_entry left inner fields with ⟨s, hs⟩ | ⟨_, p, tree, rfl, he⟩
  · rw [expandOrgan_of_refusal _ hs]
    rfl
  · exact absurd he.load (h.load_ne (h.not_guard hc) he.view tree)

/-! ## two passes -/

/-- where no cycle is met, it does not matter which organs are open -/
theorem output_of_subset (d e left : Nat) {stack inner : List VariantKey} (fields : Keyed Json)
    (hs : inner ⊆ stack)
    (hc : NoCycle ((x.atDepth d).expandOrgan left stack fields).diagnostics) :
    ((x.atDepth e).expandOrgan left inner fields).output =
      ((x.atDepth d).expandOrgan left stack fields).output := by
  induction left generalizing stack inner fields with
  | zero => rw [output_zero, output_zero]
  | succ below ih =>
    rcases (x.atDepth d).refusal_or_entry (below + 1) stack fields with
      ⟨r, hr⟩ | ⟨_, p, tree, hb, he⟩
    · rw [hr.stays hc e, hr.stays hc d]
    · obtain rfl := Nat.succ.inj hb
      have hkeys : inner ++ [x.keyOf p] ⊆ stack ++ [x.keyOf p] :=
        List.append_subset.mpr ⟨List.subset_append_of_subset_left _ hs, List.subset_append_right _ _⟩
      rw [expandOrgan_of_entry _ he] at hc ⊢
      rw [expandOrgan_of_entry _ (he.of_subset hs e)]
      exact output_congr fun fields hm => ih fields hkeys (hc.inner hm)

/-- what the first pass leaves, the second expands with no organ open -/
theorem output_resume (d e c first second : Nat) (stack : List VariantKey) (fields : Keyed Json)
    (ho : isOrgan fields = true)
    (hc : NoCycle ((x.atDepth c).expandOrgan (first + second) stack fields).diagnostics) :
    (replaceNode ((x.atDepth e).expandOrgan second [])
        ((x.atDepth d).expandOrgan first stack fields).output).output =
      ((x.atDepth c).expandOrgan (first + second) stack fields).output := by
  induction first generalizing stack fields with
  | zero =>
    rw [Nat.zero_add] at hc ⊢
    rw [output_zero, replaceNode_organ _ _ ho]
    exact output_of_subset c e second fields (List.nil_subset _) hc
  | succ first ih =>
    have hlevels : first + 1 + second = first + second + 1 := by omega
    rw [hlevels] at hc ⊢
    rcases (x.atDepth c).refusal_or_entry (first + second + 1) stack fields with
      ⟨r, hr⟩ | ⟨_, p, tree, hb, he⟩
    · rw [hr.stays hc d, replaceNode_organ _ _ ho, hr.stays hc e, hr.stays hc c]
    · obtain rfl := Nat.succ.inj hb
      rw [expandOrgan_of_entry _ he] at hc ⊢
      rw [expandOrgan_of_entry _ (he.of_subset (List.Subset.refl stack) d)]
      refine (replace_twice _ _ _).1 _ fun fields hm => ?_
      exact ih _ fields (isOrgan_of_mem_exposed.1 _ fields hm) (hc.inner hm)

/-- **An expansion may be resumed.**  If organs nesting to depth `d + e` meet no cycle, expanding to
depth `d` and what comes out of that to depth `e` gives what one expansion to depth `d + e` gives. -/
theorem expand_resume (x : Expander) (d e : Nat) (nodes : List Json)
    (h : ∀ cycle, .cycleDetected cycle ∉ ((x.atDepth (d + e)).expand nodes).diagnostics) :
    ((x.atDepth e).expand ((x.atDepth d).expand nodes).output).output =
      ((x.atDepth (d + e)).expand nodes).output := by
  refine (replace_twice _ _ _).2 nodes fun fields hm => ?_
  refine output_resume d e (d + e) d e [] fields (isOrgan_of_mem_exposed.2 nodes fields hm) ?_
  intro cycle hc
  exact h cycle (mem_diagnostics_expand.mpr ⟨fields, hm, hc⟩)

/-- `hero` is an alias of `frame`, and a `frame` shows a `note` -/
def frameLookup : Lookup := .ofTable [
  ⟨"hero", none, .object [("type", .string "organ"), ("organId", .string "frame"),
    ("params", .object [("rows", .bool true)])]⟩,
  ⟨"frame", none, .object [("children", .array [
    .object [("type", .string "organ"), ("organId", .string "note")]])]⟩,
  ⟨"note", none, .object [("type", .string "Text")]⟩]

/-- a placeholder with fields of its own, and one of an organ that is not there -/
def framePage : List Json := [
  .object [("type", .string "organ"), ("organId", .string "hero"), ("id", .string "h1"),
    ("params", .object [("rows", .null)])],
  .object [("type", .string "organ"), ("organId", .string "lost")]]

/-- the first pass ends between the alias and the frame -/
theorem expand_resume_framePage :
    let x : Expander := ⟨frameLookup, .authored, {}⟩
    (∀ cycle, .cycleDetected cycle ∉ ((x.atDepth (1 + 2)).expand framePage).diagnostics) ∧
      .maxDepthExceeded 1 ∈ ((x.atDepth 1).expand framePage).diagnostics ∧
      ((x.atDepth 2).expand ((x.atDepth 1).expand framePage).output).output =
        ((x.atDepth (1 + 2)).expand framePage).output := by
  intro x
  have hd : ((x.atDepth (1 + 2)).expand framePage).diagnostics = [.unknownOrgan "lost"] := by
    decide +kernel
  have h : ∀ cycle, .cycleDetected cycle ∉ ((x.atDepth (1 + 2)).expand framePage).diagnostics := by
    intro cycle
    rw [hd]
    simp
  exact ⟨h, by decide +kernel, expand_resume x 1 2 framePage h⟩

end Expander

end Graft
