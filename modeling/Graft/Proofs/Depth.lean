import Graft.Proofs.Resume

/-!
# Depths that are not reached

The guard against depth is asked in one place only, where a placeholder that opens no cycle is met with
no level left, and whenever it acts it reports.  So where no depth is reported, more levels make no
difference: what is left is left for the same reason, what is entered is entered with the same tree and
the same stamp, and the cycles are the same.

* `NoDepth`                       no depth is reported;
* `Expander.Refusal.deeper`       whoever is refused for another reason is refused with more levels too;
* `Expander.expandOrgan_deeper`   one placeholder, with some levels and with more;
* `Expander.expand_deeper`        a list of nodes.
-/

namespace Graft

def NoDepth (ds : List Diagnostic) : Prop := ∀ n, .maxDepthExceeded n ∉ ds

theorem NoDepth.inner {f : Keyed Json → Expanded Json} {node : Json}
    (h : NoDepth (replaceNode f node).diagnostics) {fields : Keyed Json}
    (hm : fields ∈ exposedNode node) : NoDepth (f fields).diagnostics := by
  intro n hn
  exact h n (mem_diagnostics_replace.mpr ⟨fields, hm, hn⟩)

namespace Expander

variable {x : Expander}

/-- the levels that are left matter to the guard against depth alone -/
theorem Refusal.deeper {d left : Nat} {stack : List VariantKey} {fields : Keyed Json}
    {r : Diagnostic} (h : (x.atDepth d).Refusal left stack fields r)
    (hr : ∀ n, r ≠ .maxDepthExceeded n) (e extra : Nat) :
    (x.atDepth e).Refusal (left + extra) stack fields r := by
  cases h with
  | malformed hp => exact .malformed hp
  | cycle hp hs => exact .cycle hp hs
  | depth hp hs => exact absurd rfl (hr d)
  | organ hp hs hl hc =>
    rw [Nat.add_right_comm]
    exact .organ hp hs hl hc
  | variant hp hs hl hc =>
    rw [Nat.add_right_comm]
    exact .variant hp hs hl hc
  | tree hp hs hl hv =>
    rw [Nat.add_right_comm]
    exact .tree hp hs hl hv

theorem expandOrgan_deeper (d e extra left : Nat) (stack : List VariantKey) (fields : Keyed Json)
    (ho : isOrgan fields = true)
    (h : NoDepth ((x.atDepth d).expandOrgan left stack fields).diagnostics) :
    (x.atDepth e).expandOrgan (left + extra) stack fields =
      (x.atDepth d).expandOrgan left stack fields := by
  refine (x.atDepth d).expandOrgan_rec
    (P := fun left stack fields out => NoDepth out.diagnostics →
      (x.atDepth e).expandOrgan (left + extra) stack fields = out) ?_ ?_ left stack fields ho h
  · intro left stack fields r _ hrefused h
    have hr : ∀ n, r ≠ .maxDepthExceeded n := by
      rintro n rfl
      exact h n List.mem_cons_self
    exact expandOrgan_of_refusal _ (hrefused.deeper hr e extra)
  · intro below stack fields p tree entry ih h
    have hlevels : below + 1 + extra = below + extra + 1 := by omega
    have hentry : (x.atDepth e).Entry stack fields p tree :=
      entry.of_subset (List.Subset.refl stack) e
    rw [hlevels, expandOrgan_of_entry _ hentry]
    show replaceNode ((x.atDepth e).expandOrgan (below + extra) (stack ++ [x.keyOf p]))
      (.object (x.rootOver p tree)) = _
    exact (replace_congr _ _).1 _ fun inner hm => ih inner hm (h.inner hm)

/-- **The guard against depth does nothing until it reports.**  If no depth is reported with organs
nesting to depth `d`, every larger depth gives the same output and the same diagnostics. -/
theorem expand_deeper (x : Expander) {d e : Nat} (hde : d ≤ e) (nodes : List Json)
    (h : ∀ n, .maxDepthExceeded n ∉ ((x.atDepth d).expand nodes).diagnostics) :
    (x.atDepth e).expand nodes = (x.atDepth d).expand nodes := by
  obtain ⟨extra, rfl⟩ := Nat.exists_eq_add_of_le hde
  refine replaceNodes_congr fun fields hm => ?_
  have ho : isOrgan fields = true := isOrgan_of_mem_exposed.2 nodes fields hm
  have hinner : NoDepth ((x.atDepth d).expandOrgan d [] fields).diagnostics := by
    intro n hn
    exact h n (mem_diagnostics_expand.mpr ⟨fields, hm, hn⟩)
  exact expandOrgan_deeper d (d + extra) extra d [] fields ho hinner

/-- `hero` is an alias of `mirror`, and a `mirror` shows the `hero` and a text -/
def mirrorLookup : Lookup := .ofTable [
  ⟨"hero", none, .object [("type", .string "organ"), ("organId", .string "mirror"),
    ("params", .object [("rows", .bool true)])]⟩,
  ⟨"mirror", some "wide", .null⟩,
  ⟨"mirror", none, .object [("type", .string "Stack"), ("children", .array [
    .object [("type", .string "organ"), ("organId", .string " Hero ")], .string "text"])]⟩]

/-- a placeholder with fields of its own, one of an organ that is not there, one without a tree -/
def mirrorPage : List Json := [
  .object [("type", .string "organ"), ("organId", .string "hero"), ("id", .string "h1"),
    ("params", .object [("rows", .null)])],
  .object [("children", .array [
    .object [("type", .string "organ"), ("organId", .string "lost")],
    .object [("type", .string "organ"), ("organId", .string "mirror"),
      ("variant", .string "wide")]])]]

/-- with two levels the cycle is met when the last of them is taken -/
theorem expand_deeper_mirrorPage :
    let x : Expander := ⟨mirrorLookup, .authored, {}⟩
    (2 ≤ 64 ∧ ∀ n, .maxDepthExceeded n ∉ ((x.atDepth 2).expand mirrorPage).diagnostics) ∧
      ((x.atDepth 2).expand mirrorPage).diagnostics =
        [.cycleDetected [⟨"hero", "default"⟩, ⟨"mirror", "default"⟩, ⟨"hero", "default"⟩],
          .unknownOrgan "lost", .malformedVariant "mirror" "wide"] ∧
      (x.atDepth 64).expand mirrorPage = (x.atDepth 2).expand mirrorPage := by
  intro x
  have hd : ((x.atDepth 2).expand mirrorPage).diagnostics =
      [.cycleDetected [⟨"hero", "default"⟩, ⟨"mirror", "default"⟩, ⟨"hero", "default"⟩],
        .unknownOrgan "lost", .malformedVariant "mirror" "wide"] := by decide +kernel
  have h : ∀ n, .maxDepthExceeded n ∉ ((x.atDepth 2).expand mirrorPage).diagnostics := by
    intro n
    rw [hd]
    simp
  have hde : 2 ≤ 64 := by omega
  exact ⟨⟨hde, h⟩, hd, x.expand_deeper hde mirrorPage h⟩

/-- one level less is reported -/
example : .maxDepthExceeded 1 ∈
    (((Expander.mk mirrorLookup .authored {}).atDepth 1).expand mirrorPage).diagnostics := by
  decide +kernel

end Expander

end Graft
