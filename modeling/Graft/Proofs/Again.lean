import Graft.Proofs.Leftover

/-!
# Expanding a second time

What the guards did not stop is settled: a placeholder that was left because it names no organ, or
because its variant cannot be had, is left again wherever it stands.

* `Expander.Refused.again`      any other refusal comes again at the top of an expansion;
* `Expander.expand_exposed_left`  an expansion of what is all left changes nothing;
* `Expander.expand_again`       expanding an output again gives it again, with the same diagnostics.
-/

namespace Graft

namespace Expander

variable (x : Expander)

theorem Refused.again {x : Expander} {fields : Keyed Json} {d : Diagnostic}
    (h : x.Refused fields d) (hd : d.isGuard = false) :
    x.Refusal x.options.maxDepth [] fields d := by
  obtain ⟨_, left, stack, hl, h⟩ := h
  generalize x.options.maxDepth = depth at hl ⊢
  cases h with
  | malformed hp => exact .malformed hp
  | cycle hp hs => exact absurd hd (by simp [Diagnostic.isGuard])
  | depth hp hs => exact absurd hd (by simp [Diagnostic.isGuard])
  | organ hp hs hload hc =>
    cases depth with
    | zero => omega
    | succ below => exact .organ hp List.not_mem_nil hload hc
  | variant hp hs hload hc =>
    cases depth with
    | zero => omega
    | succ below => exact .variant hp List.not_mem_nil hload hc
  | tree hp hs hload hv =>
    cases depth with
    | zero => omega
    | succ below => exact .tree hp List.not_mem_nil hload hv

/-- placeholders that are refused at the top of an expansion stay, and report in their turn -/
theorem left_of_refusals {exposed : List (Keyed Json)} {ds : List Diagnostic}
    (h : List.Forall₂ (x.Refusal x.options.maxDepth []) exposed ds) :
    (exposed.flatMap fun fields => (x.expandOrgan x.options.maxDepth [] fields).diagnostics) = ds ∧
      ∀ fields ∈ exposed,
        (x.expandOrgan x.options.maxDepth [] fields).output = .object fields := by
  induction h with
  | nil => exact ⟨rfl, fun _ h => absurd h List.not_mem_nil⟩
  | @cons fields d rest ds hd _ ih =>
    have he := x.expandOrgan_of_refusal hd
    refine ⟨?_, List.forall_mem_cons.mpr ⟨?_, ih.2⟩⟩
    · rw [List.flatMap_cons, ih.1, he]
      rfl
    · rw [he]
      rfl

theorem expand_exposed_left {nodes : List Json} {ds : List Diagnostic}
    (h : List.Forall₂ (x.Refusal x.options.maxDepth []) (exposedNodes nodes) ds) :
    x.expand nodes = ⟨nodes, ds⟩ := by
  obtain ⟨hds, hstay⟩ := x.left_of_refusals h
  have hcongr : ∀ fields ∈ exposedNodes nodes, x.expandOrgan x.options.maxDepth [] fields =
      ⟨.object fields, (x.expandOrgan x.options.maxDepth [] fields).diagnostics⟩ := by
    intro fields hm
    rw [← hstay fields hm]
  unfold expand
  rw [replaceNodes_congr hcongr, (replace_in_place _).2, hds]

/-- **Expanding again changes nothing.**  If neither guard has reported, the output expands to itself
under the same diagnostics; a closed list expands to itself under none. -/
theorem expand_again (nodes : List Json) :
    ((∀ d ∈ (x.expand nodes).diagnostics, d.isGuard = false) →
        x.expand (x.expand nodes).output = x.expand nodes) ∧
      (isClosed nodes = true → x.expand nodes = ⟨nodes, []⟩) := by
  constructor
  · intro hd
    have h := x.refused_expand nodes
    refine x.expand_exposed_left ?_
    have hand := ((List.forall₂_and_left _ _).mpr ⟨hd, h.flip⟩).flip
    exact hand.imp fun fields d hf => Refused.again hf.2 hf.1
  · intro hc
    refine x.expand_exposed_left ?_
    rw [(isClosed_iff_exposed nodes).mp hc]
    exact .nil

/-- `hero` is an alias of the wide `Card`, whose one child is a placeholder of a malformed organ -/
def noteLookup : Lookup := .ofTable [
  ⟨"hero", none, .object [("type", .string "organ"), ("organId", .string "Card"),
    ("variant", .string "wide"), ("params", .object [("rows", .bool true)])]⟩,
  ⟨"Card", some "wide", .object [("type", .string "Stack"), ("children", .array [
    .object [("type", .string "organ"), ("organId", .string "note"), ("id", .string "n1")]])]⟩,
  ⟨"note", none, .null⟩]

/-- an alias, a placeholder of an unknown organ below an ordinary node, and one that names no organ -/
def notePage : List Json := [
  .object [("type", .string "organ"), ("organId", .string "hero"), ("id", .string "h1"),
    ("params", .object [("rows", .null)])],
  .object [("children", .array [
    .object [("type", .string "organ"), ("organId", .string "lost")]])],
  .object [("type", .string "organ")]]

theorem expand_again_notePage :
    let x : Expander := ⟨noteLookup, .authored, {}⟩
    ((∀ d ∈ (x.expand notePage).diagnostics, d.isGuard = false) ∧
        x.expand (x.expand notePage).output = x.expand notePage) ∧
      isClosed [.object [("children", .array [.bool true])]] = true ∧
        x.expand [.object [("children", .array [.bool true])]] =
          ⟨[.object [("children", .array [.bool true])]], []⟩ := by
  intro x
  have hd : ∀ d ∈ (x.expand notePage).diagnostics, d.isGuard = false := by decide
  have hc : isClosed [.object [("children", .array [.bool true])]] = true := by decide
  exact ⟨⟨hd, (x.expand_again notePage).1 hd⟩, hc, (x.expand_again _).2 hc⟩

end Expander

end Graft
