import Graft.Proofs.MergedPaths
import Mathlib.Logic.Function.Iterate

/-!
# Merging more than once

Values that are laid over each other in a row can be merged from the left or from the right: a chain of
aliases merges from the right, the lines of an editing session from the left.  The two agree unless a
value in the middle puts something other than an object between two objects.  From the left it takes
the first object away before the last comes; from the right the last has taken the place of the middle
before it meets the first.

* `Keyed.ext_of_get?`     distinct keys in the same order and the same look-ups, the same list;
* `Json.field_rec`        induction from the fields of a value to the value;
* `Json.overlaid?_overlaid?`   three fields that may be there, one over the other;
* `Json.ErasedAt`         the middle value takes an object away;
* `Json.merge_assoc`      where it does not, the merges agree, the order of keys included;
* `Json.mergeFields_of_absorbed`   an overlay that changes no field changes nothing;
* `Json.merge_self`, `Json.merge_absorbs`   a value over itself, and an overlay laid on twice;
* `Json.merge_repeated`   so an overlay that is laid on any number of times counts once.
-/

namespace Graft

namespace Keyed

universe u

variable {α : Type u}

theorem ext_of_get? {m n : Keyed α} (hk : keys m = keys n) (hd : m.Distinct)
    (h : ∀ key, get? m key = get? n key) : m = n := by
  induction m generalizing n with
  | nil => exact (List.map_eq_nil_iff.mp hk.symm).symm
  | cons entry rest ih =>
    obtain ⟨k, x⟩ := entry
    cases n with
    | nil => exact nomatch hk
    | cons other more =>
      obtain ⟨l, y⟩ := other
      have hd' : Distinct ((l, y) :: more) := by
        unfold Distinct
        rwa [← hk]
      obtain ⟨rfl, hkeys⟩ := List.cons.inj hk
      have hxy : x = y := by
        have hself := h k
        rw [get?_cons_self, get?_cons_self] at hself
        exact Option.some.inj hself
      have hrest : ∀ key, get? rest key = get? more key := by
        intro key
        by_cases hkey : k = key
        · rw [← hkey, hd.get?_rest, hd'.get?_rest]
        · have hother := h key
          rwa [get?_cons_ne hkey, get?_cons_ne hkey] at hother
      rw [hxy, ih hkeys hd.rest hrest]

end Keyed

namespace Json

/-- what holds of a value when it holds of all its fields holds of every value -/
theorem field_rec {P : Json → Prop}
    (step : ∀ value, (∀ key part, value.field? key = some part → P part) → P value) :
    ∀ value, P value := by
  have leaf : ∀ value, value.kind ≠ .object → P value := fun value h =>
    step value fun key part hp => nomatch (field?_of_not_object h key).symm.trans hp
  refine (@rec_all P (fun _ => True)
    (fun fields => ∀ key part, Keyed.get? fields key = some part → P part)
    (leaf _ (by decide)) (fun _ => leaf _ (by simp [kind])) (fun _ => leaf _ (by simp [kind]))
    (fun _ => leaf _ (by simp [kind])) (fun _ _ => leaf _ (by simp [kind]))
    (fun fields h => step (.object fields) h) trivial (fun _ _ _ _ => trivial)
    (fun _ _ h => nomatch h) fun k value rest hvalue hrest key part h => ?_).1
  by_cases hk : k = key
  · rw [Keyed.get?, if_pos hk] at h
    exact Option.some.inj h ▸ hvalue
  · rw [Keyed.get?, if_neg hk] at h
    exact hrest key part h

/-! ## from the left and from the right -/

theorem overlaid?_overlaid? {x y z : Option Json}
    (h : ∀ a b c, x = some a → y = some b → z = some c →
      (a.merge b).merge c = a.merge (b.merge c)) :
    overlaid? (overlaid? x y) z = overlaid? x (overlaid? y z) := by
  cases z with
  | none => rfl
  | some c =>
    cases y with
    | none => rfl
    | some b =>
      cases x with
      | none => rfl
      | some a => exact congrArg some (h a b c rfl rfl rfl)

/-- at the end of `path`, where all three are objects on the way, `b` puts something that is none
between the objects of `a` and `c` -/
structure ErasedAt (a b c : Json) (path : List String) : Prop where
  above : ∀ q, q <+: path → q ≠ path →
    ∀ value ∈ [a, b, c], (value.under? q).map kind = some .object
  first : (a.under? path).map kind = some .object
  middle : ∃ part, b.under? path = some part ∧ part.kind ≠ .object
  last : (c.under? path).map kind = some .object

/-- what is erased in a field is erased -/
theorem ErasedAt.of_field {a b c x y z : Json} {key : String} {rest : List String}
    (h : ErasedAt x y z rest) (ha : a.field? key = some x) (hb : b.field? key = some y)
    (hc : c.field? key = some z) : ErasedAt a b c (key :: rest) := by
  obtain ⟨-, hfirst, ⟨part, hpart, hkind⟩, hlast⟩ := h
  rw [← under?_of_field? ha rest] at hfirst
  rw [← under?_of_field? hb rest] at hpart
  rw [← under?_of_field? hc rest] at hlast
  refine ⟨fun q hq hne value hv => ?_, hfirst, ⟨part, hpart, hkind⟩, hlast⟩
  obtain ⟨last, hreached⟩ : ∃ last, value.under? (key :: rest) = some last := by
    simp only [List.mem_cons, List.not_mem_nil, or_false] at hv
    rcases hv with rfl | rfl | rfl
    · exact (Option.map_eq_some_iff.mp hfirst).imp fun _ he => he.1
    · exact ⟨part, hpart⟩
    · exact (Option.map_eq_some_iff.mp hlast).imp fun _ he => he.1
  exact kind_under?_of_prefix hreached hq hne

theorem keys_mergeFields_assoc {as bs cs : Keyed Json} (hb : bs.Distinct) (hc : cs.Distinct) :
    Keyed.keys (mergeFields (mergeFields as bs) cs) =
      Keyed.keys (mergeFields as (mergeFields bs cs)) := by
  rw [keys_mergeFields hc, keys_mergeFields hb, keys_mergeFields (distinct_mergeFields hb),
    keys_mergeFields hc, List.filter_append, List.filter_filter, List.append_assoc]
  -- a key of `cs` is new to `as` under `bs` when it is new to both
  refine congrArg (Keyed.keys as ++ ·) (congrArg (_ ++ ·) (List.filter_congr fun k _ => ?_))
  by_cases ha : k ∈ Keyed.keys as <;> simp [ha]

/-- **Merging is associative** unless the value in the middle takes away an object that the last one
would have been laid over. -/
theorem merge_assoc {a b c : Json} (ha : a.WellFormed) (hb : b.WellFormed) (hc : c.WellFormed)
    (h : ∀ path, ¬ ErasedAt a b c path) : (a.merge b).merge c = a.merge (b.merge c) := by
  induction c using field_rec generalizing a b with
  | step c ih =>
  by_cases hco : c.kind = .object
  case neg =>
    rw [merge_of_not_object _ c hco, merge_of_not_object b c hco, merge_of_not_object a c hco]
  by_cases hao : a.kind = .object
  case neg =>
    rw [merge_over_not_object a b hao, merge_over_not_object a _ hao]
  by_cases hbo : b.kind = .object
  case neg =>
    refine absurd ⟨fun q hq hne => absurd (List.prefix_nil.mp hq) hne, ?_, ⟨b, rfl, hbo⟩, ?_⟩ (h [])
    · rw [under?_nil, Option.map_some, hao]
    · rw [under?_nil, Option.map_some, hco]
  obtain ⟨as, rfl⟩ := kind_eq_object_iff.mp hao
  obtain ⟨bs, rfl⟩ := kind_eq_object_iff.mp hbo
  obtain ⟨cs, rfl⟩ := kind_eq_object_iff.mp hco
  have hdistinct : (mergeFields bs cs).Distinct := distinct_mergeFields hb.distinct
  simp only [merge_object]
  refine congrArg Json.object (Keyed.ext_of_get? ?_ ?_ fun key => ?_)
  · exact keys_mergeFields_assoc hb.distinct hc.distinct
  · exact distinct_mergeFields (distinct_mergeFields ha.distinct)
  · rw [get?_mergeFields hc.distinct, get?_mergeFields hb.distinct, get?_mergeFields hdistinct,
      get?_mergeFields hc.distinct]
    refine overlaid?_overlaid? fun x y z hx hy hz => ?_
    refine ih key z hz (ha.of_get? hx) (hb.of_get? hy) (hc.of_get? hz) fun rest he => ?_
    exact h (key :: rest) (he.of_field hx hy hz)

/-- laid over the panel's layout after the overlay; all that is an object here was none before -/
def panelEdit : Json := .object [
  ("grid", .bool true),
  ("align", .object [("y", .string "top"), ("x", .null)]),
  ("gap", .null),
  ("width", .object [])]

theorem merge_assoc_panel :
    (∀ path, ¬ ErasedAt panelLayout panelOverlay panelEdit path) ∧
      (panelLayout.merge panelOverlay).merge panelEdit =
        panelLayout.merge (panelOverlay.merge panelEdit) := by
  have hkept : ∀ path, ¬ ErasedAt panelLayout panelOverlay panelEdit path := by
    rintro path ⟨-, hfirst, ⟨part, hmiddle, hpart⟩, hlast⟩
    cases path with
    | nil => exact hpart (Option.some.inj hmiddle ▸ rfl)
    | cons key rest =>
      obtain ⟨old, hold, -⟩ := Option.map_eq_some_iff.mp hfirst
      obtain ⟨inner, hfield, -⟩ := field?_of_under? hold
      have hkey : key = "gap" ∨ key = "align" ∨ key = "grid" := by
        have hmem : key ∈ Keyed.keys _ :=
          (Keyed.isSome_get? _ key).mp (Option.isSome_of_eq_some hfield)
        simpa [Keyed.keys] using hmem
      rcases hkey with rfl | rfl | rfl
      · cases rest <;> cases hlast
      · cases rest <;> cases hfirst
      · cases rest <;> cases hlast
  have hedit : panelEdit.WellFormed := by
    simp [panelEdit, WellFormed, WellFormedFields, Keyed.Distinct, Keyed.keys]
  exact ⟨hkept, merge_assoc wellFormed_panelLayout wellFormed_panelOverlay hedit hkept⟩

/-- where the overlay has put an array for the grid, an empty grid is not laid over the old one -/
example :
    (panelLayout.merge panelOverlay).merge (.object [("grid", .object [])]) ≠
      panelLayout.merge (panelOverlay.merge (.object [("grid", .object [])])) := by
  decide

/-! ## the same overlay again -/

/-- an overlay that leaves every field as it is leaves the object as it is -/
theorem mergeFields_of_absorbed {fields overlay : Keyed Json}
    (h : ∀ entry ∈ overlay, ∃ old, Keyed.get? fields entry.1 = some old ∧ old.merge entry.2 = old) :
    mergeFields fields overlay = fields := by
  induction overlay with
  | nil => rfl
  | cons entry rest ih =>
    obtain ⟨key, value⟩ := entry
    obtain ⟨old, hold, habsorbed⟩ := h (key, value) List.mem_cons_self
    rw [mergeFields_cons, Keyed.update_of_get? hold habsorbed]
    exact ih fun entry he => h entry (List.mem_cons_of_mem _ he)

theorem merge_self {value : Json} (hw : value.WellFormed) : value.merge value = value := by
  induction value using field_rec with
  | step value ih =>
  by_cases ho : value.kind = .object
  case neg => exact merge_of_not_object value value ho
  obtain ⟨fields, rfl⟩ := kind_eq_object_iff.mp ho
  rw [merge_object, mergeFields_of_absorbed]
  rintro ⟨key, part⟩ he
  have hpart : Keyed.get? fields key = some part := Keyed.get?_of_mem hw.distinct he
  exact ⟨part, hpart, ih key part hpart (hw.of_get? hpart)⟩

theorem merge_absorbs (base : Json) {overlay : Json} (hw : overlay.WellFormed) :
    (base.merge overlay).merge overlay = base.merge overlay := by
  induction overlay using field_rec generalizing base with
  | step overlay ih =>
  by_cases ho : overlay.kind = .object
  case neg => rw [merge_of_not_object _ overlay ho, merge_of_not_object base overlay ho]
  by_cases hb : base.kind = .object
  case neg => rw [merge_over_not_object base overlay hb, merge_self hw]
  obtain ⟨fields, rfl⟩ := kind_eq_object_iff.mp hb
  obtain ⟨laid, rfl⟩ := kind_eq_object_iff.mp ho
  rw [merge_object, merge_object, mergeFields_of_absorbed]
  rintro ⟨key, part⟩ he
  have hpart : Keyed.get? laid key = some part := Keyed.get?_of_mem hw.distinct he
  refine ⟨mergeInto part (Keyed.get? fields key), ?_, ?_⟩
  · rw [get?_mergeFields hw.distinct, hpart]
    rfl
  · cases Keyed.get? fields key with
    | none => exact merge_self (hw.of_get? hpart)
    | some old => exact ih key part hpart old (hw.of_get? hpart)

/-- **An overlay counts once.**  Laid on again, any number of times in a row, it changes nothing, and a
value laid over itself is that value, the order of keys included. -/
theorem merge_repeated (base : Json) {overlay : Json} (hw : overlay.WellFormed) :
    (base.merge overlay).merge overlay = base.merge overlay ∧ overlay.merge overlay = overlay ∧
      ∀ times, (fun target => target.merge overlay)^[times + 1] base = base.merge overlay := by
  refine ⟨merge_absorbs base hw, merge_self hw, fun times => ?_⟩
  induction times with
  | zero => rfl
  | succ times ih =>
    rw [Function.iterate_succ_apply', ih]
    exact merge_absorbs base hw

theorem merge_repeated_panel :
    panelOverlay.WellFormed ∧ panelLayout.merge panelOverlay ≠ panelLayout ∧
      (fun target => target.merge panelOverlay)^[3] panelLayout = panelLayout.merge panelOverlay :=
  ⟨wellFormed_panelOverlay, by decide, (merge_repeated panelLayout wellFormed_panelOverlay).2.2 2⟩

end Json

end Graft
