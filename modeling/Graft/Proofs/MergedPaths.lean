import Graft.Json.Pointer
import Graft.Proofs.Reading
import Graft.Proofs.Root

/-!
# What a merge holds

One object laid over another is said key by key: under each key stands what the overlay has there, laid
over what the base has there, and the keys of the base come first.  So a merge is said path by path,
where a path leads from object to object by their keys.

* `Json.get?_mergeFields`, `Json.keys_mergeFields`   an object over an object, key by key;
* `Json.field?_merge`      a field of a merge, whatever the base is;
* `Json.under?`            what stands at the end of a path of keys;
* `Json.MergedAt`          what a merge holds there, by what the base and the overlay hold;
* `Json.MergedAt.start`, `Json.MergedAt.step`   at the root, and one key further;
* `Json.merge_by_path`     so it is at the end of every path.
-/

namespace Graft.Json

/-! ## key by key -/

section

variable {fields overlay : Keyed Json}

theorem get?_mergeFields (ho : overlay.Distinct) (key : String) :
    Keyed.get? (mergeFields fields overlay) key =
      overlaid? (Keyed.get? fields key) (Keyed.get? overlay key) := by
  induction overlay generalizing fields with
  | nil => rfl
  | cons entry rest ih =>
    obtain ⟨k, value⟩ := entry
    rw [mergeFields_cons, ih ho.rest, Keyed.get?_update]
    by_cases hk : k = key
    · subst hk
      rw [if_pos rfl, Keyed.get?_cons_self, ho.get?_rest]
      rfl
    · rw [if_neg hk, Keyed.get?_cons_ne hk]

/-- the keys of the base, then those that the overlay brings along -/
theorem keys_mergeFields (ho : overlay.Distinct) :
    Keyed.keys (mergeFields fields overlay) =
      Keyed.keys fields ++ (Keyed.keys overlay).filter (· ∉ Keyed.keys fields) := by
  induction overlay generalizing fields with
  | nil => exact (List.append_nil _).symm
  | cons entry rest ih =>
    obtain ⟨k, value⟩ := entry
    have hrest : k ∉ Keyed.keys rest := (List.nodup_cons.mp ho).1
    rw [mergeFields_cons, ih ho.rest, Keyed.keys_cons]
    by_cases hk : k ∈ Keyed.keys fields
    · rw [Keyed.keys_update_of_mem fields k _ hk, List.filter_cons_of_neg (by simpa using hk)]
    · rw [Keyed.keys_update_of_not_mem fields k _ hk, List.filter_cons_of_pos (by simpa using hk),
        List.append_assoc, List.singleton_append]
      -- the key that came in is none of those that come after it
      have hsame : ∀ l ∈ Keyed.keys rest, (l ∉ Keyed.keys fields ++ [k] ↔ l ∉ Keyed.keys fields) := by
        intro l hl
        have hne : l ≠ k := fun e => hrest (e ▸ hl)
        simp [hne]
      rw [List.filter_congr fun l hl => decide_eq_decide.mpr (hsame l hl)]

theorem distinct_mergeFields (hf : fields.Distinct) : (mergeFields fields overlay).Distinct := by
  induction overlay generalizing fields with
  | nil => exact hf
  | cons entry rest ih =>
    rw [mergeFields_cons]
    exact ih (Keyed.distinct_update fields entry.1 _ hf)

end

/-! ## fields of a merge -/

theorem field?_of_not_object {value : Json} (h : value.kind ≠ .object) (key : String) :
    value.field? key = none := by
  cases value with
  | object fields => exact absurd rfl h
  | _ => rfl

theorem kind_of_field? {value part : Json} {key : String} (h : value.field? key = some part) :
    value.kind = .object := by
  by_contra hk
  exact nomatch (field?_of_not_object hk key).symm.trans h

theorem WellFormed.of_field? {value part : Json} (hw : value.WellFormed) {key : String}
    (h : value.field? key = some part) : part.WellFormed := by
  cases value with
  | object fields => exact hw.of_get? h
  | _ => exact nomatch h

theorem field?_merge (base : Json) {overlay : Json} (hw : overlay.WellFormed)
    (ho : overlay.kind = .object) (key : String) :
    (base.merge overlay).field? key = overlaid? (base.field? key) (overlay.field? key) := by
  obtain ⟨fields, rfl⟩ := kind_eq_object_iff.mp ho
  by_cases hb : base.kind = .object
  · obtain ⟨old, rfl⟩ := kind_eq_object_iff.mp hb
    exact get?_mergeFields hw.distinct key
  · rw [merge_over_not_object base _ hb, field?_of_not_object hb]
    cases (Json.object fields).field? key <;> rfl

/-! ## path by path -/

/-- what stands at the end of a path of keys; every part on the way is an object -/
def under? (value : Json) (path : List String) : Option Json := value.at? (path.map Step.field)

theorem under?_nil (value : Json) : value.under? [] = some value := rfl

theorem under?_cons (value : Json) (key : String) (rest : List String) :
    value.under? (key :: rest) = (value.field? key).bind fun part => part.under? rest := by
  cases value <;> rfl

theorem under?_of_field? {value part : Json} {key : String} (h : value.field? key = some part)
    (rest : List String) : value.under? (key :: rest) = part.under? rest := by
  rw [under?_cons, h, Option.bind_some]

theorem under?_of_no_field {value : Json} {key : String} (h : value.field? key = none)
    (rest : List String) : value.under? (key :: rest) = none := by
  rw [under?_cons, h, Option.bind_none]

theorem field?_of_under? {value part : Json} {key : String} {rest : List String}
    (h : value.under? (key :: rest) = some part) :
    ∃ inner, value.field? key = some inner ∧ inner.under? rest = some part := by
  rw [under?_cons] at h
  exact Option.bind_eq_some_iff.mp h

/-- a path leads through objects -/
theorem kind_under?_of_prefix {value part : Json} {path q : List String}
    (h : value.under? path = some part) (hq : q <+: path) (hne : q ≠ path) :
    (value.under? q).map kind = some .object := by
  induction q generalizing value path with
  | nil =>
    cases path with
    | nil => exact absurd rfl hne
    | cons key rest =>
      obtain ⟨inner, hinner, -⟩ := field?_of_under? h
      rw [under?_nil, Option.map_some, kind_of_field? hinner]
  | cons key q ih =>
    obtain ⟨rest, rfl⟩ := hq
    obtain ⟨inner, hinner, hpart⟩ := field?_of_under? h
    rw [under?_of_field? hinner]
    exact ih hpart (List.prefix_append q rest) fun e => hne (congrArg (key :: ·) e)

/-- what `merged` holds at the end of `path`, when it is `overlay` laid over `base` -/
structure MergedAt (base overlay merged : Json) (path : List String) : Prop where
  /-- what is no object in the overlay is taken as it is -/
  replaced : ∀ value, overlay.under? path = some value → value.kind ≠ .object →
    merged.under? path = some value
  /-- where the overlay has nothing, and has replaced nothing further up, the base is kept -/
  kept : ∀ value, base.under? path = some value → overlay.under? path = none →
    (∀ above part, above <+: path → above ≠ path → overlay.under? above = some part →
      part.kind = .object) →
    merged.under? path = some value
  nothing_new : base.under? path = none → overlay.under? path = none → merged.under? path = none
  /-- two objects make one; the keys of the base come first -/
  keys : ∀ fields laid, base.under? path = some (.object fields) →
    overlay.under? path = some (.object laid) →
    ∃ both, merged.under? path = some (.object both) ∧
      Keyed.keys both = Keyed.keys fields ++ (Keyed.keys laid).filter (· ∉ Keyed.keys fields)

namespace MergedAt

variable {base overlay : Json}

theorem start (base : Json) (hw : overlay.WellFormed) :
    MergedAt base overlay (base.merge overlay) [] where
  replaced := by
    intro value hv hkind
    obtain rfl := Option.some.inj hv
    rw [merge_of_not_object base overlay hkind, under?_nil]
  kept := fun _ _ ho _ => nomatch ho
  nothing_new := fun hb _ => nomatch hb
  keys := by
    intro fields laid hb ho
    obtain rfl : base = .object fields := Option.some.inj hb
    obtain rfl : overlay = .object laid := Option.some.inj ho
    exact ⟨mergeFields fields laid, rfl, keys_mergeFields hw.distinct⟩

variable {merged : Json} {path : List String}

/-- where the overlay has nothing and the merge has what the base has -/
theorem of_base (ho : overlay.under? path = none)
    (hm : merged.under? path = base.under? path) : MergedAt base overlay merged path where
  replaced := fun _ h _ => nomatch ho.symm.trans h
  kept := fun _ h _ _ => hm.trans h
  nothing_new := fun h _ => hm.trans h
  keys := fun _ _ _ h => nomatch ho.symm.trans h

/-- where the base has nothing and the merge has what the overlay has -/
theorem of_overlay (hb : base.under? path = none)
    (hm : merged.under? path = overlay.under? path) : MergedAt base overlay merged path where
  replaced := fun _ h _ => hm.trans h
  kept := fun _ h => nomatch hb.symm.trans h
  nothing_new := fun _ h => hm.trans h
  keys := fun _ _ h => nomatch hb.symm.trans h

/-- behind what is no object in the overlay there is nothing -/
theorem of_not_object (ho : overlay.kind ≠ .object) {key : String} {rest : List String} :
    MergedAt base overlay (base.merge overlay) (key :: rest) := by
  have hnone : overlay.under? (key :: rest) = none :=
    under?_of_no_field (field?_of_not_object ho key) rest
  rw [merge_of_not_object base overlay ho]
  refine ⟨fun _ h _ => h, fun _ _ _ habove => ?_, fun _ h => h, fun _ _ _ h => ?_⟩
  · exact absurd (habove [] overlay List.nil_prefix (List.cons_ne_nil _ _).symm rfl) ho
  · exact nomatch hnone.symm.trans h

/-- what holds at the end of the rest of a path, from the parts under its first key -/
theorem of_part {old new part : Json} {key : String} {rest : List String}
    (hold : base.field? key = some old) (hnew : overlay.field? key = some new)
    (hpart : merged.field? key = some part) (h : MergedAt old new part rest) :
    MergedAt base overlay merged (key :: rest) := by
  have hbase := under?_of_field? hold rest
  have hover := under?_of_field? hnew rest
  have hmerged := under?_of_field? hpart rest
  constructor
  · rw [hover, hmerged]
    exact h.replaced
  · rw [hbase, hover, hmerged]
    intro value hv hn habove
    refine h.kept value hv hn fun above inner hprefix hne hinner => ?_
    refine habove (key :: above) inner ((List.prefix_cons_inj key).mpr hprefix) ?_ ?_
    · exact fun e => hne (List.cons.inj e).2
    · rw [under?_of_field? hnew, hinner]
  · rw [hbase, hover, hmerged]
    exact h.nothing_new
  · rw [hbase, hover, hmerged]
    exact h.keys

/-- a merge holds under a key what the parts under that key make -/
theorem step (hw : overlay.WellFormed) {key : String} {rest : List String}
    (ih : ∀ old new, base.field? key = some old → overlay.field? key = some new →
      MergedAt old new (old.merge new) rest) :
    MergedAt base overlay (base.merge overlay) (key :: rest) := by
  by_cases ho : overlay.kind = .object
  case neg => exact of_not_object ho
  have hfield := field?_merge base hw ho key
  cases hnew : overlay.field? key with
  | none =>
    rw [hnew] at hfield
    refine of_base (under?_of_no_field hnew rest) ?_
    rw [under?_cons, hfield, under?_cons]
    rfl
  | some new =>
    cases hold : base.field? key with
    | none =>
      rw [hold, hnew] at hfield
      refine of_overlay (under?_of_no_field hold rest) ?_
      rw [under?_of_field? hfield, under?_of_field? hnew]
      rfl
    | some old =>
      rw [hold, hnew] at hfield
      exact of_part hold hnew hfield (ih old new hold hnew)

end MergedAt

/-- **A merge, path by path.**  At the end of every path of keys a merge holds what the overlay has
there, if that is no object; what the base has there, if the overlay has nothing there and nothing but
objects on the way; where both have an object, an object with the keys of both, those of the base
first; and nothing where neither has anything. -/
theorem merge_by_path (base : Json) {overlay : Json} (hw : overlay.WellFormed) (path : List String) :
    MergedAt base overlay (base.merge overlay) path := by
  induction path generalizing base overlay with
  | nil => exact MergedAt.start base hw
  | cons key rest ih => exact MergedAt.step hw fun old new _ hnew => ih old (hw.of_field? hnew)

/-- the layout of a panel -/
def panelLayout : Json := .object [
  ("gap", .object [("top", .string "4"), ("bottom", .string "8")]),
  ("align", .string "center"),
  ("grid", .object [("rows", .bool true)])]

/-- an array takes the place of an object and an object that of a string; two keys are new -/
def panelOverlay : Json := .object [
  ("width", .null),
  ("grid", .array [.null]),
  ("align", .object [("x", .string "left")]),
  ("gap", .object [("left", .string "2"), ("bottom", .null)])]

theorem wellFormed_panelLayout : panelLayout.WellFormed := by
  simp [panelLayout, WellFormed, WellFormedFields, Keyed.Distinct, Keyed.keys]

theorem wellFormed_panelOverlay : panelOverlay.WellFormed := by
  simp [panelOverlay, WellFormed, WellFormedItems, WellFormedFields, Keyed.Distinct, Keyed.keys]

theorem merge_by_path_panel :
    panelOverlay.WellFormed ∧
      panelLayout.merge panelOverlay = .object [
        ("gap", .object [("top", .string "4"), ("bottom", .null), ("left", .string "2")]),
        ("align", .object [("x", .string "left")]),
        ("grid", .array [.null]),
        ("width", .null)] ∧
      ∀ path, MergedAt panelLayout panelOverlay (panelLayout.merge panelOverlay) path :=
  ⟨wellFormed_panelOverlay, by decide,
    fun path => merge_by_path panelLayout wellFormed_panelOverlay path⟩

end Graft.Json
