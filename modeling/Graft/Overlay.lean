import Graft.Json.Merge
import Graft.Node

/-!
# A placeholder over a variant

The tree that replaces a placeholder is the variant's, changed at the root only.

* `Placeholder.graft`   the placeholder's `layout`, `params` and `content`, where it has them, are laid
                        over the tree's; an id that is not `null` takes the place of the tree's;
* `stampLayoutId`       records the variant in `params`.
-/

namespace Graft

open Node

namespace Placeholder

/-- the placeholder's field under `key`, if it has one, is laid over the tree's -/
def overlay (p : Placeholder) (tree : Keyed Json) (key : String) : Keyed Json :=
  match p.field? key with
  | some value => Keyed.update tree key (Json.mergeInto value)
  | none => tree

/-- an id that is not `null` takes the place of the tree's -/
def keepId (p : Placeholder) (tree : Keyed Json) : Keyed Json :=
  match p.field? idKey with
  | none | some .null => tree
  | some id => Keyed.insert tree idKey id

/-- the fields that a variant's tree gets in the place of `p` -/
def graft (p : Placeholder) (tree : Keyed Json) : Keyed Json :=
  p.keepId (overrideKeys.foldl p.overlay tree)

end Placeholder

/-! ## the stamp -/

/-- records the variant in `params`, which becomes an object if it is none -/
def stampLayoutId (variantId : String) (tree : Keyed Json) : Keyed Json :=
  Keyed.update tree paramsKey fun
    | some (.object params) => .object (Keyed.insert params layoutIdKey (.string variantId))
    | _ => .object [(layoutIdKey, .string variantId)]

/-! ## small laws -/

namespace Placeholder

theorem get?_overlay (p : Placeholder) (tree : Keyed Json) (key k : String) :
    Keyed.get? (p.overlay tree key) k =
      if key = k then
        match p.field? key with
        | some value => some (Json.mergeInto value (Keyed.get? tree key))
        | none => Keyed.get? tree key
      else Keyed.get? tree k := by
  unfold overlay
  cases h : p.field? key with
  | none =>
    by_cases hk : key = k
    · rw [if_pos hk, hk]
    · rw [if_neg hk]
  | some value => rw [Keyed.get?_update]

theorem get?_keepId (p : Placeholder) (tree : Keyed Json) (k : String) (hk : k ≠ idKey) :
    Keyed.get? (p.keepId tree) k = Keyed.get? tree k := by
  unfold keepId
  split
  · rfl
  · rfl
  · rw [Keyed.get?_insert, if_neg (Ne.symm hk)]

/-- a graft looks at four fields of the placeholder -/
theorem graft_congr {p q : Placeholder} (tree : Keyed Json)
    (h : ∀ key ∈ idKey :: overrideKeys, p.field? key = q.field? key) :
    p.graft tree = q.graft tree := by
  have hfold : ∀ (keys : List String) (tree : Keyed Json), keys ⊆ overrideKeys →
      keys.foldl p.overlay tree = keys.foldl q.overlay tree := by
    intro keys
    induction keys with
    | nil => exact fun _ _ => rfl
    | cons key rest ih =>
      intro tree hkeys
      have hkey : p.overlay tree key = q.overlay tree key := by
        unfold overlay
        rw [h key (List.mem_cons_of_mem _ (hkeys List.mem_cons_self))]
      rw [List.foldl_cons, List.foldl_cons, hkey]
      exact ih _ fun k hk => hkeys (List.mem_cons_of_mem _ hk)
  unfold graft keepId
  rw [hfold _ _ (List.Subset.refl _), h idKey List.mem_cons_self]

end Placeholder

theorem get?_stampLayoutId (variantId : String) (tree : Keyed Json) (k : String)
    (hk : k ≠ paramsKey) : Keyed.get? (stampLayoutId variantId tree) k = Keyed.get? tree k := by
  unfold stampLayoutId
  rw [Keyed.get?_update, if_neg (Ne.symm hk)]

theorem isOrgan_stampLayoutId (variantId : String) (tree : Keyed Json) :
    isOrgan (stampLayoutId variantId tree) = isOrgan tree := by
  unfold isOrgan
  rw [get?_stampLayoutId variantId tree typeKey (by decide)]

end Graft
