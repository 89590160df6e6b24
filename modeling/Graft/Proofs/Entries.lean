import Graft.Keyed
import Mathlib.Data.List.Induction
import Mathlib.Data.List.Nodup

/-!
# Entries put one after the other

A keyed list that is filled entry by entry holds, under every key, the value of the last entry with
that key, and its keys stand in the order of their first entries.

* `Keyed.update_update`     two updates under one key are one;
* `Keyed.last?`             the value of the last entry under a key;
* `Keyed.get?_ofList`       what a filled list holds;
* `eraseDups_concat`        one more id, which counts if it is new;
* `nodup_eraseDups`         so that no id comes twice;
* `eraseDups_sublist`, `length_eraseDups_eq`   and fewer are left, unless none came twice;
* `Keyed.keys_update_dups`, `Keyed.keys_foldl_update`   the keys after one update and after all of them;
* `Keyed.get?_foldl_insert`, `Keyed.keys_foldl_insert`   entries that are put into a list that has some.
-/

namespace Graft

/-- one more id goes last, unless it is there -/
theorem eraseDups_concat (ids : List String) (id : String) :
    (ids ++ [id]).eraseDups = if id ∈ ids then ids.eraseDups else ids.eraseDups ++ [id] := by
  rw [List.eraseDups_append]
  by_cases h : id ∈ ids
  · rw [if_pos h]
    simp [List.removeAll, h]
  · rw [if_neg h]
    simp [List.removeAll, List.eraseDups_cons, h]

theorem nodup_eraseDups (ids : List String) : ids.eraseDups.Nodup := by
  induction ids using List.reverseRecOn with
  | nil => exact List.nodup_nil
  | append_singleton ids id ih =>
    rw [eraseDups_concat]
    by_cases h : id ∈ ids
    · rw [if_pos h]
      exact ih
    · rw [if_neg h]
      refine List.nodup_append.mpr ⟨ih, List.nodup_singleton id, fun a ha b hb hab => h ?_⟩
      rw [← List.mem_singleton.mp hb, ← hab]
      exact List.mem_eraseDups.mp ha

/-- the first of every id is kept -/
theorem eraseDups_sublist (ids : List String) : ids.eraseDups.Sublist ids := by
  induction ids using List.reverseRecOn with
  | nil => exact List.Sublist.refl []
  | append_singleton ids id ih =>
    rw [eraseDups_concat]
    by_cases h : id ∈ ids
    · rw [if_pos h]
      exact ih.trans (List.sublist_append_left ids [id])
    · rw [if_neg h]
      exact ih.append_right [id]

theorem length_eraseDups_eq (ids : List String) :
    ids.eraseDups.length = ids.length ↔ ids.Nodup := by
  constructor
  · intro h
    rw [← (eraseDups_sublist ids).eq_of_length h]
    exact nodup_eraseDups ids
  · intro h
    have hmem : ∀ id, id ∈ ids.eraseDups ↔ id ∈ ids := fun id => List.mem_eraseDups
    exact ((List.perm_ext_iff_of_nodup (nodup_eraseDups ids) h).mpr hmem).length_eq

namespace Keyed

universe u

variable {α : Type u}

theorem update_update (m : Keyed α) (key : String) (f g : Option α → α) :
    update (update m key f) key g = update m key fun old => g (some (f old)) := by
  induction m with
  | nil => simp only [update, if_pos]
  | cons entry rest ih =>
    obtain ⟨k, old⟩ := entry
    by_cases hk : k = key
    · simp only [update, if_pos hk]
    · simp only [update, if_neg hk, ih]

theorem ofList_append (entries more : List (String × α)) :
    ofList (entries ++ more) =
      more.foldl (fun m entry => insert m entry.1 entry.2) (ofList entries) :=
  List.foldl_append

theorem ofList_concat (entries : List (String × α)) (entry : String × α) :
    ofList (entries ++ [entry]) = insert (ofList entries) entry.1 entry.2 :=
  ofList_append entries [entry]

/-! ## values -/

/-- the value of the last entry under `key` -/
def last? (entries : List (String × α)) (key : String) : Option α :=
  (entries.filter fun entry => entry.1 = key).getLast?.map Prod.snd

theorem last?_concat (entries : List (String × α)) (entry : String × α) (key : String) :
    last? (entries ++ [entry]) key = if entry.1 = key then some entry.2 else last? entries key := by
  unfold last?
  rw [List.filter_append]
  by_cases h : entry.1 = key
  · simp [h]
  · simp [h]

/-- the last entry under a key wins -/
theorem get?_ofList (entries : List (String × α)) (key : String) :
    get? (ofList entries) key = last? entries key := by
  induction entries using List.reverseRecOn with
  | nil => rfl
  | append_singleton entries entry ih => rw [ofList_concat, get?_insert, last?_concat, ih]

/-- the entries that are put come before what is there -/
theorem get?_foldl_insert (m : Keyed α) (entries : List (String × α)) (key : String) :
    get? (entries.foldl (fun m entry => insert m entry.1 entry.2) m) key =
      (get? (ofList entries) key).or (get? m key) := by
  induction entries using List.reverseRecOn with
  | nil => rfl
  | append_singleton entries entry ih =>
    rw [List.foldl_append, List.foldl_cons, List.foldl_nil, ofList_concat, get?_insert, get?_insert,
      ih]
    by_cases h : entry.1 = key
    · rw [if_pos h, if_pos h, Option.some_or]
    · rw [if_neg h, if_neg h]

theorem mem_of_last? {entries : List (String × α)} {key : String} {value : α}
    (h : last? entries key = some value) : (key, value) ∈ entries := by
  obtain ⟨⟨k, _⟩, hlast, rfl⟩ := Option.map_eq_some_iff.mp h
  obtain ⟨hmem, hkey⟩ := List.mem_filter.mp (List.mem_of_getLast? hlast)
  rwa [← of_decide_eq_true hkey]

/-! ## keys -/

theorem keys_update_dups {m : Keyed α} {ids : List String} (h : keys m = ids.eraseDups)
    (key : String) (f : Option α → α) : keys (update m key f) = (ids ++ [key]).eraseDups := by
  have hmem : key ∈ keys m ↔ key ∈ ids := by rw [h, List.mem_eraseDups]
  rw [eraseDups_concat]
  by_cases hk : key ∈ ids
  · rw [if_pos hk, keys_update_of_mem m key f (hmem.mpr hk), h]
  · rw [if_neg hk, keys_update_of_not_mem m key f (fun he => hk (hmem.mp he)), h]

/-- every key once, in the order of the first entries, whatever the entries are put by -/
theorem keys_foldl_update (entries : List (String × α)) (f : String × α → Option α → α) :
    keys (entries.foldl (fun m entry => update m entry.1 (f entry)) []) =
      (entries.map Prod.fst).eraseDups := by
  induction entries using List.reverseRecOn with
  | nil => rfl
  | append_singleton entries entry ih =>
    rw [List.foldl_append, List.map_append]
    exact keys_update_dups ih entry.1 _

theorem keys_ofList (entries : List (String × α)) :
    keys (ofList entries) = (entries.map Prod.fst).eraseDups :=
  keys_foldl_update entries fun entry _ => entry.2

theorem mem_keys_ofList {entries : List (String × α)} {key : String} :
    key ∈ keys (ofList entries) ↔ key ∈ entries.map Prod.fst := by
  rw [keys_ofList, List.mem_eraseDups]

/-- new keys go last, each once -/
theorem keys_foldl_insert (m : Keyed α) (entries : List (String × α)) :
    keys (entries.foldl (fun m entry => insert m entry.1 entry.2) m) =
      keys m ++ (keys (ofList entries)).filter fun key => !contains m key := by
  induction entries using List.reverseRecOn with
  | nil => exact (List.append_nil (keys m)).symm
  | append_singleton entries entry ih =>
    have hthere : entry.1 ∈ keys (entries.foldl (fun m entry => insert m entry.1 entry.2) m) ↔
        entry.1 ∈ keys m ∨ entry.1 ∈ keys (ofList entries) := by
      rw [ih, List.mem_append, List.mem_filter, Bool.not_eq_true', ← Bool.not_eq_true, contains_iff]
      tauto
    rw [List.foldl_append, List.foldl_cons, List.foldl_nil, ofList_concat]
    unfold insert at hthere ⊢
    by_cases hput : entry.1 ∈ keys (ofList entries)
    · rw [keys_update_of_mem _ _ _ (hthere.mpr (.inr hput)), keys_update_of_mem _ _ _ hput]
      exact ih
    rw [keys_update_of_not_mem (ofList entries) _ _ hput, List.filter_append, ← List.append_assoc]
    by_cases hold : entry.1 ∈ keys m
    · have hcontains : contains m entry.1 = true := (contains_iff m entry.1).mpr hold
      rw [keys_update_of_mem _ _ _ (hthere.mpr (.inl hold)),
        List.filter_cons_of_neg (by rw [hcontains]; decide), List.filter_nil, List.append_nil]
      exact ih
    · have hcontains : contains m entry.1 = false :=
        Bool.eq_false_iff.mpr fun h => hold ((contains_iff m entry.1).mp h)
      rw [keys_update_of_not_mem _ _ _ fun h => (hthere.mp h).elim hold hput,
        List.filter_cons_of_pos (by rw [hcontains]; decide), List.filter_nil]
      exact congrArg (· ++ [entry.1]) ih

end Keyed

end Graft
