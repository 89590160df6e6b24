/-!
# Keyed lists

A keyed list holds values under string keys, in the order in which the keys first came.  The fields
of an object, the variants of an organ and a table of overrides are keyed lists.

* `get? m key`           the value under `key`;
* `update m key f`       puts `f` of what `key` holds: an old key keeps its place, a new one goes last;
* `insert m key value`   puts `value`, whatever was there;
* `insertNew m key value`  puts `value` only under a new key;
* `erase m key`          drops `key` and keeps the order of the rest;
* `ofList entries`       inserts the entries one after the other.

`get?_update` and `get?_erase` say what a key holds afterwards, `keys_update_of_mem` and
`keys_update_of_not_mem` what becomes of the order.  `Distinct m` says that no key comes twice, and
every operation keeps it.
-/

namespace Graft

universe u v

/-- values under string keys, in the order of their keys' first arrival -/
abbrev Keyed (α : Type u) : Type u := List (String × α)

namespace Keyed

variable {α : Type u} {β : Type v}

/-! ## the view -/

/-- the keys, in order -/
def keys (m : Keyed α) : List String := m.map Prod.fst

/-- the value of the first entry under `key` -/
def get? : Keyed α → String → Option α
  | [], _ => none
  | (k, value) :: rest, key => if k = key then some value else get? rest key

def contains (m : Keyed α) (key : String) : Bool := (get? m key).isSome

/-- no key comes twice -/
def Distinct (m : Keyed α) : Prop := (keys m).Nodup

instance (m : Keyed α) : Decidable (Distinct m) := inferInstanceAs (Decidable (keys m).Nodup)

/-! ## operations -/

/-- puts `f` of what `key` holds; an old key keeps its place, a new key goes last -/
def update : Keyed α → String → (Option α → α) → Keyed α
  | [], key, f => [(key, f none)]
  | (k, value) :: rest, key, f =>
    if k = key then (k, f (some value)) :: rest else (k, value) :: update rest key f

def insert (m : Keyed α) (key : String) (value : α) : Keyed α := update m key fun _ => value

/-- an old key keeps its value as well as its place -/
def insertNew (m : Keyed α) (key : String) (value : α) : Keyed α :=
  update m key fun old => old.getD value

/-- drops every entry under `key` -/
def erase : Keyed α → String → Keyed α
  | [], _ => []
  | (k, value) :: rest, key => if k = key then erase rest key else (k, value) :: erase rest key

/-- a repeated key keeps its first place and its last value -/
def ofList (entries : List (String × α)) : Keyed α :=
  entries.foldl (fun m entry => insert m entry.1 entry.2) []

/-- the same values under the same keys, in any order -/
def sameEntries [BEq α] (m n : Keyed α) : Bool :=
  m.length == n.length && m.all fun entry => get? n entry.1 == some entry.2

/-! ## keys -/

theorem keys_cons (entry : String × α) (m : Keyed α) : keys (entry :: m) = entry.1 :: keys m := rfl

theorem keys_append (m n : Keyed α) : keys (m ++ n) = keys m ++ keys n := List.map_append

theorem isSome_get? (m : Keyed α) (key : String) : (get? m key).isSome ↔ key ∈ keys m := by
  induction m with
  | nil => simp [get?, keys]
  | cons entry rest ih =>
    obtain ⟨k, value⟩ := entry
    by_cases h : k = key
    · simp [get?, keys_cons, h]
    · simp [get?, keys_cons, h, ih, Ne.symm h]

theorem get?_eq_none (m : Keyed α) (key : String) : get? m key = none ↔ key ∉ keys m := by
  rw [← isSome_get?]
  cases get? m key <;> simp

theorem contains_iff (m : Keyed α) (key : String) : contains m key = true ↔ key ∈ keys m :=
  isSome_get? m key

theorem keys_update_of_mem (m : Keyed α) (key : String) (f : Option α → α) (h : key ∈ keys m) :
    keys (update m key f) = keys m := by
  induction m with
  | nil => exact absurd h (by simp [keys])
  | cons entry rest ih =>
    obtain ⟨k, value⟩ := entry
    by_cases hk : k = key
    · simp [update, hk, keys_cons]
    · have h' : key ∈ keys rest := by
        rw [keys_cons] at h
        exact (List.mem_cons.mp h).resolve_left (fun e => hk e.symm)
      simp only [update, if_neg hk, keys_cons, ih h']

theorem keys_update_of_not_mem (m : Keyed α) (key : String) (f : Option α → α) (h : key ∉ keys m) :
    keys (update m key f) = keys m ++ [key] := by
  induction m with
  | nil => rfl
  | cons entry rest ih =>
    obtain ⟨k, value⟩ := entry
    rw [keys_cons, List.mem_cons, not_or] at h
    simp only [update, if_neg (Ne.symm h.1), keys_cons, ih h.2, List.cons_append]

/-! ## what a key holds -/

theorem get?_update (m : Keyed α) (key k : String) (f : Option α → α) :
    get? (update m key f) k = if key = k then some (f (get? m key)) else get? m k := by
  induction m with
  | nil => rfl
  | cons entry rest ih =>
    obtain ⟨k', value⟩ := entry
    by_cases h : k' = key
    · by_cases hk : key = k
      · simp [update, get?, h, hk]
      · simp [update, get?, h, hk]
    · by_cases hk : k' = k
      · subst hk
        simp [update, get?, h, Ne.symm h]
      · simp [update, get?, h, hk, ih]

theorem get?_insert (m : Keyed α) (key k : String) (value : α) :
    get? (insert m key value) k = if key = k then some value else get? m k :=
  get?_update m key k _

/-- an update that gives back what is there changes nothing -/
theorem update_of_get? {m : Keyed α} {key : String} {value : α} {f : Option α → α}
    (h : get? m key = some value) (hf : f (some value) = value) : update m key f = m := by
  induction m with
  | nil => exact nomatch h
  | cons entry rest ih =>
    obtain ⟨k, old⟩ := entry
    by_cases hk : k = key
    · rw [get?, if_pos hk] at h
      rw [update, if_pos hk, Option.some.inj h, hf]
    · rw [get?, if_neg hk] at h
      rw [update, if_neg hk, ih h]

/-- what is there already may be put again -/
theorem insert_of_get? {m : Keyed α} {key : String} {value : α} (h : get? m key = some value) :
    insert m key value = m := update_of_get? h rfl

/-- what is put last stays -/
theorem insert_insert (m : Keyed α) (key : String) (first last : α) :
    insert (insert m key first) key last = insert m key last := by
  unfold insert
  induction m with
  | nil => simp only [update, if_pos]
  | cons entry rest ih =>
    obtain ⟨k, old⟩ := entry
    by_cases hk : k = key
    · simp only [update, if_pos hk]
    · simp only [update, if_neg hk, ih]

theorem get?_append (m n : Keyed α) (key : String) :
    get? (m ++ n) key = (get? m key).or (get? n key) := by
  induction m with
  | nil => simp [get?]
  | cons entry rest ih =>
    obtain ⟨k, value⟩ := entry
    by_cases h : k = key <;> simp [get?, h, ih]

theorem get?_erase (m : Keyed α) (key k : String) :
    get? (erase m key) k = if key = k then none else get? m k := by
  induction m with
  | nil => simp [erase, get?]
  | cons entry rest ih =>
    obtain ⟨k', value⟩ := entry
    by_cases h : k' = key
    · subst h
      by_cases hk : k' = k
      · rw [if_pos hk] at ih ⊢
        simp [erase, ih]
      · rw [if_neg hk] at ih ⊢
        simp [erase, get?, hk, ih]
    · by_cases hk : k' = k
      · subst hk
        simp [erase, get?, h, Ne.symm h]
      · simp [erase, get?, h, hk, ih]

theorem erase_sublist (m : Keyed α) (key : String) : (erase m key).Sublist m := by
  induction m with
  | nil => exact List.Sublist.refl _
  | cons entry rest ih =>
    obtain ⟨k, value⟩ := entry
    by_cases h : k = key
    · simpa [erase, h] using ih.cons (key, value)
    · simpa [erase, h] using ih

theorem mem_of_get? {m : Keyed α} {key : String} {value : α} (h : get? m key = some value) :
    (key, value) ∈ m := by
  induction m with
  | nil => exact absurd h (by simp [get?])
  | cons entry rest ih =>
    obtain ⟨k, v⟩ := entry
    by_cases hk : k = key
    · simp [get?, hk] at h
      simp [hk, h]
    · simp only [get?, if_neg hk] at h
      exact List.mem_cons_of_mem _ (ih h)

/-! ## distinct keys -/

theorem distinct_nil : Distinct ([] : Keyed α) := List.nodup_nil

theorem distinct_update (m : Keyed α) (key : String) (f : Option α → α) (h : Distinct m) :
    Distinct (update m key f) := by
  unfold Distinct
  by_cases hk : key ∈ keys m
  · rw [keys_update_of_mem m key f hk]
    exact h
  · rw [keys_update_of_not_mem m key f hk, List.nodup_append]
    refine ⟨h, by simp, fun a ha b hb => ?_⟩
    rw [List.mem_singleton.mp hb]
    exact fun e => hk (e ▸ ha)

theorem distinct_erase (m : Keyed α) (key : String) (h : Distinct m) : Distinct (erase m key) :=
  List.Nodup.sublist ((erase_sublist m key).map Prod.fst) h

theorem distinct_ofList (entries : List (String × α)) : Distinct (ofList entries) := by
  have step : ∀ (entries : List (String × α)) (m : Keyed α), Distinct m →
      Distinct (entries.foldl (fun m entry => insert m entry.1 entry.2) m) := by
    intro entries
    induction entries with
    | nil => exact fun _ h => h
    | cons entry rest ih => exact fun m h => ih _ (distinct_update m entry.1 _ h)
  exact step entries [] distinct_nil

/-- a key that comes once holds the value it comes with -/
theorem get?_of_mem {m : Keyed α} (hm : Distinct m) {key : String} {value : α}
    (h : (key, value) ∈ m) : get? m key = some value := by
  induction m with
  | nil => exact absurd h List.not_mem_nil
  | cons entry rest ih =>
    obtain ⟨k, first⟩ := entry
    have hnodup : k ∉ keys rest ∧ Distinct rest := List.nodup_cons.mp hm
    rcases List.mem_cons.mp h with heq | hrest
    · rw [Prod.mk.injEq] at heq
      rw [get?, if_pos heq.1.symm, heq.2]
    · have hkey : key ∈ keys rest := List.mem_map_of_mem hrest
      have hne : k ≠ key := fun e => hnodup.1 (e ▸ hkey)
      rw [get?, if_neg hne]
      exact ih hnodup.2 hrest

end Keyed

end Graft
