import Graft.Proofs.Entries
import Graft.Proofs.Normal
import Graft.Registry.Change

/-!
# What a registry remembers

Every change of a registry, whether it succeeds or fails in the middle, comes to a number of single
registrations.  The history of a registry is the list of them, as they were made; what the registry
answers can be read off its history by normalized ids.

* `Registry.Record`, `Change.records`   single registrations, and those that a change comes to;
* `Registry.apply_eq_records`           a change is its registrations, one after the other;
* `Registry.records_sound`              only safe ids are discovered;
* `Registry.History`                    organs, variants, discovered trees and labels by normalized ids;
* `Registry.Reflects`                   a registry holds what its history says;
* `Registry.reflects_record`, `Registry.reflects_run`   one registration and any number of changes;
* `Registry.queries_run`                the latest registration under an id is what is found.
-/

namespace Graft

open Node

namespace Registry

/-! ## single registrations -/

/-- one thing put into a registry, under ids and names as they were given -/
inductive Record where
  /-- a variant of a static organ -/
  | variant (organId variantId : String) (tree : Json)
  /-- a static organ, with or without variants -/
  | organ (organId : String)
  | discovered (name : String) (tree : Json)
  | label (organId label : String)
deriving DecidableEq, Repr

def record (r : Registry) : Record → Registry
  | .variant organId variantId tree => r.registerVariant organId variantId tree
  | .organ organId => r.putOrgan organId []
  | .discovered name tree => r.putDiscovered (discoveredId name) tree
  | .label organId label => r.setLabel organId label

/-- what is there before the first that is missing -/
def leading {α : Type} : List (Option α) → List α
  | some a :: rest => a :: leading rest
  | _ => []

/-- the variants of one organ of a bundle, if it is an object -/
def organRecords? : String × Json → Option (List Record)
  | (organId, .object variants) =>
    some (variants.map fun entry => .variant organId entry.1 entry.2)
  | _ => none

/-- the tree of one file, if it can be read -/
def fileRecord? (file : String × ByteArray) : Option Record :=
  (readTree file.2).toOption.map (.discovered file.1)

def hasSafeName (file : String × ByteArray) : Bool := isSafeId (discoveredId file.1)

/-- files with a safe id, up to the first that cannot be read -/
def fileRecords (files : List (String × ByteArray)) : List Record :=
  leading ((files.filter hasSafeName).map fileRecord?)

/-- the registrations that a change comes to; one that fails may come to some of them -/
def Change.records : Change → List Record
  | .registerVariant organId variantId tree => [.variant organId variantId tree]
  | .registerOrgan organ =>
    organ.label.toList.map (.label organ.id) ++
      .organ organ.id :: organ.variants.map fun entry => .variant organ.id entry.1 entry.2
  | .registerDiscovered name tree =>
    if isSafeId (discoveredId name) then [.discovered name tree] else []
  | .loadBundle (.object organs) => (leading (organs.map organRecords?)).flatten
  | .loadBundle _ => []
  | .discover (.listing entries) => fileRecords (jsonFiles entries)
  | .discover _ => []
  | .setLabel organId label => [.label organId label]

/-! ## changes as registrations -/

theorem putVariants_append (variants : Keyed Json) (trees more : List (String × Json)) :
    putVariants variants (trees ++ more) = putVariants (putVariants variants trees) more :=
  List.foldl_append

theorem putOrgan_putOrgan (r : Registry) (organId : String) (trees more : List (String × Json)) :
    (r.putOrgan organId trees).putOrgan organId more = r.putOrgan organId (trees ++ more) := by
  unfold putOrgan
  simp only [Keyed.update_update, Option.getD_some, putVariants_append]

/-- the variants of an organ may be registered one by one -/
theorem foldl_variant (r : Registry) (organId : String) (trees more : List (String × Json)) :
    (more.map fun entry => Record.variant organId entry.1 entry.2).foldl record
        (r.putOrgan organId trees) = r.putOrgan organId (trees ++ more) := by
  induction more generalizing trees with
  | nil => rw [List.append_nil, List.map_nil, List.foldl_nil]
  | cons entry more ih =>
    have hstep : (r.putOrgan organId trees).record (.variant organId entry.1 entry.2) =
        r.putOrgan organId (trees ++ [entry]) := r.putOrgan_putOrgan organId trees [entry]
    rw [List.map_cons, List.foldl_cons, hstep, ih, List.append_assoc, List.singleton_append]

theorem registerOrgan_eq_records (r : Registry) (organ : Organ) :
    r.registerOrgan organ = (Change.registerOrgan organ).records.foldl record r := by
  have hvariants : ∀ r : Registry,
      (Record.organ organ.id :: organ.variants.map fun entry =>
        .variant organ.id entry.1 entry.2).foldl record r = r.putOrgan organ.id organ.variants :=
    fun r => r.foldl_variant organ.id [] organ.variants
  unfold registerOrgan Change.records
  rw [List.foldl_append, hvariants]
  cases organ.label <;> rfl

theorem loadOrgans_eq_records (r : Registry) (organs : List (String × Json)) :
    (r.loadOrgans organs).1 = (leading (organs.map organRecords?)).flatten.foldl record r := by
  induction organs generalizing r with
  | nil => rfl
  | cons entry rest ih =>
    obtain ⟨organId, value⟩ := entry
    cases value with
    | object variants =>
      show (loadOrgans (r.registerVariants organId variants) rest).1 =
        ((variants.map fun entry => Record.variant organId entry.1 entry.2) ++
          (leading (rest.map organRecords?)).flatten).foldl record r
      rw [ih, List.foldl_append, List.foldl_map]
      rfl
    | _ => rfl

theorem registerFiles_eq_records (r : Registry) (count : Nat) (files : List (String × ByteArray)) :
    (r.registerFiles count files).1 = (fileRecords files).foldl record r := by
  induction files generalizing r count with
  | nil => rfl
  | cons file rest ih =>
    obtain ⟨name, bytes⟩ := file
    unfold fileRecords at ih ⊢
    by_cases hsafe : isSafeId (discoveredId name) = true
    · have hkeep : hasSafeName (name, bytes) = true := hsafe
      rw [registerFiles, if_pos hsafe, List.filter_cons_of_pos hkeep, List.map_cons]
      cases ht : readTree bytes with
      | ok tree =>
        have hfile : fileRecord? (name, bytes) = some (.discovered name tree) := by
          unfold fileRecord?
          rw [ht]
          rfl
        rw [hfile, leading, List.foldl_cons]
        exact ih _ _
      | error e =>
        have hfile : fileRecord? (name, bytes) = none := by
          unfold fileRecord?
          rw [ht]
          rfl
        rw [hfile]
        rfl
    · have hpass : ¬ hasSafeName (name, bytes) = true := hsafe
      rw [registerFiles, if_neg hsafe, List.filter_cons_of_neg hpass]
      exact ih r count

/-- a change is its registrations, one after the other -/
theorem apply_eq_records (r : Registry) (change : Change) :
    r.apply change = change.records.foldl record r := by
  cases change with
  | registerVariant organId variantId tree => rfl
  | registerOrgan organ => exact r.registerOrgan_eq_records organ
  | registerDiscovered name tree =>
    show (r.registerDiscovered name tree).1 = _
    unfold registerDiscovered Change.records
    by_cases hsafe : isSafeId (discoveredId name) = true
    · simp only [if_pos hsafe]
      rfl
    · simp only [if_neg hsafe]
      rfl
  | loadBundle bundle =>
    cases bundle with
    | object organs => exact r.loadOrgans_eq_records organs
    | _ => rfl
  | discover directory =>
    cases directory with
    | listing entries => exact r.registerFiles_eq_records 0 (jsonFiles entries)
    | _ => rfl
  | setLabel organId label => rfl

/-- a bundle that fails at its second organ has registered the first -/
example : (Change.loadBundle (.object [("Hero ", .object [("Wide", .null)]), ("faq", .null),
    ("cta", .object [("small", .null)])])).records = [.variant "Hero " "Wide" .null] := rfl

/-! ## safe ids -/

/-- what is discovered has a safe id -/
def Record.Sound : Record → Prop
  | .discovered name _ => isSafeId (discoveredId name) = true
  | _ => True

theorem mem_leading {α : Type} {a : α} {items : List (Option α)} (h : a ∈ leading items) :
    some a ∈ items := by
  induction items with
  | nil => exact absurd h List.not_mem_nil
  | cons item rest ih =>
    cases item with
    | none => exact absurd h List.not_mem_nil
    | some b =>
      rcases List.mem_cons.mp h with rfl | h
      · exact List.mem_cons_self
      · exact List.mem_cons_of_mem _ (ih h)

theorem variants_sound (organId : String) (variants : List (String × Json)) :
    ∀ e ∈ variants.map fun entry => Record.variant organId entry.1 entry.2, e.Sound := by
  intro e he
  obtain ⟨entry, _, rfl⟩ := List.mem_map.mp he
  trivial

theorem organRecords_sound {entry : String × Json} {records : List Record}
    (h : organRecords? entry = some records) : ∀ e ∈ records, e.Sound := by
  obtain ⟨organId, value⟩ := entry
  cases value with
  | object variants =>
    obtain rfl := Option.some.inj h
    exact variants_sound organId variants
  | _ => exact absurd h (Option.some_ne_none _).symm

theorem fileRecords_sound (files : List (String × ByteArray)) : ∀ e ∈ fileRecords files, e.Sound := by
  intro e he
  obtain ⟨file, hfile, hrecord⟩ := List.mem_map.mp (mem_leading he)
  obtain ⟨tree, _, rfl⟩ := Option.map_eq_some_iff.mp hrecord
  exact (List.mem_filter.mp hfile).2

/-- no change discovers anything under an unsafe id -/
theorem records_sound (change : Change) : ∀ e ∈ change.records, e.Sound := by
  intro e he
  cases change with
  | registerVariant organId variantId tree =>
    rw [List.mem_singleton.mp he]
    trivial
  | registerOrgan organ =>
    rcases List.mem_append.mp he with he | he
    · obtain ⟨text, _, rfl⟩ := List.mem_map.mp he
      trivial
    · rcases List.mem_cons.mp he with rfl | he
      · trivial
      · exact variants_sound organ.id organ.variants e he
  | registerDiscovered name tree =>
    rw [Change.records] at he
    by_cases hsafe : isSafeId (discoveredId name) = true
    · rw [if_pos hsafe] at he
      rw [List.mem_singleton.mp he]
      exact hsafe
    · rw [if_neg hsafe] at he
      exact absurd he List.not_mem_nil
  | loadBundle bundle =>
    cases bundle with
    | object organs =>
      obtain ⟨records, hrecords, he⟩ := List.mem_flatten.mp he
      obtain ⟨entry, _, hentry⟩ := List.mem_map.mp (mem_leading hrecords)
      exact organRecords_sound hentry e he
    | _ => exact absurd he List.not_mem_nil
  | discover directory =>
    cases directory with
    | listing entries => exact fileRecords_sound (jsonFiles entries) e he
    | _ => exact absurd he List.not_mem_nil
  | setLabel organId text =>
    rw [List.mem_singleton.mp he]
    trivial

/-! ## histories -/

namespace Record

/-- the static organ that is registered, normalized -/
def organ? : Record → Option String
  | .variant organId _ _ | .organ organId => some (normalizeId organId)
  | _ => none

/-- the tree of a variant of the organ `id`, under the normalized id of the variant -/
def variant? (id : String) : Record → Option (String × Json)
  | .variant organId variantId tree =>
    if normalizeId organId = id then some (normalizeId variantId, tree) else none
  | _ => none

/-- a discovered tree, under its organ -/
def discovered? : Record → Option (String × Json)
  | .discovered name tree => some (discoveredId name, tree)
  | _ => none

/-- a label, under the normalized id of its organ -/
def label? : Record → Option (String × String)
  | .label organId text => some (normalizeId organId, text)
  | _ => none

end Record

/-- all registrations, the latest last -/
abbrev History := List Record

namespace History

variable (h : History)

def organs : List String := h.filterMap Record.organ?

def variants (id : String) : List (String × Json) := h.filterMap (Record.variant? id)

def discovered : List (String × Json) := h.filterMap Record.discovered?

def labels : List (String × String) := h.filterMap Record.label?

/-- the latest tree of the variant, else of the default variant, else the latest discovered one -/
def lookup (organId variantId : String) : Option Json :=
  let id := normalizeId organId
  ((Keyed.last? (h.variants id) (normalizeId variantId)).or
    (Keyed.last? (h.variants id) defaultVariant)).or (Keyed.last? h.discovered id)

/-- the variants of a static organ as they first came; the default variant of one only discovered -/
def variantIds (organId : String) : List String :=
  let id := normalizeId organId
  if id ∈ h.organs then ((h.variants id).map Prod.fst).eraseDups
  else if id ∈ h.discovered.map Prod.fst then [defaultVariant] else []

/-- the latest label, else the id as given -/
def label (organId : String) : String := (Keyed.last? h.labels (normalizeId organId)).getD organId

variable {h}

/-- a variant is registered with its organ -/
theorem variants_eq_nil {id : String} (hid : id ∉ h.organs) : h.variants id = [] := by
  refine List.filterMap_eq_nil_iff.mpr fun e he => ?_
  cases e with
  | variant organId variantId tree =>
    refine if_neg fun hname => hid ?_
    rw [← hname]
    exact List.mem_filterMap.mpr ⟨_, he, rfl⟩
  | _ => rfl

theorem isSafeId_of_discovered (hsound : ∀ e ∈ h, e.Sound) {id : String}
    (hid : id ∈ h.discovered.map Prod.fst) : isSafeId id = true := by
  obtain ⟨entry, hentry, rfl⟩ := List.mem_map.mp hid
  obtain ⟨e, he, hrecord⟩ := List.mem_filterMap.mp hentry
  cases e with
  | discovered name tree =>
    obtain rfl := Option.some.inj hrecord
    exact hsound _ he
  | _ => exact absurd hrecord (Option.some_ne_none _).symm

end History

/-! ## a registry and its history -/

/-- the registry holds what was registered, the last under each id -/
structure Reflects (r : Registry) (h : History) : Prop where
  organs : Keyed.keys r.organs = h.organs.eraseDups
  variants : ∀ id variants, Keyed.get? r.organs id = some variants →
    variants = Keyed.ofList (h.variants id)
  discovered : r.discovered = Keyed.ofList h.discovered
  labels : r.labels = Keyed.ofList h.labels

namespace Reflects

variable {r : Registry} {h : History}

theorem empty : Reflects .empty [] :=
  ⟨rfl, fun _ _ hv => absurd hv (by simp [Registry.empty, Keyed.get?]), rfl, rfl⟩

theorem mem_organs (hr : r.Reflects h) {id : String} :
    id ∈ Keyed.keys r.organs ↔ id ∈ h.organs := by
  rw [hr.organs, List.mem_eraseDups]

/-- an organ that is not there has no variants in the history either -/
theorem getD_variants (hr : r.Reflects h) (id : String) :
    (Keyed.get? r.organs id).getD [] = Keyed.ofList (h.variants id) := by
  cases hv : Keyed.get? r.organs id with
  | some variants => exact hr.variants id variants hv
  | none =>
    rw [Keyed.get?_eq_none, hr.mem_organs] at hv
    rw [History.variants_eq_nil hv]
    rfl

/-- trees put under an organ, if `h'` adds the organ and its variants to `h` and nothing else -/
theorem putOrgan (hr : r.Reflects h) (organId : String) (trees : List (String × Json)) {h' : History}
    (horgans : h'.organs = h.organs ++ [normalizeId organId])
    (hvariants : ∀ id, h'.variants id = h.variants id ++
      if normalizeId organId = id then trees.map fun entry => (normalizeId entry.1, entry.2) else [])
    (hdiscovered : h'.discovered = h.discovered) (hlabels : h'.labels = h.labels) :
    (r.putOrgan organId trees).Reflects h' where
  organs := by
    rw [horgans]
    exact Keyed.keys_update_dups hr.organs _ _
  variants := fun id variants hv => by
    have hget : Keyed.get? (r.putOrgan organId trees).organs id =
        if normalizeId organId = id then
          some (putVariants ((Keyed.get? r.organs (normalizeId organId)).getD []) trees)
        else Keyed.get? r.organs id := Keyed.get?_update r.organs _ id _
    rw [hget] at hv
    rw [hvariants]
    by_cases hid : normalizeId organId = id
    · rw [if_pos hid, hr.getD_variants, hid] at hv
      rw [if_pos hid, Keyed.ofList_append, List.foldl_map, ← Option.some.inj hv]
      rfl
    · rw [if_neg hid] at hv
      rw [if_neg hid, List.append_nil]
      exact hr.variants id variants hv
  discovered := by
    rw [hdiscovered, discovered_putOrgan]
    exact hr.discovered
  labels := by
    rw [hlabels, labels_putOrgan]
    exact hr.labels

/-- a registry with the same static organs, if `h'` adds none to `h` -/
theorem beside (hr : r.Reflects h) {r' : Registry} {h' : History} (hsame : r'.organs = r.organs)
    (horgans : h'.organs = h.organs) (hvariants : ∀ id, h'.variants id = h.variants id)
    (hdiscovered : r'.discovered = Keyed.ofList h'.discovered)
    (hlabels : r'.labels = Keyed.ofList h'.labels) : r'.Reflects h' where
  organs := by
    rw [hsame, horgans]
    exact hr.organs
  variants := fun id variants hv => by
    rw [hsame] at hv
    rw [hvariants]
    exact hr.variants id variants hv
  discovered := hdiscovered
  labels := hlabels

end Reflects

theorem filterMap_of_some {α : Type} (f : Record → Option α) {e : Record} {a : α} (he : f e = some a)
    (h : History) : (h ++ [e]).filterMap f = h.filterMap f ++ [a] := by
  rw [List.filterMap_append, List.filterMap_cons_some he, List.filterMap_nil]

theorem filterMap_of_none {α : Type} {f : Record → Option α} {e : Record} (he : f e = none)
    (h : History) : (h ++ [e]).filterMap f = h.filterMap f := by
  rw [List.filterMap_append, List.filterMap_cons_none he, List.filterMap_nil, List.append_nil]

/-- one registration more in the registry and in the history -/
theorem reflects_record {r : Registry} {h : History} (hr : r.Reflects h) (e : Record) :
    (r.record e).Reflects (h ++ [e]) := by
  cases e with
  | variant organId variantId tree =>
    refine hr.putOrgan organId [(variantId, tree)] (filterMap_of_some Record.organ? rfl h) (fun id => ?_)
      (filterMap_of_none rfl h) (filterMap_of_none rfl h)
    by_cases hid : normalizeId organId = id
    · have hrecord : Record.variant? id (.variant organId variantId tree) =
          some (normalizeId variantId, tree) := if_pos hid
      rw [if_pos hid]
      exact filterMap_of_some (Record.variant? id) hrecord h
    · have hrecord : Record.variant? id (.variant organId variantId tree) = none := if_neg hid
      rw [if_neg hid, List.append_nil]
      exact filterMap_of_none hrecord h
  | organ organId =>
    refine hr.putOrgan organId [] (filterMap_of_some Record.organ? rfl h) (fun id => ?_)
      (filterMap_of_none rfl h) (filterMap_of_none rfl h)
    rw [List.map_nil, ite_self, List.append_nil]
    exact filterMap_of_none rfl h
  | discovered name tree =>
    refine hr.beside rfl (filterMap_of_none rfl h) (fun id => filterMap_of_none rfl h) ?_ ?_
    · have hlist : History.discovered (h ++ [.discovered name tree]) =
          h.discovered ++ [(discoveredId name, tree)] := filterMap_of_some Record.discovered? rfl h
      rw [hlist, Keyed.ofList_concat, ← hr.discovered]
      rfl
    · exact hr.labels.trans (congrArg Keyed.ofList (filterMap_of_none rfl h).symm)
  | label organId text =>
    refine hr.beside rfl (filterMap_of_none rfl h) (fun id => filterMap_of_none rfl h) ?_ ?_
    · exact hr.discovered.trans (congrArg Keyed.ofList (filterMap_of_none rfl h).symm)
    · have hlist : History.labels (h ++ [.label organId text]) =
          h.labels ++ [(normalizeId organId, text)] := filterMap_of_some Record.label? rfl h
      rw [hlist, Keyed.ofList_concat, ← hr.labels]
      rfl

theorem reflects_records {r : Registry} {h : History} (hr : r.Reflects h) (es : List Record) :
    (es.foldl record r).Reflects (h ++ es) := by
  induction es generalizing r h with
  | nil =>
    rw [List.append_nil]
    exact hr
  | cons e es ih =>
    rw [List.foldl_cons, ← List.singleton_append, ← List.append_assoc]
    exact ih (reflects_record hr e)

/-! ## runs -/

/-- the registries that a run may start from -/
inductive Start where
  | empty
  | labelled
deriving DecidableEq, Repr

def Start.registry : Start → Registry
  | .empty => .empty
  | .labelled => withDefaultLabels

def Start.records : Start → List Record
  | .empty => []
  | .labelled => defaultLabels.map fun entry => .label entry.1 entry.2

/-- what has been registered after the changes -/
def history (start : Start) (changes : List Change) : History :=
  start.records ++ changes.flatMap Change.records

theorem reflects_start (start : Start) : start.registry.Reflects start.records := by
  cases start with
  | empty => exact .empty
  | labelled =>
    have h := reflects_records .empty Start.labelled.records
    rw [Start.records, List.foldl_map] at h
    exact h

theorem reflects_changes {r : Registry} {h : History} (hr : r.Reflects h) (changes : List Change) :
    (r.run changes).Reflects (h ++ changes.flatMap Change.records) := by
  induction changes generalizing r h with
  | nil =>
    rw [List.flatMap_nil, List.append_nil]
    exact hr
  | cons change changes ih =>
    rw [run_cons, apply_eq_records, List.flatMap_cons, ← List.append_assoc]
    exact ih (reflects_records hr change.records)

theorem reflects_run (start : Start) (changes : List Change) :
    (start.registry.run changes).Reflects (history start changes) :=
  reflects_changes (reflects_start start) changes

theorem history_sound (start : Start) (changes : List Change) :
    ∀ e ∈ history start changes, e.Sound := by
  intro e he
  rcases List.mem_append.mp he with he | he
  · cases start with
    | empty => exact absurd he List.not_mem_nil
    | labelled =>
      obtain ⟨entry, _, rfl⟩ := List.mem_map.mp he
      trivial
  · obtain ⟨change, _, he⟩ := List.mem_flatMap.mp he
    exact records_sound change e he

/-! ## queries -/

namespace Reflects

variable {r : Registry} {h : History}

theorem staticTree? (hr : r.Reflects h) (key : VariantKey) :
    r.staticTree? key = (Keyed.last? (h.variants key.organ) key.variant).or
      (Keyed.last? (h.variants key.organ) defaultVariant) := by
  rw [← Keyed.get?_ofList, ← Keyed.get?_ofList, ← hr.getD_variants]
  unfold Registry.staticTree?
  cases Keyed.get? r.organs key.organ <;> rfl

theorem discoveredTree? (hr : r.Reflects h) (hsound : ∀ e ∈ h, e.Sound) (id : String) :
    r.discoveredTree? id = Keyed.last? h.discovered id := by
  rw [Registry.discoveredTree?, hr.discovered, Keyed.get?_ofList]
  by_cases hsafe : isSafeId id = true
  · rw [if_pos hsafe]
  · rw [if_neg hsafe, eq_comm, ← Keyed.get?_ofList, Keyed.get?_eq_none, Keyed.mem_keys_ofList]
    exact fun hid => hsafe (History.isSafeId_of_discovered hsound hid)

theorem lookup (hr : r.Reflects h) (hsound : ∀ e ∈ h, e.Sound) (organId variantId : String) :
    r.lookup organId variantId = h.lookup organId variantId := by
  show (r.staticTree? (VariantKey.of organId variantId)).or (r.discoveredTree? _) = _
  rw [hr.staticTree?, hr.discoveredTree? hsound]
  rfl

theorem contains_discovered (hr : r.Reflects h) (id : String) :
    Keyed.contains r.discovered id = true ↔ id ∈ h.discovered.map Prod.fst := by
  rw [Keyed.contains_iff, hr.discovered, Keyed.mem_keys_ofList]

theorem variantIds (hr : r.Reflects h) (organId : String) :
    r.variantIds organId = h.variantIds organId := by
  unfold Registry.variantIds History.variantIds
  cases hv : Keyed.get? r.organs (normalizeId organId) with
  | some variants =>
    have hid : normalizeId organId ∈ h.organs := by
      rw [← hr.mem_organs, ← Keyed.isSome_get?, hv]
      rfl
    simp only [hv, if_pos hid]
    rw [hr.variants _ variants hv, Keyed.keys_ofList]
  | none =>
    have hid : normalizeId organId ∉ h.organs := by
      rw [← hr.mem_organs, ← Keyed.get?_eq_none, hv]
    simp only [hv, if_neg hid, hr.contains_discovered]

theorem label (hr : r.Reflects h) (organId : String) : r.label organId = h.label organId := by
  rw [Registry.label, hr.labels, Keyed.get?_ofList]
  rfl

end Reflects

/-- **A registry answers from its history.**  After any changes, also failing ones, the latest
registration under the normalized ids is what is found: the variant asked for, else the default
variant, else what was discovered. -/
theorem queries_run (start : Start) (changes : List Change) (organId variantId : String) :
    (start.registry.run changes).lookup organId variantId =
        (history start changes).lookup organId variantId ∧
      (start.registry.run changes).variantIds organId =
        (history start changes).variantIds organId ∧
      (start.registry.run changes).label organId = (history start changes).label organId :=
  have hr := reflects_run start changes
  ⟨hr.lookup (history_sound start changes) organId variantId, hr.variantIds organId,
    hr.label organId⟩

end Registry

end Graft
