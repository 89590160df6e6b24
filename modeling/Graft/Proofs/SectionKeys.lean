import Graft.Proofs.Agreement
import Graft.Proofs.Sections

/-!
# Whom a section key stands for

The keys that are assigned stand in one name space with the ids that sections have of their own.  Keys of
two positions are never the same.  So there is one way only in which distinct ids become ambiguous: a
section without an id stands at the position whose key another section has for its id already.

An override is looked up by instance key and by organ.  Where the ids are distinct, an override under the
id of a section chooses for this section, and it changes what another section gets only if that one asks
for an organ of this name.

* `IdAt`                     the id of the section at a position;
* `DistinctIds`              no two sections have the same id;
* `DistinctIds.eq_of_idAt`   then a string is the id of one section at most;
* `idAt_assignSectionKeys`   with keys assigned, an id is an old one or the key of its position;
* `KeysFree`                 no section has the key that another will be given;
* `distinctIds_assign_iff`   what it takes for the ids to be distinct then;
* `ChoosesFor`               an override that is for the section at a position;
* `section_keys_identify`    distinct ids tell sections apart, and overrides with them.
-/

namespace Graft

open Node

/-! ## ids by position -/

/-- the section at `i` is an object whose id is `id`, which is not `null` -/
def IdAt (sections : List Json) (i : Nat) (id : Json) : Prop :=
  ∃ node, sections[i]? = some node ∧ node.HasId id

/-- the section at `i` is an object without an id -/
def LacksIdAt (sections : List Json) (i : Nat) : Prop :=
  ∃ fields, sections[i]? = some (.object fields) ∧ lacksId fields = true

/-- the ids that sections have, in order -/
def sectionIds (sections : List Json) : List Json :=
  sections.filterMap fun node => (node.field? idKey).filter fun id => id ≠ .null

/-- no two sections have the same id -/
def DistinctIds (sections : List Json) : Prop :=
  (sectionIds sections).Pairwise fun id id' => id.same id' = false

instance (sections : List Json) : Decidable (DistinctIds sections) :=
  inferInstanceAs (Decidable (List.Pairwise _ _))

theorem distinctIds_iff {sections : List Json} :
    DistinctIds sections ↔
      ∀ i j id id', i < j → IdAt sections i id → IdAt sections j id' → id.same id' = false := by
  have hid : ∀ {node id : Json},
      (node.field? idKey).filter (fun id => id ≠ .null) = some id ↔ node.HasId id := by
    intro node id
    rw [Option.filter_eq_some_iff, decide_eq_true_eq]
    rfl
  unfold DistinctIds sectionIds
  rw [List.pairwise_filterMap, List.pairwise_iff_getElem]
  constructor
  · rintro h i j id id' hij ⟨node, hn, hnode⟩ ⟨node', hn', hnode'⟩
    obtain ⟨hi, rfl⟩ := List.getElem?_eq_some_iff.mp hn
    obtain ⟨hj, rfl⟩ := List.getElem?_eq_some_iff.mp hn'
    exact h i j hi hj hij id (hid.mpr hnode) id' (hid.mpr hnode')
  · intro h i j hi hj hij id hnode id' hnode'
    exact h i j id id' hij ⟨_, List.getElem?_eq_getElem hi, hid.mp hnode⟩
      ⟨_, List.getElem?_eq_getElem hj, hid.mp hnode'⟩

theorem not_idAt_of_lacksIdAt {sections : List Json} {i : Nat} (h : LacksIdAt sections i) (id : Json) :
    ¬ IdAt sections i id := by
  obtain ⟨fields, hfields, hlacks⟩ := h
  rintro ⟨node, hnode, hid⟩
  rw [hfields, Option.some.injEq] at hnode
  rw [lacksId_eq_false_iff.mpr ⟨id, hnode ▸ hid⟩] at hlacks
  exact nomatch hlacks

theorem same_string_iff {id : Json} {s : String} : id.same (.string s) = true ↔ id = .string s := by
  cases id <;> simp [Json.same]

theorem string_same_iff {id : Json} {s : String} : (Json.string s).same id = true ↔ id = .string s := by
  cases id with
  | string t =>
    rw [Json.string.injEq, Json.same, beq_iff_eq]
    exact eq_comm
  | _ => simp [Json.same]

/-- a string is the id of one section at most -/
theorem DistinctIds.eq_of_idAt {sections : List Json} (h : DistinctIds sections) {i j : Nat} {s : String}
    (hi : IdAt sections i (.string s)) (hj : IdAt sections j (.string s)) : i = j := by
  rw [distinctIds_iff] at h
  have hsame : (Json.string s).same (.string s) = true := same_string_iff.mpr rfl
  rcases Nat.lt_trichotomy i j with hij | hij | hij
  · rw [h i j _ _ hij hi hj] at hsame
    exact nomatch hsame
  · exact hij
  · rw [h j i _ _ hij hj hi] at hsame
    exact nomatch hsame

/-! ## keys by position -/

/-- the position can be read from the key -/
theorem sectionKey_inj {i j : Nat} (h : sectionKey i = sectionKey j) : i = j := by
  have htext := congrArg String.toList h
  rw [sectionKey, sectionKey, String.toList_append, String.toList_append] at htext
  have hdigits := List.append_cancel_left htext
  rw [Nat.toList_repr, Nat.toList_repr] at hdigits
  rw [← Nat.ofDigitChars_ten_toDigits (n := i), hdigits, Nat.ofDigitChars_ten_toDigits]

theorem hasId_keyNode_iff {i : Nat} {node id : Json} :
    (keyNode i node).HasId id ↔ node.HasId id ∨
      ∃ fields, node = .object fields ∧ lacksId fields = true ∧ id = .string (sectionKey i) := by
  constructor
  · intro h
    cases node with
    | object fields =>
      cases hl : lacksId fields with
      | false =>
        rw [keyNode, hl] at h
        exact .inl h
      | true =>
        rw [keyNode, hl, if_pos rfl] at h
        have hkey : Keyed.get? (Keyed.insert fields idKey (.string (sectionKey i))) idKey =
            some (.string (sectionKey i)) := by
          rw [Keyed.get?_insert, if_pos rfl]
        exact .inr ⟨fields, rfl, hl, Option.some.inj (h.1.symm.trans hkey)⟩
    | _ => exact .inl h
  · rintro (h | ⟨fields, rfl, hl, rfl⟩)
    · exact hasId_keyNode i node id h
    · rw [keyNode, hl, if_pos rfl]
      exact ⟨(Keyed.get?_insert _ _ _ _).trans (if_pos rfl), Json.noConfusion⟩

/-- with keys assigned, an id is an old one or the key of its position -/
theorem idAt_assignSectionKeys {nodes : List Json} {i : Nat} {id : Json} :
    IdAt (assignSectionKeys nodes) i id ↔
      IdAt nodes i id ∨ (LacksIdAt nodes i ∧ id = .string (sectionKey i)) := by
  unfold IdAt LacksIdAt assignSectionKeys
  rw [List.getElem?_mapIdx]
  constructor
  · rintro ⟨node', hn, hid⟩
    obtain ⟨node, hnode, rfl⟩ := Option.map_eq_some_iff.mp hn
    rcases hasId_keyNode_iff.mp hid with hid | ⟨fields, rfl, hl, hkey⟩
    · exact .inl ⟨node, hnode, hid⟩
    · exact .inr ⟨⟨fields, hnode, hl⟩, hkey⟩
  · rintro (⟨node, hnode, hid⟩ | ⟨⟨fields, hfields, hl⟩, hkey⟩)
    · exact ⟨_, by rw [hnode]; rfl, hasId_keyNode_iff.mpr (.inl hid)⟩
    · exact ⟨_, by rw [hfields]; rfl, hasId_keyNode_iff.mpr (.inr ⟨fields, rfl, hl, hkey⟩)⟩

/-! ## when ids are distinct -/

/-- no section has for its id the key that another will be given -/
def KeysFree (nodes : List Json) : Prop :=
  ∀ i j, LacksIdAt nodes i → ¬ IdAt nodes j (.string (sectionKey i))

theorem distinctIds_assign_iff (nodes : List Json) :
    DistinctIds (assignSectionKeys nodes) ↔ DistinctIds nodes ∧ KeysFree nodes := by
  constructor
  · intro h
    refine ⟨distinctIds_iff.mpr fun i j id id' hij hi hj => distinctIds_iff.mp h i j id id' hij
      (idAt_assignSectionKeys.mpr (.inl hi)) (idAt_assignSectionKeys.mpr (.inl hj)), ?_⟩
    intro i j hi hj
    obtain rfl : i = j := h.eq_of_idAt (idAt_assignSectionKeys.mpr (.inr ⟨hi, rfl⟩))
      (idAt_assignSectionKeys.mpr (.inl hj))
    exact not_idAt_of_lacksIdAt hi _ hj
  · rintro ⟨h, hun⟩
    rw [distinctIds_iff] at h
    refine distinctIds_iff.mpr fun i j id id' hij hi hj => ?_
    rcases idAt_assignSectionKeys.mp hi with hown | ⟨hlacks, rfl⟩
    · rcases idAt_assignSectionKeys.mp hj with hown' | ⟨hlacks', rfl⟩
      · exact h i j id id' hij hown hown'
      · refine Bool.eq_false_iff.mpr fun hsame => hun j i hlacks' ?_
        rwa [← same_string_iff.mp hsame]
    · refine Bool.eq_false_iff.mpr fun hsame => ?_
      rw [string_same_iff.mp hsame] at hj
      rcases idAt_assignSectionKeys.mp hj with hown' | ⟨-, hkey⟩
      · exact hun i j hlacks hown'
      · have hij' : i = j := sectionKey_inj (Json.string.inj hkey)
        omega

/-! ## overrides for sections -/

theorem Overrides.resolver_choose_of_key {m : Overrides} {p : Placeholder} {key : String}
    (h : p.instanceKey = some key) (variantId : String) :
    (m.choose key variantId).resolver p = variantId := by
  show ((p.instanceKey.bind (m.choose key variantId).get?).or _).getD _ = _
  rw [h, Option.bind_some, get?_choose, if_pos rfl]
  rfl

/-- the placeholder that is the section at `i` -/
def placeholderAt? (sections : List Json) (i : Nat) : Option Placeholder :=
  sections[i]?.bind Placeholder.ofNode?

theorem idAt_iff_instanceKey {sections : List Json} {i : Nat} {p : Placeholder} {key : String}
    (h : placeholderAt? sections i = some p) :
    IdAt sections i (.string key) ↔ p.instanceKey = some key := by
  obtain ⟨node, hnode, hp⟩ := Option.bind_eq_some_iff.mp h
  have hid : IdAt sections i (.string key) ↔ node.HasId (.string key) := by
    unfold IdAt
    rw [hnode]
    simp
  rw [hid]
  cases node with
  | object fields =>
    obtain ⟨-, -, -, hkey, -⟩ := Placeholder.ofFields?_eq_some_iff.mp hp
    rw [← hkey]
    show Keyed.get? fields idKey = some (.string key) ∧ _ ↔ (Keyed.get? fields idKey).bind _ = _
    cases Keyed.get? fields idKey with
    | none => simp
    | some id => cases id <;> simp [Json.string?]
  | _ => exact nomatch hp

/-- an override under `key` chooses for the section at `i`, and no other section gets anything else by
it, unless its organ is called `key` -/
def ChoosesFor (sections : List Json) (i : Nat) (key : String) : Prop :=
  ∀ (m : Overrides) (variantId : String),
    (∀ p, placeholderAt? sections i = some p → (m.choose key variantId).resolver p = variantId) ∧
      ∀ j q, j ≠ i → placeholderAt? sections j = some q → q.organId ≠ key →
        (m.choose key variantId).resolver q = m.resolver q

theorem choosesFor_of_distinct {sections : List Json} (h : DistinctIds sections) {i : Nat} {key : String}
    (hi : IdAt sections i (.string key)) : ChoosesFor sections i key := by
  intro m variantId
  refine ⟨fun p hp => Overrides.resolver_choose_of_key ((idAt_iff_instanceKey hp).mp hi) variantId,
    fun j q hne hq horgan => Overrides.resolver_of_agreeOff (m.agreeOff_choose key variantId) ?_⟩
  rintro (hkey | hkey)
  · exact hne (h.eq_of_idAt ((idAt_iff_instanceKey hq).mpr hkey) hi)
  · exact horgan hkey

/-- **Section keys identify sections.**  With keys assigned every object has an id, and the ids are
distinct if and only if they were and no section had the key that another is given.  Where they are
distinct, the override under the id of a section is for this section. -/
theorem section_keys_identify (nodes : List Json) :
    (∀ fields, .object fields ∈ assignSectionKeys nodes → ∃ id, (Json.object fields).HasId id) ∧
      (DistinctIds (assignSectionKeys nodes) ↔ DistinctIds nodes ∧ KeysFree nodes) ∧
      (DistinctIds (assignSectionKeys nodes) →
        ∀ i key, IdAt (assignSectionKeys nodes) i (.string key) →
          ChoosesFor (assignSectionKeys nodes) i key) :=
  ⟨fun _ h => hasId_of_mem_assignSectionKeys h, distinctIds_assign_iff nodes,
    fun h _ _ hi => choosesFor_of_distinct h hi⟩

/-- a keyed hero, a text, and a card that is given the key of the third position -/
def tourNodes : List Json := [
  .object [("type", .string "organ"), ("organId", .string "hero"), ("id", .string "intro")],
  .string "text",
  .object [("type", .string "organ"), ("organId", .string "card")]]

theorem section_keys_identify_tour :
    DistinctIds (assignSectionKeys tourNodes) ∧ (DistinctIds tourNodes ∧ KeysFree tourNodes) ∧
      IdAt (assignSectionKeys tourNodes) 2 (.string "section-2") ∧
      ChoosesFor (assignSectionKeys tourNodes) 2 "section-2" ∧
      .object [("type", .string "organ"), ("organId", .string "card"), ("id", .string "section-2")] ∈
        assignSectionKeys tourNodes ∧
      ∃ id, (Json.object [("type", .string "organ"), ("organId", .string "card"),
        ("id", .string "section-2")]).HasId id := by
  obtain ⟨hkeyed, hiff, hfor⟩ := section_keys_identify tourNodes
  have hdistinct : DistinctIds (assignSectionKeys tourNodes) := by decide
  have hid : IdAt (assignSectionKeys tourNodes) 2 (.string "section-2") := ⟨_, rfl, by decide⟩
  have hmem : .object [("type", .string "organ"), ("organId", .string "card"),
      ("id", .string "section-2")] ∈ assignSectionKeys tourNodes := by decide
  exact ⟨hdistinct, hiff.mp hdistinct, hid, hfor hdistinct 2 _ hid, hmem, hkeyed _ hmem⟩

/-- a card without an id stands at the position whose key a hero has for its id: their ids are distinct
until keys are assigned, and then an override is for both; it is for both as well where the hero has its
id from the organ of the card -/
theorem section_key_shared :
    let nodes : List Json := [
      .object [("type", .string "organ"), ("organId", .string "hero"), ("id", .string "section-1")],
      .object [("type", .string "organ"), ("organId", .string "card")]]
    let named : List Json := [
      .object [("type", .string "organ"), ("organId", .string "hero"), ("id", .string "card")],
      .object [("type", .string "organ"), ("organId", .string "card")]]
    (DistinctIds nodes ∧ ¬ DistinctIds (assignSectionKeys nodes) ∧
      ∃ hero card, placeholderAt? (assignSectionKeys nodes) 0 = some hero ∧
        placeholderAt? (assignSectionKeys nodes) 1 = some card ∧
        (Overrides.empty.choose "section-1" "split").resolver hero = "split" ∧
        (Overrides.empty.choose "section-1" "split").resolver card = "split" ∧
        Overrides.empty.resolver card = "default") ∧
      DistinctIds named ∧ DistinctIds (assignSectionKeys named) ∧
      ∃ hero card, placeholderAt? (assignSectionKeys named) 0 = some hero ∧
        placeholderAt? (assignSectionKeys named) 1 = some card ∧
        (Overrides.empty.choose "card" "split").resolver hero = "split" ∧
        (Overrides.empty.choose "card" "split").resolver card = "split" ∧
        Overrides.empty.resolver card = "default" := by
  refine ⟨⟨by decide, by decide, _, _, rfl, rfl, ?_⟩, by decide, by decide, _, _, rfl, rfl, ?_⟩
  · exact ⟨by decide, by decide, by decide⟩
  · exact ⟨by decide, by decide, by decide⟩

end Graft
