import Graft.Proofs.CycleGuard
import Graft.Registry.Change

/-!
# Spellings of ids

A registry reads ids up to normalization, and so does the guard against cycles.  A resolver that takes
what the document says hands on what the document spells, and so do the reports and the placeholders
that are left.  Where nothing is left no spelling shows, unless the chosen variant is stamped.

* `Respelled`                  one organ or variant of one placeholder in another spelling;
* `Namesakes`                  fields that say the same but for the spelling of ids;
* `Diagnostic.normalized`      a report without the spelling of its ids;
* `Expanded.UpToSpelling`      the same reports up to spelling, and the same output if there are none;
* `Expander.Interchangeable`, `Expander.StandIn`   placeholders and fields that come to the same;
* `Expander.expandOrgan_standIn`   of these an expansion makes the same up to spelling;
* `replaceNodes_respelled`     and so for nodes, when it is so for namesakes;
* `Registry.expand_respelled`  an expansion does not feel how ids are spelled.
-/

namespace Graft

open Node Relation

/-! ## one spelling for another -/

/-- one string is spelled in another way: an id that names the organ or the variant of a placeholder,
among the nodes or below any of them -/
inductive Respelled : List Json → List Json → Prop where
  | text {before after : List Json} {fields : Keyed Json} {key id id' : String}
      (horgan : isOrgan fields = true) (hkey : key = organIdKey ∨ key = variantKey)
      (hid : Keyed.get? fields key = some (.string id)) (hsame : normalizeId id' = normalizeId id) :
      Respelled (before ++ .object fields :: after)
        (before ++ .object (Keyed.insert fields key (.string id')) :: after)
  | inside {before after items items' : List Json} {fields : Keyed Json}
      (hitems : (Json.object fields).children? = some items) (h : Respelled items items') :
      Respelled (before ++ .object fields :: after)
        (before ++ .object (Keyed.insert fields childrenKey (.array items')) :: after)

/-- the fields agree in all that an expansion looks at, but for the spelling of ids -/
structure Namesakes (fields fields' : Keyed Json) : Prop where
  organ : isOrgan fields' = isOrgan fields
  /-- no key at all, where none is named; else the same one, which is normalized -/
  key : Placeholder.key? fields' = Placeholder.key? fields
  laid : ∀ key ∈ idKey :: overrideKeys, Keyed.get? fields' key = Keyed.get? fields key

section

variable (fields : Keyed Json)

theorem text?_insert_self (key id : String) :
    Placeholder.text? (Keyed.insert fields key (.string id)) key = some id := by
  unfold Placeholder.text?
  rw [Keyed.get?_insert, if_pos rfl]
  rfl

theorem text?_insert_ne {key k : String} (hk : key ≠ k) (value : Json) :
    Placeholder.text? (Keyed.insert fields key value) k = Placeholder.text? fields k := by
  unfold Placeholder.text?
  rw [Keyed.get?_insert, if_neg hk]

/-- an expansion lays over a tree neither the ids nor the children -/
theorem get?_insert_of_laid {key : String} (hkey : key ∈ [organIdKey, variantKey, childrenKey])
    (value : Json) {k : String} (hk : k ∈ typeKey :: idKey :: overrideKeys) :
    Keyed.get? (Keyed.insert fields key value) k = Keyed.get? fields k := by
  have hapart : ∀ key ∈ [organIdKey, variantKey, childrenKey],
      ∀ k ∈ typeKey :: idKey :: overrideKeys, key ≠ k := by decide
  rw [Keyed.get?_insert, if_neg (hapart key hkey k hk)]

theorem isOrgan_insert {key : String} (hkey : key ∈ [organIdKey, variantKey, childrenKey])
    (value : Json) : isOrgan (Keyed.insert fields key value) = isOrgan fields := by
  unfold isOrgan
  rw [get?_insert_of_laid fields hkey value List.mem_cons_self]

theorem namesakes_children (value : Json) :
    Namesakes fields (Keyed.insert fields childrenKey value) where
  organ := isOrgan_insert fields (by simp) value
  key := by
    have hother : ∀ key ∈ [typeKey, organIdKey, variantKey], childrenKey ≠ key := by decide
    refine Placeholder.key?_congr fun key hm => ?_
    rw [Keyed.get?_insert, if_neg (hother key hm)]
  laid := fun _ hk => get?_insert_of_laid fields (by simp) value (List.mem_cons_of_mem _ hk)

variable {fields}

theorem namesakes_text {key id id' : String} (hkey : key = organIdKey ∨ key = variantKey)
    (hid : Keyed.get? fields key = some (.string id)) (hsame : normalizeId id' = normalizeId id) :
    Namesakes fields (Keyed.insert fields key (.string id')) := by
  have hmem : key ∈ [organIdKey, variantKey, childrenKey] := by
    rcases hkey with rfl | rfl <;> simp
  have htext : Placeholder.text? fields key = some id := by
    unfold Placeholder.text?
    rw [hid]
    rfl
  have horgan : isOrgan (Keyed.insert fields key (.string id')) = isOrgan fields :=
    isOrgan_insert fields hmem _
  refine ⟨horgan, ?_, fun _ hk => get?_insert_of_laid fields hmem _ (List.mem_cons_of_mem _ hk)⟩
  rw [Placeholder.key?_eq, Placeholder.key?_eq, horgan]
  rcases hkey with rfl | rfl
  · rw [text?_insert_self, text?_insert_ne fields (by decide), htext]
    simp only [Option.map_some, VariantKey.of, hsame]
  · rw [text?_insert_self, text?_insert_ne fields (by decide), htext]
    simp only [Option.getD_some, VariantKey.of, hsame]

end

/-! ## reports and spelling -/

namespace Diagnostic

/-- the kind of a report, the keys of a cycle and the depth stay -/
def normalized : Diagnostic → Diagnostic
  | .unknownOrgan organId => .unknownOrgan (normalizeId organId)
  | .unknownVariant organId variantId => .unknownVariant (normalizeId organId) (normalizeId variantId)
  | .malformedVariant organId variantId =>
    .malformedVariant (normalizeId organId) (normalizeId variantId)
  | d => d

end Diagnostic

/-- `e'` is `e` with other spellings in the reports and in what is left -/
structure Expanded.UpToSpelling {α : Type} (e e' : Expanded α) : Prop where
  diagnostics : e'.diagnostics.map Diagnostic.normalized = e.diagnostics.map Diagnostic.normalized
  output : e.diagnostics = [] → e'.output = e.output

namespace Expanded.UpToSpelling

variable {α β : Type} {e e' e'' : Expanded α}

theorem refl (e : Expanded α) : UpToSpelling e e := ⟨rfl, fun _ => rfl⟩

theorem clean_iff (h : UpToSpelling e e') : e'.diagnostics = [] ↔ e.diagnostics = [] := by
  rw [← List.map_eq_nil_iff, h.diagnostics, List.map_eq_nil_iff]

theorem trans (h : UpToSpelling e e') (h' : UpToSpelling e' e'') : UpToSpelling e e'' where
  diagnostics := h'.diagnostics.trans h.diagnostics
  output := fun hclean => (h'.output (h.clean_iff.mpr hclean)).trans (h.output hclean)

theorem map (h : UpToSpelling e e') (g : α → β) : UpToSpelling (e.map g) (e'.map g) where
  diagnostics := h.diagnostics
  output := fun hclean => congrArg g (h.output hclean)

/-- one node for another among its siblings -/
theorem among {f : Keyed Json → Expanded Json} {node node' : Json}
    (h : UpToSpelling (replaceNode f node) (replaceNode f node')) (before after : List Json) :
    UpToSpelling (replaceNodes f (before ++ node :: after))
      (replaceNodes f (before ++ node' :: after)) where
  diagnostics := by
    simp only [replaceNodes_append, replaceNodes_cons, diagnostics_bind, diagnostics_map,
      List.map_append, h.diagnostics]
  output := by
    intro hclean
    simp only [replaceNodes_append, replaceNodes_cons, diagnostics_bind, diagnostics_map,
      List.append_eq_nil_iff] at hclean
    rw [output_replaceNodes, output_replaceNodes, List.map_append, List.map_append, List.map_cons,
      List.map_cons, h.output hclean.2.1]

end Expanded.UpToSpelling

open Expanded (UpToSpelling)

/-! ## one placeholder for another -/

namespace Expander

/-- under `x` the two stand for the same key, ask for the same tree and make the same root of it -/
structure Interchangeable (x : Expander) (p q : Placeholder) : Prop where
  key : x.keyOf q = x.keyOf p
  load : x.lookup.load q.organId (x.resolver q) = x.lookup.load p.organId (x.resolver p)
  contains : x.lookup.contains q.organId = x.lookup.contains p.organId
  root : ∀ tree, x.rootOver q tree = x.rootOver p tree

variable {x : Expander} {left : Nat} {stack : List VariantKey} {fields fields' : Keyed Json}

theorem Interchangeable.ids {p q : Placeholder} (h : x.Interchangeable p q) :
    normalizeId q.organId = normalizeId p.organId ∧
      normalizeId (x.resolver q) = normalizeId (x.resolver p) :=
  ⟨congrArg VariantKey.organ h.key, congrArg VariantKey.variant h.key⟩

/-- `fields'` can stand where `fields` stand -/
structure StandIn (x : Expander) (fields fields' : Keyed Json) : Prop where
  unnamed : Placeholder.ofFields? fields = none → Placeholder.ofFields? fields' = none
  named : ∀ p, Placeholder.ofFields? fields = some p →
    ∃ q, Placeholder.ofFields? fields' = some q ∧ x.Interchangeable p q

/-- what stands in for one that is refused is refused for the same reason -/
theorem Refusal.standIn {d : Diagnostic} (h : x.Refusal left stack fields d)
    (hin : x.StandIn fields fields') :
    ∃ d', x.Refusal left stack fields' d' ∧ d'.normalized = d.normalized := by
  cases h with
  | malformed hp => exact ⟨_, .malformed (hin.unnamed hp), rfl⟩
  | cycle hp hs =>
    obtain ⟨q, hq, hpq⟩ := hin.named _ hp
    rw [← hpq.key] at hs ⊢
    exact ⟨_, .cycle hq hs, rfl⟩
  | depth hp hs =>
    obtain ⟨q, hq, hpq⟩ := hin.named _ hp
    rw [← hpq.key] at hs
    exact ⟨_, .depth hq hs, rfl⟩
  | organ hp hs hl hc =>
    obtain ⟨q, hq, hpq⟩ := hin.named _ hp
    rw [← hpq.key] at hs
    rw [← hpq.load] at hl
    rw [← hpq.contains] at hc
    refine ⟨_, .organ hq hs hl hc, ?_⟩
    simp only [Diagnostic.normalized, hpq.ids]
  | variant hp hs hl hc =>
    obtain ⟨q, hq, hpq⟩ := hin.named _ hp
    rw [← hpq.key] at hs
    rw [← hpq.load] at hl
    rw [← hpq.contains] at hc
    refine ⟨_, .variant hq hs hl hc, ?_⟩
    simp only [Diagnostic.normalized, hpq.ids]
  | tree hp hs hl hv =>
    obtain ⟨q, hq, hpq⟩ := hin.named _ hp
    rw [← hpq.key] at hs
    rw [← hpq.load] at hl
    refine ⟨_, .tree hq hs hl hv, ?_⟩
    simp only [Diagnostic.normalized, hpq.ids]

theorem expandOrgan_standIn (left : Nat) (stack : List VariantKey) (h : x.StandIn fields fields') :
    UpToSpelling (x.expandOrgan left stack fields) (x.expandOrgan left stack fields') := by
  rcases x.refusal_or_entry left stack fields with ⟨d, hd⟩ | ⟨below, p, tree, rfl, entry⟩
  · obtain ⟨d', hd', hsame⟩ := hd.standIn h
    rw [x.expandOrgan_of_refusal hd, x.expandOrgan_of_refusal hd']
    exact ⟨congrArg (fun d => [d]) hsame, fun hclean => nomatch hclean⟩
  · -- the key and the root are the same, so nothing below is different
    obtain ⟨q, hq, hpq⟩ := h.named p entry.view
    have entry' : x.Entry stack fields' q tree := by
      refine ⟨hq, ?_, hpq.load.trans entry.load⟩
      rw [hpq.key]
      exact entry.fresh
    rw [x.expandOrgan_of_entry entry, x.expandOrgan_of_entry entry', hpq.key, hpq.root]
    exact .refl _

end Expander

/-! ## nodes -/

theorem replaceNodes_respelled {f : Keyed Json → Expanded Json}
    (hf : ∀ fields fields', Namesakes fields fields' → UpToSpelling (f fields) (f fields'))
    {nodes nodes' : List Json} (h : Respelled nodes nodes') :
    UpToSpelling (replaceNodes f nodes) (replaceNodes f nodes') := by
  induction h with
  | @text before after fields key id id' horgan hkey hid hsame =>
    have hnames : Namesakes fields (Keyed.insert fields key (.string id')) :=
      namesakes_text hkey hid hsame
    refine UpToSpelling.among ?_ before after
    rw [replaceNode_organ f _ horgan, replaceNode_organ f _ (hnames.organ.trans horgan)]
    exact hf _ _ hnames
  | @inside before after items items' fields hitems _ ih =>
    have hnames : Namesakes fields (Keyed.insert fields childrenKey (.array items')) :=
      namesakes_children fields _
    refine UpToSpelling.among ?_ before after
    -- `f` looks for itself below a placeholder; below any other node the replacement goes on
    cases horgan : isOrgan fields with
    | true =>
      rw [replaceNode_organ f _ horgan, replaceNode_organ f _ (hnames.organ.trans horgan)]
      exact hf _ _ hnames
    | false =>
      rw [replaceNode_plain f _ horgan, replaceNode_plain f _ (hnames.organ.trans horgan),
        replaceFields_items f _ _ hitems, replaceFields_items f _ _ (children?_insert _ _)]
      simp only [Keyed.insert_insert]
      exact (ih.map _).map _

/-! ## registries -/

namespace Registry

variable (r : Registry)

theorem contains_of_normalized {id id' : String} (h : normalizeId id' = normalizeId id) :
    r.contains id' = r.contains id := by
  unfold contains
  rw [h]

/-- whoever says the same but for the spelling can stand in, as long as the variant is not stamped -/
theorem standIn_of_namesakes {options : ExpandOptions} (hstamp : options.stampLayoutId = false)
    {fields fields' : Keyed Json} (h : Namesakes fields fields') :
    (r.expander options).StandIn fields fields' where
  unnamed := by
    intro hp
    have hnone : Placeholder.key? fields = none := congrArg (Option.map _) hp
    exact Option.map_eq_none_iff.mp (h.key.trans hnone)
  named := by
    intro p hp
    obtain ⟨q, hq, hkey⟩ := Option.map_eq_some_iff.mp
      (h.key.trans (Placeholder.key?_of_ofFields? hp))
    refine ⟨q, hq, hkey, ?_, ?_, fun tree => ?_⟩
    · show r.lookup q.organId q.variantOrDefault = r.lookup p.organId p.variantOrDefault
      rw [← lookup_authoredKey, hkey, lookup_authoredKey]
    · exact r.contains_of_normalized (congrArg VariantKey.organ hkey)
    · have hgraft : q.graft tree = p.graft tree := by
        refine Placeholder.graft_congr tree fun k hk => ?_
        unfold Placeholder.field?
        rw [Placeholder.fields_of_ofFields? hq, Placeholder.fields_of_ofFields? hp, h.laid k hk]
      have hstill : ∀ variantId root, (r.expander options).stamp variantId root = root :=
        fun _ _ => if_neg (by simp [expander, hstamp])
      unfold Expander.rootOver
      rw [hgraft, hstill, hstill]

/-- **Ids matter up to normalization only.**  Whatever strings that name an organ or a variant are
spelled in another way, at any depth, the same kinds of reports come in the same order with the same
cycles, and where there are none the output is the same. -/
theorem expand_respelled (maxDepth : Nat) {nodes nodes' : List Json}
    (h : ReflTransGen Respelled nodes nodes') :
    let x := r.expander { maxDepth, stampLayoutId := false }
    (x.expand nodes').diagnostics.map Diagnostic.normalized =
        (x.expand nodes).diagnostics.map Diagnostic.normalized ∧
      (x.expand nodes').isComplete = (x.expand nodes).isComplete ∧
      ((x.expand nodes).isComplete = true → (x.expand nodes').output = (x.expand nodes).output) := by
  intro x
  have hup : UpToSpelling (x.expand nodes) (x.expand nodes') := by
    induction h with
    | refl => exact .refl _
    | tail _ hstep ih =>
      refine ih.trans (replaceNodes_respelled (fun fields fields' hnames => ?_) hstep)
      exact Expander.expandOrgan_standIn _ _ (r.standIn_of_namesakes rfl hnames)
  refine ⟨hup.diagnostics, ?_, fun hc => hup.output ((Expanded.isComplete_iff _).mp hc)⟩
  rw [Bool.eq_iff_iff, Expanded.isComplete_iff, Expanded.isComplete_iff]
  exact hup.clean_iff

/-- `tile` is an alias of a wide card, which holds a note -/
def tileRegistry : Registry :=
  Registry.empty.run [
    .registerVariant "Tile" "default" (.object [("type", .string "organ"),
      ("organId", .string "CARD"), ("variant", .string "Wide")]),
    .registerVariant "card" "wide" (.object [("children", .array [
      .object [("type", .string "organ"), ("organId", .string "note")]])]),
    .registerDiscovered "note.json" (.object [("type", .string "Text")])]

/-- a tile in a row, with a placeholder of its own below it, and then a card -/
def tilePage (tile inner wide : String) : List Json := [
  .object [("children", .array [
    .object [("type", .string "organ"), ("organId", .string tile), ("children", .array [
      .object [("type", .string "organ"), ("organId", .string inner)]])]])],
  .object [("type", .string "organ"), ("organId", .string "card"), ("variant", .string wide)]]

theorem respelled_tilePage {tile tile' inner inner' wide wide' : String}
    (htile : normalizeId tile' = normalizeId tile) (hinner : normalizeId inner' = normalizeId inner)
    (hwide : normalizeId wide' = normalizeId wide) :
    ReflTransGen Respelled (tilePage tile inner wide) (tilePage tile' inner' wide') := by
  have h₁ : Respelled (tilePage tile inner wide) (tilePage tile' inner wide) :=
    @Respelled.inside [] _ _ _ _ rfl
      (@Respelled.text [] [] _ organIdKey tile tile' rfl (Or.inl rfl) rfl htile)
  have h₂ : Respelled (tilePage tile' inner wide) (tilePage tile' inner' wide) :=
    @Respelled.inside [] _ _ _ _ rfl (@Respelled.inside [] [] _ _ _ rfl
      (@Respelled.text [] [] _ organIdKey inner inner' rfl (Or.inl rfl) rfl hinner))
  have h₃ : Respelled (tilePage tile' inner' wide) (tilePage tile' inner' wide') :=
    @Respelled.text [_] [] _ variantKey wide wide' rfl (Or.inr rfl) rfl hwide
  exact ((ReflTransGen.single h₁).tail h₂).tail h₃

theorem expand_respelled_tilePage :
    ReflTransGen Respelled (tilePage "tile" "note" "wide") (tilePage " TILE" "Note" "WIDE ") ∧
      tilePage " TILE" "Note" "WIDE " ≠ tilePage "tile" "note" "wide" ∧
      let x := tileRegistry.expander { maxDepth := 3, stampLayoutId := false }
      (x.expand (tilePage "tile" "note" "wide")).isComplete = true ∧
        (x.expand (tilePage " TILE" "Note" "WIDE ")).output =
          (x.expand (tilePage "tile" "note" "wide")).output := by
  have h : ReflTransGen Respelled (tilePage "tile" "note" "wide")
      (tilePage " TILE" "Note" "WIDE ") :=
    respelled_tilePage (by decide +kernel) (by decide +kernel) (by decide +kernel)
  have hcomplete : ((tileRegistry.expander { maxDepth := 3, stampLayoutId := false }).expand
      (tilePage "tile" "note" "wide")).isComplete = true := by decide +kernel
  exact ⟨h, by decide, hcomplete, (expand_respelled tileRegistry 3 h).2.2 hcomplete⟩

/-- a stamp holds the variant as it is spelled -/
example : ((tileRegistry.expander {}).expand (tilePage "tile" "note" "WIDE ")).output ≠
    ((tileRegistry.expander {}).expand (tilePage "tile" "note" "wide")).output := by decide +kernel

end Registry

end Graft
