import Graft.Json.Pointer
import Mathlib.Data.List.Basic

/-!
# Following the text of a pointer

Who is handed a pointer gets its text.  The text is empty, or it has a slash before each of its tokens.
From an object a token leads to a field: `~0` stands for a tilde and `~1` for a slash in its key.  From an
array it leads to an item: the token is the item's position, in decimal digits without a leading zero.

Which of the two a token is does not show in the text, only in the value that it is followed from.  So a
text leads wherever its pointer leads, but two pointers may have one text, unless no key on them can be
taken for a position.

* `Step.key?`, `Step.index?`   the key and the position that a token stands for;
* `Pointer.tokens?`            the tokens of a text;
* `Json.follow?`               the part that a text leads to;
* `Pointer.tokens?_render`     the text of a pointer has one token for every step;
* `Json.follow?_render`        and leads to the part that the pointer leads to;
* `Pointer.render_inj`         two pointers without doubtful keys differ in their texts.
-/

namespace Graft

/-! ## tokens -/

namespace Step

/-- the key that a token stands for; a tilde that is no escape belongs to no key -/
def key? : List Char → Option (List Char)
  | [] => some []
  | '~' :: '0' :: rest => (key? rest).map ('~' :: ·)
  | '~' :: '1' :: rest => (key? rest).map ('/' :: ·)
  | c :: rest => if c = '~' then none else (key? rest).map (c :: ·)

/-- the position that a token stands for: decimal digits, the first of several not zero -/
def index? (token : List Char) : Option Nat :=
  if token ≠ [] ∧ token.all Char.isDigit ∧ (token.head? = some '0' → token = ['0']) then
    some (Nat.ofDigitChars 10 token 0)
  else none

/-- the text of a step, as a token -/
def token (step : Step) : List Char := step.render.toList

theorem toList_escape (key : String) :
    (escape key).toList = key.toList.flatMap fun c =>
      if c = '~' then ['~', '0'] else if c = '/' then ['~', '1'] else [c] := by
  rw [escape, String.toList_ofList]

theorem token_item (index : Nat) : (item index).token = Nat.toDigits 10 index := Nat.toList_repr

theorem token_field (key : String) : (field key).token = (escape key).toList := rfl

theorem key?_other {c : Char} (h : c ≠ '~') (rest : List Char) :
    key? (c :: rest) = (key? rest).map (c :: ·) := by
  simp [key?, h]

/-- a key is read back from its token -/
theorem key?_token (key : String) : key? (field key).token = some key.toList := by
  rw [token_field, toList_escape]
  induction key.toList with
  | nil => rfl
  | cons c cs ih =>
    rw [List.flatMap_cons]
    by_cases htilde : c = '~'
    · rw [htilde, if_pos rfl, List.cons_append, List.singleton_append, key?, ih]
      rfl
    · by_cases hslash : c = '/'
      · rw [hslash, if_neg (by decide), if_pos rfl, List.cons_append, List.singleton_append, key?, ih]
        rfl
      · rw [if_neg htilde, if_neg hslash, List.singleton_append, key?_other htilde, ih]
        rfl

/-- no number but zero is written with a zero in front -/
theorem head?_toDigits {n : Nat} (hn : 0 < n) : (Nat.toDigits 10 n).head? ≠ some '0' := by
  induction n using Nat.strongRecOn with
  | ind n ih =>
    by_cases h : n < 10
    · rw [Nat.toDigits_of_lt_base h, List.head?_cons]
      intro heq
      have h0 : n = 0 := Nat.digitChar_eq_zero.mp (Option.some.inj heq)
      omega
    · rw [Nat.toDigits_of_base_le (by decide) (by omega), List.head?_append_of_ne_nil _ Nat.toDigits_ne_nil]
      exact ih (n / 10) (by omega) (by omega)

/-- a position is read back from its token -/
theorem index?_token (index : Nat) : index? (item index).token = some index := by
  rw [token_item, index?, if_pos, Nat.ofDigitChars_ten_toDigits]
  refine ⟨Nat.toDigits_ne_nil, List.all_eq_true.mpr fun c hc =>
    Nat.isDigit_of_mem_toDigits (by decide) (by decide) hc, fun h => ?_⟩
  rcases Nat.eq_zero_or_pos index with h0 | hpos
  · rw [h0, Nat.toDigits_zero]
  · exact absurd h (head?_toDigits hpos)

theorem slash_not_mem_token (step : Step) : '/' ∉ step.token := by
  cases step with
  | item index =>
    rw [token_item]
    intro h
    exact absurd (Nat.isDigit_of_mem_toDigits (by decide) (by decide) h) (by decide)
  | field key =>
    rw [token_field, toList_escape, List.mem_flatMap]
    rintro ⟨c, -, hc⟩
    split at hc
    · exact absurd hc (by decide)
    · split at hc
      · exact absurd hc (by decide)
      · rename_i hslash
        exact hslash (List.mem_singleton.mp hc).symm

end Step

/-! ## texts -/

namespace Pointer

/-- the tokens of a text -/
def tokens? (text : String) : Option (List (List Char)) :=
  match text.toList with
  | [] => some []
  | '/' :: rest => some (rest.splitOn '/')
  | _ => none

theorem toList_render (p : Pointer) : p.render.toList = p.flatMap fun step => '/' :: step.token := by
  rw [render, String.toList_join, List.flatMap_map]
  refine List.flatMap_congr fun step _ => ?_
  rw [String.toList_append]
  rfl

theorem splitOn_tokens (step : Step) (p : Pointer) :
    (step.token ++ p.flatMap fun step => '/' :: step.token).splitOn '/' =
      step.token :: p.map Step.token := by
  induction p generalizing step with
  | nil =>
    rw [List.flatMap_nil, List.append_nil, List.splitOn_eq_singleton step.slash_not_mem_token]
    rfl
  | cons next p ih =>
    rw [List.flatMap_cons, List.cons_append,
      List.splitOn_append_cons_self_of_not_mem step.slash_not_mem_token, ih]
    rfl

/-- one token for every step -/
theorem tokens?_render (p : Pointer) : tokens? p.render = some (p.map Step.token) := by
  unfold tokens?
  rw [toList_render]
  cases p with
  | nil => rfl
  | cons step p =>
    show some ((step.token ++ p.flatMap fun step => '/' :: step.token).splitOn '/') = _
    rw [splitOn_tokens]
    rfl

/-- no key on the way can be taken for a position -/
def Clear (p : Pointer) : Prop := ∀ key, Step.field key ∈ p → Step.index? (Step.field key).token = none

theorem token_inj {s t : Step} (hs : Clear [s]) (ht : Clear [t]) (h : s.token = t.token) : s = t := by
  cases s with
  | item i =>
    have hi := Step.index?_token i
    cases t with
    | item j => rw [h, Step.index?_token, Option.some.injEq] at hi; rw [hi]
    | field k => rw [h, ht k List.mem_cons_self] at hi; exact nomatch hi
  | field k =>
    cases t with
    | item j =>
      have hj := Step.index?_token j
      rw [← h, hs k List.mem_cons_self] at hj
      exact nomatch hj
    | field l =>
      have hk := Step.key?_token k
      rw [h, Step.key?_token, Option.some.injEq, String.toList_inj] at hk
      rw [hk]

/-- clear pointers of one text are one pointer -/
theorem render_inj {p q : Pointer} (hp : Clear p) (hq : Clear q) (h : p.render = q.render) : p = q := by
  have htokens : p.map Step.token = q.map Step.token := by
    rw [← Option.some.injEq, ← tokens?_render, ← tokens?_render, h]
  clear h
  induction p generalizing q with
  | nil => exact (List.map_eq_nil_iff.mp htokens.symm).symm
  | cons s p ih =>
    cases q with
    | nil => exact nomatch htokens
    | cons t q =>
      rw [List.map_cons, List.map_cons, List.cons.injEq] at htokens
      have hst : s = t := token_inj
        (fun k hk => hp k (List.mem_cons.mpr (.inl (List.mem_singleton.mp hk))))
        (fun k hk => hq k (List.mem_cons.mpr (.inl (List.mem_singleton.mp hk)))) htokens.1
      rw [hst, ih (fun k hk => hp k (List.mem_cons_of_mem _ hk))
        (fun k hk => hq k (List.mem_cons_of_mem _ hk)) htokens.2]

end Pointer

/-! ## following a text -/

namespace Json

/-- the part that a token leads to -/
def token? : Json → List Char → Option Json
  | .object fields, token => (Step.key? token).bind fun key => Keyed.get? fields (String.ofList key)
  | .array items, token => (Step.index? token).bind fun index => items[index]?
  | _, _ => none

/-- the part that a text leads to -/
def follow? (value : Json) (text : String) : Option Json :=
  (Pointer.tokens? text).bind fun tokens => tokens.foldlM token? value

theorem token?_of_step? {value part : Json} {step : Step} (h : value.step? step = some part) :
    value.token? step.token = some part := by
  cases value with
  | array items =>
    cases step with
    | item index => rw [token?, Step.index?_token]; exact h
    | field key => exact nomatch h
  | object fields =>
    cases step with
    | item index => exact nomatch h
    | field key => rw [token?, Step.key?_token, Option.bind_some, String.ofList_toList]; exact h
  | _ => exact nomatch h

/-- a text leads to the part that its pointer leads to -/
theorem follow?_render {value part : Json} {p : Pointer} (h : value.at? p = some part) :
    value.follow? p.render = some part := by
  rw [follow?, Pointer.tokens?_render, Option.bind_some]
  induction p generalizing value with
  | nil => exact h
  | cons step p ih =>
    obtain ⟨inner, hinner, hpart⟩ := Option.bind_eq_some_iff.mp h
    rw [List.map_cons, List.foldlM_cons, token?_of_step? hinner]
    exact ih hpart

end Json

end Graft
