/-
  The grammar of the language, as derivation trees over tokens.

      program ::= form*
      form    ::= number | string | symbol | operator
                | "(" form* ")"
                | ("'" | "`" | ",") form

  A derivation has a yield, the tokens that it derives (`tokens`), and stands
  for a syntax tree (`form`).  Every form in it lies at a level: how many lists
  and quote marks enclose it (`levels`).

  * `yield_injective`: the grammar is unambiguous.
-/
import MacroLisp.Expr
import MacroLisp.Reader.TokenKind
import Mathlib.Logic.Function.Defs

namespace MacroLisp

/-- The tree `e` is the given one, or occurs in an item of it. -/
inductive Expr.Occurs (e : Expr) : Expr → Prop where
  | self : Occurs e e
  | item {items : List Expr} {i : Expr} (hi : i ∈ items) (h : Occurs e i) : Occurs e (.list items)

/-! ## Tokens -/

namespace TokenKind

/-- The kinds of the tokens that are a form by themselves. -/
def isAtom : TokenKind → Bool
  | number | string | symbol | operator => true
  | _ => false

/-- The kinds of the quote marks. -/
def isMark : TokenKind → Bool
  | quote | backquote | unquote => true
  | _ => false

theorem ne_of_isAtom {kind : TokenKind} (h : kind.isAtom = true) :
    kind ≠ openParen ∧ kind ≠ closeParen ∧ kind.isMark = false := by
  cases kind <;> simp_all [isAtom, isMark]

theorem ne_of_isMark {kind : TokenKind} (h : kind.isMark = true) :
    kind ≠ openParen ∧ kind ≠ closeParen := by
  cases kind <;> simp_all [isMark]

/-- The symbol that a quote mark stands for. -/
def word : TokenKind → String
  | quote => "quote"
  | backquote => "backquote"
  | _ => "unquote"

end TokenKind

namespace Token

/-- The digits of a token as a decimal number. -/
def decimal (t : Token TokenKind) : Nat :=
  Nat.ofDigitChars 10 t.text.toList 0

/-- The form that an atom is.  A string loses its first and its last character,
    and a number that is too large for an integer is a double. -/
def leaf (t : Token TokenKind) : Expr :=
  match t.kind with
  | .number =>
    .number (if t.decimal ≤ Int64.maxValue.toInt then .int (.ofNat t.decimal)
      else .float (.ofNat t.decimal))
  | .string => .string (String.ofList t.text.toList.tail.dropLast)
  | _ => .symbol t.text

/-- Nothing but the atom itself occurs in it. -/
theorem eq_leaf_of_occurs {t : Token TokenKind} {e : Expr} (h : e.Occurs t.leaf) : e = t.leaf := by
  obtain ⟨kind, text, pos⟩ := t
  cases kind <;> cases h <;> rfl

end Token

/-! ## Derivations -/

/-- A form of the grammar with its tokens. -/
inductive Derivation where
  | atom (t : Token TokenKind) (h : t.kind.isAtom = true)
  | list (opening : Token TokenKind) (items : List Derivation) (closing : Token TokenKind)
      (ho : opening.kind = .openParen) (hc : closing.kind = .closeParen)
  | marked (mark : Token TokenKind) (d : Derivation) (h : mark.kind.isMark = true)

namespace Derivation

/-- To prove something of all derivations, it may be assumed of the items of a
    list and of the form behind a mark. -/
@[elab_as_elim]
theorem induction {motive : Derivation → Prop} (atom : ∀ t h, motive (atom t h))
    (list : ∀ opening items closing ho hc, (∀ d ∈ items, motive d) →
      motive (list opening items closing ho hc))
    (marked : ∀ mark d h, motive d → motive (marked mark d h)) (d : Derivation) : motive d := by
  refine @Derivation.rec motive (fun ds => ∀ d ∈ ds, motive d) atom list marked ?_ ?_ d
  · intro d hd; cases hd
  · rintro d ds hd hds d' (_ | ⟨_, hd'⟩)
    · exact hd
    · exact hds d' hd'

mutual

/-- The tokens of a form, from left to right. -/
def tokens : Derivation → List (Token TokenKind)
  | atom t _ => [t]
  | list opening items closing _ _ => opening :: (yield items ++ [closing])
  | marked mark d _ => mark :: tokens d

/-- The tokens of a sequence of forms. -/
def yield : List Derivation → List (Token TokenKind)
  | [] => []
  | d :: ds => tokens d ++ yield ds

end

mutual

/-- The syntax tree of a form.  A quote mark makes a list of two items. -/
def form : Derivation → Expr
  | atom t _ => t.leaf
  | list _ items _ _ _ => .list (forms items)
  | marked mark d _ => .list [.symbol mark.kind.word, form d]

/-- The syntax tree of each form. -/
def forms : List Derivation → List Expr
  | [] => []
  | d :: ds => form d :: forms ds

end

mutual

/-- The levels of the form itself and of all forms in it: how many lists and
    quote marks enclose them. -/
def levels : Derivation → List Nat
  | atom _ _ => [0]
  | list _ items _ _ _ => 0 :: (levelsOf items).map (· + 1)
  | marked _ d _ => 0 :: (levels d).map (· + 1)

/-- The levels of the forms of a sequence. -/
def levelsOf : List Derivation → List Nat
  | [] => []
  | d :: ds => levels d ++ levelsOf ds

end

theorem yield_eq_flatMap (ds : List Derivation) : yield ds = ds.flatMap tokens := by
  induction ds with
  | nil => rfl
  | cons d ds ih => rw [yield, ih, List.flatMap_cons]

theorem forms_eq_map (ds : List Derivation) : forms ds = ds.map form := by
  induction ds with
  | nil => rfl
  | cons d ds ih => rw [forms, ih, List.map_cons]

theorem levelsOf_eq_flatMap (ds : List Derivation) : levelsOf ds = ds.flatMap levels := by
  induction ds with
  | nil => rfl
  | cons d ds ih => rw [levelsOf, ih, List.flatMap_cons]

theorem mem_yield {ds : List Derivation} {d : Derivation} (hd : d ∈ ds) {t : Token TokenKind}
    (ht : t ∈ d.tokens) : t ∈ yield ds := by
  rw [yield_eq_flatMap, List.mem_flatMap]
  exact ⟨d, hd, ht⟩

/-! ## What occurs in the tree -/

/-- What occurs in the tree of a derivation is a list, a symbol, or an atom. -/
theorem exists_leaf_of_occurs {e : Expr} {d : Derivation} (h : e.Occurs d.form) :
    (∃ items, e = .list items) ∨ (∃ name, e = .symbol name) ∨
      ∃ t ∈ d.tokens, t.kind.isAtom = true ∧ e = t.leaf := by
  induction d using induction with
  | atom t ha => exact .inr (.inr ⟨t, by simp [tokens], ha, Token.eq_leaf_of_occurs h⟩)
  | list opening items closing ho hc ih =>
    rcases h with _ | ⟨hi, h⟩
    · exact .inl ⟨_, rfl⟩
    · rw [forms_eq_map] at hi
      obtain ⟨d, hd, rfl⟩ := List.mem_map.1 hi
      rcases ih d hd h with he | he | ⟨t, ht, ha, rfl⟩
      · exact .inl he
      · exact .inr (.inl he)
      · exact .inr (.inr ⟨t, by simp [tokens, mem_yield hd ht], ha, rfl⟩)
  | marked mark d hm ih =>
    rcases h with _ | ⟨hi, h⟩
    · exact .inl ⟨_, rfl⟩
    · simp only [List.mem_cons, List.not_mem_nil, or_false] at hi
      rcases hi with rfl | rfl
      · cases h
        exact .inr (.inl ⟨_, rfl⟩)
      · rcases ih h with he | he | ⟨t, ht, ha, rfl⟩
        · exact .inl he
        · exact .inr (.inl he)
        · exact .inr (.inr ⟨t, by simp [tokens, ht], ha, rfl⟩)

/-- No value stands in the tree of a derivation. -/
theorem not_occurs_const (d : Derivation) (v : Value) : ¬ (Expr.const v).Occurs d.form := by
  intro hv
  rcases exists_leaf_of_occurs hv with ⟨items, he⟩ | ⟨name, he⟩ | ⟨t, -, -, he⟩
  · cases he
  · cases he
  · unfold Token.leaf at he
    split at he <;> cases he

/-! ## How deep forms lie -/

/-- All forms of a derivation that stands at level `level` are below level
    `limit`. -/
def Below (limit level : Nat) (d : Derivation) : Prop :=
  ∀ n ∈ d.levels, level + n < limit

variable {limit level : Nat}

theorem below_atom {t : Token TokenKind} {h : t.kind.isAtom = true} :
    (atom t h).Below limit level ↔ level < limit := by
  simp [Below, levels]

theorem below_list {opening closing : Token TokenKind} {items : List Derivation}
    {ho : opening.kind = .openParen} {hc : closing.kind = .closeParen} :
    (list opening items closing ho hc).Below limit level ↔
      level < limit ∧ ∀ d ∈ items, d.Below limit (level + 1) := by
  simp only [Below, levels, levelsOf_eq_flatMap, List.mem_cons, List.mem_map, List.mem_flatMap,
    forall_eq_or_imp, forall_exists_index, and_imp, Nat.add_zero]
  grind

theorem below_marked {mark : Token TokenKind} {d : Derivation} {h : mark.kind.isMark = true} :
    (marked mark d h).Below limit level ↔ level < limit ∧ d.Below limit (level + 1) := by
  simp only [Below, levels, List.mem_cons, List.mem_map, forall_eq_or_imp, forall_exists_index,
    and_imp, forall_apply_eq_imp_iff₂, Nat.add_zero]
  grind

theorem lt_of_below {d : Derivation} (h : d.Below limit level) : level < limit := by
  cases d with
  | atom t ha => exact below_atom.1 h
  | list opening items closing ho hc => exact (below_list.1 h).1
  | marked mark d hm => exact (below_marked.1 h).1

theorem forall_below_iff {ds : List Derivation} :
    (∀ d ∈ ds, d.Below limit 0) ↔ ∀ n ∈ levelsOf ds, n < limit := by
  simp only [Below, levelsOf_eq_flatMap, List.mem_flatMap, Nat.zero_add]
  constructor
  · rintro h n ⟨d, hd, hn⟩
    exact h d hd n hn
  · intro h d hd n hn
    exact h n ⟨d, hd, hn⟩

/-! ## Unambiguity -/

/-- No form begins with a closing parenthesis. -/
theorem exists_head (d : Derivation) :
    ∃ t rest, d.tokens = t :: rest ∧ t.kind ≠ .closeParen := by
  cases d with
  | atom t h => exact ⟨t, [], by rw [tokens], (TokenKind.ne_of_isAtom h).2.1⟩
  | list opening items closing ho hc => exact ⟨opening, _, by rw [tokens], by simp [ho]⟩
  | marked mark d h => exact ⟨mark, _, by rw [tokens], (TokenKind.ne_of_isMark h).2⟩

mutual

/-- No form is the beginning of another. -/
theorem eq_of_tokens_append {d d' : Derivation} {rest rest' : List (Token TokenKind)}
    (h : d.tokens ++ rest = d'.tokens ++ rest') : d = d' ∧ rest = rest' := by
  match d, d' with
  | atom t ha, atom t' ha' =>
    simp only [tokens, List.cons_append, List.nil_append, List.cons.injEq] at h
    obtain ⟨rfl, rfl⟩ := h
    exact ⟨rfl, rfl⟩
  | list opening items closing ho hc, list opening' items' closing' ho' hc' =>
    simp only [tokens, List.cons_append, List.append_assoc, List.nil_append, List.cons.injEq] at h
    obtain ⟨rfl, h⟩ := h
    obtain ⟨rfl, rfl, rfl⟩ := eq_of_yield_append h hc hc'
    exact ⟨rfl, rfl⟩
  | marked mark d hm, marked mark' d' hm' =>
    simp only [tokens, List.cons_append, List.cons.injEq] at h
    obtain ⟨rfl, h⟩ := h
    obtain ⟨rfl, rfl⟩ := eq_of_tokens_append h
    exact ⟨rfl, rfl⟩
  -- the first tokens are of different kinds
  | atom t ha, list opening' items' closing' ho' hc' =>
    obtain ⟨rfl, -⟩ := List.cons.inj h
    exact absurd ho' (TokenKind.ne_of_isAtom ha).1
  | atom t ha, marked mark' d' hm' =>
    obtain ⟨rfl, -⟩ := List.cons.inj h
    exact absurd hm' (Bool.eq_false_iff.1 (TokenKind.ne_of_isAtom ha).2.2)
  | list opening items closing ho hc, atom t' ha' =>
    obtain ⟨rfl, -⟩ := List.cons.inj h
    exact absurd ho (TokenKind.ne_of_isAtom ha').1
  | list opening items closing ho hc, marked mark' d' hm' =>
    obtain ⟨rfl, -⟩ := List.cons.inj h
    exact absurd ho (TokenKind.ne_of_isMark hm').1
  | marked mark d hm, atom t' ha' =>
    obtain ⟨rfl, -⟩ := List.cons.inj h
    exact absurd hm (Bool.eq_false_iff.1 (TokenKind.ne_of_isAtom ha').2.2)
  | marked mark d hm, list opening' items' closing' ho' hc' =>
    obtain ⟨rfl, -⟩ := List.cons.inj h
    exact absurd ho' (TokenKind.ne_of_isMark hm).1

theorem eq_of_yield_append {ds ds' : List Derivation} {t t' : Token TokenKind}
    {rest rest' : List (Token TokenKind)} (h : yield ds ++ t :: rest = yield ds' ++ t' :: rest')
    (ht : t.kind = .closeParen) (ht' : t'.kind = .closeParen) :
    ds = ds' ∧ t = t' ∧ rest = rest' := by
  match ds, ds' with
  | [], [] => simpa [yield] using h
  | d :: ds, d' :: ds' =>
    simp only [yield, List.append_assoc] at h
    obtain ⟨rfl, hrest⟩ := eq_of_tokens_append h
    obtain ⟨rfl, rfl, rfl⟩ := eq_of_yield_append hrest ht ht'
    exact ⟨rfl, rfl, rfl⟩
  -- one sequence goes on where the other is closed
  | [], d' :: ds' =>
    obtain ⟨u, us, hu, hk⟩ := d'.exists_head
    simp [yield, hu] at h
    exact absurd (h.1 ▸ ht) hk
  | d :: ds, [] =>
    obtain ⟨u, us, hu, hk⟩ := d.exists_head
    simp [yield, hu] at h
    exact absurd (h.1 ▸ ht') hk

end

/-- **The grammar is unambiguous**: the tokens determine the derivations. -/
theorem yield_injective : Function.Injective yield := by
  intro ds ds' h
  -- a closing parenthesis behind the tokens ends both sequences
  have hend := congrArg (· ++ [(⟨.closeParen, ")", 0⟩ : Token TokenKind)]) h
  exact (eq_of_yield_append hend rfl rfl).1

end Derivation

end MacroLisp
