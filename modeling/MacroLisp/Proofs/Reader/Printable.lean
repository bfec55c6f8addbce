/-
  The trees that are read are the trees that can be written down.

  A tree is `Printable` if its numbers are integers that are not negative, its
  strings hold no quote, and its symbols are names; its depth counts the lists
  around one another.

  * `below_iff_depth`: the levels of a derivation and the depth of its tree are
    the same measure, for a quote mark counts as the list that it stands for;
  * `printable_form`: a tree without a double that has a derivation is
    printable.
-/
import MacroLisp.Proofs.Reader.Acceptance

namespace MacroLisp

/-! ## Printable trees -/

namespace Expr

/-- The trees whose text is read as themselves. -/
inductive Printable : Expr → Prop where
  | int (i : Int64) (h : 0 ≤ i.toInt) : Printable (.number (.int i))
  | string (s : String) (h : '"' ∉ s.toList) : Printable (.string s)
  | operator (c : Char) (h : TokenKind.isOperator c = true) :
      Printable (.symbol (String.ofList [c]))
  | symbol (c : Char) (cs : List Char) (hc : TokenKind.isSymbolStart c = true)
      (hcs : ∀ x ∈ cs, TokenKind.isSymbolRest x = true) :
      Printable (.symbol (String.ofList (c :: cs)))
  | list (items : List Expr) (h : ∀ e ∈ items, Printable e) : Printable (.list items)

mutual

/-- How deep a tree is: an atom and the empty list are one deep, and any other
    list is one deeper than its deepest item. -/
def depth : Expr → Nat
  | list items => 1 + greatestDepth items
  | _ => 1

/-- The depth of the deepest tree. -/
def greatestDepth : List Expr → Nat
  | [] => 0
  | e :: es => max (depth e) (greatestDepth es)

end

theorem depth_pos (e : Expr) : 0 < e.depth := by
  cases e with
  | list items => rw [depth]; omega
  | _ => exact Nat.one_pos

theorem greatestDepth_le_iff {es : List Expr} {n : Nat} :
    greatestDepth es ≤ n ↔ ∀ e ∈ es, e.depth ≤ n := by
  induction es with
  | nil => simp [greatestDepth]
  | cons e es ih => rw [greatestDepth, Nat.max_le, ih, List.forall_mem_cons]

end Expr

theorem Token.depth_leaf (t : Token TokenKind) : t.leaf.depth = 1 := by
  unfold leaf
  split <;> rfl

/-- An atom that is no double is printable. -/
theorem Token.printable_leaf {t : Token TokenKind} (hs : t.kind.Shape t.text.toList)
    (ha : t.kind.isAtom = true) (hf : ∀ x, t.leaf ≠ .number (.float x)) : t.leaf.Printable := by
  cases hk : t.kind with
  | number =>
    have hleaf := leaf_eq_ofNat hk
    unfold Number.ofNat at hleaf
    split at hleaf
    · rename_i i hi
      have hnat := int64?_eq_some_iff.1 hi
      rw [hleaf]
      exact .int i (by omega)
    · exact absurd hleaf (hf _)
  | string =>
    obtain ⟨content, hq, -, hleaf⟩ := leaf_of_string hs hk
    rw [hleaf]
    exact .string content hq
  | symbol =>
    rw [hk] at hs
    obtain ⟨c, cs, hc, hcs, ht⟩ := (TokenKind.shape_of_ne (by decide)).1 hs
    have hleaf : t.leaf = .symbol (String.ofList (c :: cs)) := by
      rw [← ht, String.ofList_toList]
      simp [leaf, hk]
    rw [hleaf]
    exact .symbol c cs hc hcs
  | operator =>
    rw [hk] at hs
    obtain ⟨c, cs, hc, hcs, ht⟩ := (TokenKind.shape_of_ne (by decide)).1 hs
    -- nothing continues an operator
    obtain rfl : cs = [] := List.eq_nil_iff_forall_not_mem.2 fun x hx => Bool.false_ne_true (hcs x hx)
    have hleaf : t.leaf = .symbol (String.ofList [c]) := by
      rw [← ht, String.ofList_toList]
      simp [leaf, hk]
    rw [hleaf]
    exact .operator c hc
  | _ => simp [hk, TokenKind.isAtom] at ha

theorem TokenKind.printable_word (kind : TokenKind) : (Expr.symbol kind.word).Printable := by
  have hquote : (Expr.symbol "quote").Printable :=
    .symbol 'q' ['u', 'o', 't', 'e'] rfl (List.all_eq_true.1 rfl)
  have hbackquote : (Expr.symbol "backquote").Printable :=
    .symbol 'b' ['a', 'c', 'k', 'q', 'u', 'o', 't', 'e'] rfl (List.all_eq_true.1 rfl)
  have hunquote : (Expr.symbol "unquote").Printable :=
    .symbol 'u' ['n', 'q', 'u', 'o', 't', 'e'] rfl (List.all_eq_true.1 rfl)
  cases kind with
  | quote => exact hquote
  | backquote => exact hbackquote
  | _ => exact hunquote

/-! ## The trees of derivations -/

namespace Derivation

/-- **Levels are depth**: a quote mark counts as the list that it stands for. -/
theorem below_iff_depth {d : Derivation} {limit level : Nat} :
    d.Below limit level ↔ level + d.form.depth ≤ limit := by
  induction d using induction generalizing level with
  | atom t h =>
    rw [below_atom, form, Token.depth_leaf]
    omega
  | list opening items closing ho hc ih =>
    have hitems : (∀ d ∈ items, d.Below limit (level + 1)) ↔
        ∀ d ∈ items, level + 1 + d.form.depth ≤ limit :=
      forall_congr' fun d => forall_congr' fun hd => ih d hd
    rw [below_list, hitems, form, Expr.depth, forms_eq_map]
    constructor
    · rintro ⟨hl, hd⟩
      have hgreatest : Expr.greatestDepth (items.map form) ≤ limit - (level + 1) := by
        rw [Expr.greatestDepth_le_iff, List.forall_mem_map]
        intro d hmem
        have := hd d hmem
        omega
      omega
    · intro hle
      refine ⟨by omega, fun d hmem => ?_⟩
      have := Expr.greatestDepth_le_iff.1 le_rfl d.form (List.mem_map_of_mem hmem)
      omega
  | marked mark d h ih =>
    have hpos := d.form.depth_pos
    rw [below_marked, ih]
    simp only [form, Expr.depth, Expr.greatestDepth]
    omega

/-- **A tree that has a derivation is printable**, if there is no double in it. -/
theorem printable_form {d : Derivation} (hs : ∀ t ∈ d.tokens, t.kind.Shape t.text.toList)
    (hf : ∀ x, ¬ (Expr.number (.float x)).Occurs d.form) : d.form.Printable := by
  induction d using induction with
  | atom t ha =>
    refine Token.printable_leaf (hs t (by simp [tokens])) ha fun x hx => hf x ?_
    rw [form, hx]
    exact .self
  | list opening items closing ho hc ih =>
    rw [form, forms_eq_map]
    refine .list _ fun e he => ?_
    obtain ⟨d, hd, rfl⟩ := List.mem_map.1 he
    refine ih d hd (fun t ht => hs t (by simp [tokens, mem_yield hd ht])) fun x hx => hf x ?_
    rw [form, forms_eq_map]
    exact .item he hx
  | marked mark d h ih =>
    have hd : d.form.Printable :=
      ih (fun t ht => hs t (by simp [tokens, ht])) fun x hx => hf x (.item (by simp) hx)
    refine .list _ fun e he => ?_
    simp only [List.mem_cons, List.not_mem_nil, or_false] at he
    rcases he with rfl | rfl
    · exact mark.kind.printable_word
    · exact hd

/-- A double in the tree comes from digits that are too large for an integer. -/
theorem exists_large_of_occurs {d : Derivation} {x : Float}
    (h : (Expr.number (.float x)).Occurs d.form) :
    ∃ t ∈ d.tokens, t.kind = .number ∧ Int64.maxValue.toInt < t.decimal := by
  rcases exists_leaf_of_occurs h with ⟨items, he⟩ | ⟨name, he⟩ | ⟨t, ht, ha, he⟩
  · cases he
  · cases he
  · have hk : t.kind = .number := by
      unfold Token.leaf at he
      split at he
      · assumption
      · cases he
      · cases he
    exact ⟨t, ht, hk, (Token.leaf_of_number hk).2.1 ⟨x, he.symm⟩⟩

end Derivation

/-! ## The trees that are read -/

theorem Derives.depth_le {source : String} {ds : List Derivation} (h : Derives source ds)
    {d : Derivation} (hd : d ∈ ds) : d.form.depth ≤ Reader.maxNesting := by
  have hbelow := Derivation.below_iff_depth.1 (Derivation.forall_below_iff.2 h.shallow d hd)
  omega

theorem Derives.shape {source : String} {ds : List Derivation} (h : Derives source ds)
    {d : Derivation} (hd : d ∈ ds) : ∀ t ∈ d.tokens, t.kind.Shape t.text.toList :=
  fun t ht => shape_of_mem_significant t (h.yield_eq ▸ Derivation.mem_yield hd ht)

theorem depth_le_of_read {source : String} {fs : List Expr} (h : read source = .ok fs) {e : Expr}
    (he : e ∈ fs) : e.depth ≤ Reader.maxNesting := by
  obtain ⟨ds, hds, rfl⟩ := read_eq_ok_iff.1 h
  obtain ⟨d, hd, rfl⟩ := List.mem_map.1 he
  exact hds.depth_le hd

/-- What is read is printable and no deeper than the reader allows, up to
    doubles. -/
theorem printable_of_read {source : String} {fs : List Expr} (h : read source = .ok fs) {e : Expr}
    (he : e ∈ fs) (hf : ∀ x, ¬ (Expr.number (.float x)).Occurs e) :
    e.Printable ∧ e.depth ≤ Reader.maxNesting := by
  obtain ⟨ds, hds, rfl⟩ := read_eq_ok_iff.1 h
  obtain ⟨d, hd, rfl⟩ := List.mem_map.1 he
  exact ⟨Derivation.printable_form (hds.shape hd) hf, hds.depth_le hd⟩

/-- No tree that is read holds a value. -/
theorem not_occurs_const_of_read {source : String} {fs : List Expr} (h : read source = .ok fs)
    {e : Expr} (he : e ∈ fs) (v : Value) : ¬ (Expr.const v).Occurs e := by
  obtain ⟨ds, -, rfl⟩ := read_eq_ok_iff.1 h
  obtain ⟨d, -, rfl⟩ := List.mem_map.1 he
  exact d.not_occurs_const v

/-- A text without large numbers is read without doubles. -/
theorem not_occurs_float_of_read {source : String} {fs : List Expr} (h : read source = .ok fs)
    (hn : ∀ t ∈ (Tiling.ofSource source).significant, t.kind = .number →
      t.decimal ≤ Int64.maxValue.toInt) {e : Expr} (he : e ∈ fs) (x : Float) :
    ¬ (Expr.number (.float x)).Occurs e := by
  intro hx
  obtain ⟨ds, hds, rfl⟩ := read_eq_ok_iff.1 h
  obtain ⟨d, hd, rfl⟩ := List.mem_map.1 he
  obtain ⟨t, ht, hk, hlarge⟩ := Derivation.exists_large_of_occurs hx
  have hle := hn t (hds.yield_eq ▸ Derivation.mem_yield hd ht) hk
  omega

end MacroLisp
