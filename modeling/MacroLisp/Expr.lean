/-
  Syntax trees, and their two-way traffic with values.

  Quoted syntax is data (`Value.ofExpr`), and what a macro returns is read
  back as syntax (`Expr.ofValue`): numbers, strings, symbols and lists have a
  form on both sides, and all other values travel as constants.
-/
import MacroLisp.Value

namespace MacroLisp

inductive Expr where
  | number (n : Number)
  | string (s : String)
  | symbol (name : String)
  | list (items : List Expr)
  /-- A value that a macro has put into code; it is never read from source. -/
  | const (v : Value)

namespace Expr

instance : Inhabited Expr := ⟨list []⟩

/-! ## Equality -/

mutual

protected def beq : Expr → Expr → Bool
  | number l, number r => l == r
  | string l, string r => l == r
  | symbol l, symbol r => l == r
  | list l, list r => Expr.beqList l r
  | const l, const r => l == r
  | _, _ => false

/-- Equality item by item. -/
protected def beqList : List Expr → List Expr → Bool
  | [], [] => true
  | l :: ls, r :: rs => Expr.beq l r && Expr.beqList ls rs
  | _, _ => false

end

instance : BEq Expr := ⟨Expr.beq⟩

/-! ## Text -/

mutual

/-- The text of a tree; strings are written with their quotes. -/
def text : Expr → String
  | number n => n.text
  | string s => "\"" ++ s ++ "\""
  | symbol name => name
  | list items => Value.listText (texts items)
  | const v => v.text

/-- The text of each item. -/
def texts : List Expr → List String
  | [] => []
  | item :: items => text item :: texts items

end

theorem texts_eq_map (items : List Expr) : texts items = items.map text := by
  induction items with
  | nil => rfl
  | cons e es ih => rw [texts, ih, List.map_cons]

theorem text_list (items : List Expr) : text (list items) = Value.listText (items.map text) := by
  rw [text, texts_eq_map]

/-! ## Data as syntax -/

mutual

/-- A value read as code. -/
def ofValue : Value → Expr
  | .number n => number n
  | .string s => string s
  | .symbol name => symbol name
  | .list items => list (ofValues items)
  | v => const v

/-- Each value read as code. -/
def ofValues : List Value → List Expr
  | [] => []
  | item :: items => ofValue item :: ofValues items

end

theorem ofValues_eq_map (items : List Value) : ofValues items = items.map ofValue := by
  induction items with
  | nil => rfl
  | cons v vs ih => rw [ofValues, ih, List.map_cons]

end Expr

namespace Value

/-! ## Syntax as data -/

mutual

/-- Quoted syntax as a value. -/
def ofExpr : Expr → Value
  | .number n => number n
  | .string s => string s
  | .symbol name => symbol name
  | .list items => list (ofExprs items)
  | .const v => v

/-- Each tree as a value. -/
def ofExprs : List Expr → List Value
  | [] => []
  | item :: items => ofExpr item :: ofExprs items

end

theorem ofExprs_eq_map (items : List Expr) : ofExprs items = items.map ofExpr := by
  induction items with
  | nil => rfl
  | cons e es ih => rw [ofExprs, ih, List.map_cons]

end Value

end MacroLisp
