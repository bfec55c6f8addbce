/-
  How many arguments a callable takes.
-/

namespace MacroLisp

inductive Arity where
  | exactly (n : Nat)
  | atLeast (least : Nat)
  | between (least most : Nat)
deriving DecidableEq, Repr

namespace Arity

/-- Are `n` arguments admitted? -/
def accepts : Arity → Nat → Bool
  | exactly m, n => n == m
  | atLeast least, n => decide (least ≤ n)
  | between least most, n => decide (least ≤ n) && decide (n ≤ most)

def text : Arity → String
  | exactly m => toString m
  | atLeast least => "at least " ++ toString least
  | between least most => toString least ++ " to " ++ toString most

@[simp] theorem accepts_exactly {m n : Nat} : (exactly m).accepts n = true ↔ n = m := by
  simp [accepts]

@[simp] theorem accepts_atLeast {least n : Nat} : (atLeast least).accepts n = true ↔ least ≤ n := by
  simp [accepts]

@[simp] theorem accepts_between {least most n : Nat} :
    (between least most).accepts n = true ↔ least ≤ n ∧ n ≤ most := by
  simp [accepts]

end Arity

end MacroLisp
