/-
  Data in code.

  A value that is put into code stands there as the tree that it is read as,
  and as a constant where it has no tree.  Nothing is lost on the way: taken as
  data again, the tree is the value, and two trees are equal exactly if the
  values are.  So a form that quotes an embedded value has that value.

  * `Value.ofExpr_ofValue`: there and back;
  * `Expr.beq_ofValue`: the two equalities;
  * `Interpreter.eval_quoted_value`: the main statement.
-/
import MacroLisp.Proofs.Data.Parts
import MacroLisp.Proofs.Eval.Calls

namespace MacroLisp

/-- **A value in code is the same value when it is taken as data.** -/
theorem Value.ofExpr_ofValue (v : Value) : ofExpr (.ofValue v) = v := by
  induction v using Value.induction with
  | list items ih =>
    rw [Expr.ofValue, ofExpr, Expr.ofValues_eq_map, ofExprs_eq_map, List.map_map]
    congr 1
    exact (List.map_congr_left ih).trans (List.map_id items)
  | _ => rfl

namespace Expr

theorem beqList_ofValues {as : List Value}
    (has : ∀ a ∈ as, ∀ b : Value, (ofValue a == ofValue b) = (a == b)) (bs : List Value) :
    Expr.beqList (ofValues as) (ofValues bs) = Value.beqList as bs := by
  induction as generalizing bs with
  | nil => cases bs <;> rfl
  | cons a as ih =>
    cases bs with
    | nil => rfl
    | cons b bs =>
      have hhead : Expr.beq (ofValue a) (ofValue b) = Value.beq a b := has a (by simp) b
      have hrest := ih (fun a' ha' => has a' (by simp [ha'])) bs
      rw [ofValues, ofValues, Expr.beqList, Value.beqList, hhead, hrest]

/-- **Code and data have the same equality.**  Values without a tree are compared
    as values, and never with a tree. -/
theorem beq_ofValue (a b : Value) : (ofValue a == ofValue b) = (a == b) := by
  induction a using Value.induction generalizing b with
  | list as ih =>
    cases b with
    | list bs => exact beqList_ofValues ih bs
    | _ => rfl
  | _ => cases b <;> rfl

end Expr

namespace Interpreter

/-- **Data that is put into code comes back as the same data.**
    A value in code is that value when it is taken as data.  Where the name of
    the form is bound to it, and there is room for the call and its head, a quoted
    value evaluates to itself, and nothing changes.  Values in code are equal
    exactly if the values are. -/
theorem eval_quoted_value :
    (∀ v : Value, Value.ofExpr (.ofValue v) = v) ∧
    (∀ (h : Host) (i : Interpreter) (w : World) (env : Env) (v : Value), 2 ≤ i.room →
      w.lookup env "quote" = some (.callable (.builtin (.form .quote))) →
      i.eval h w (.list [.symbol "quote", .ofValue v]) env = ⟨.ok v, i, w⟩) ∧
    ∀ a b : Value, (Expr.ofValue a == Expr.ofValue b) = (a == b) := by
  refine ⟨Value.ofExpr_ofValue, fun h i w env v hroom hquote => ?_, Expr.beq_ofValue⟩
  refine eval_form h hroom hquote rfl (m := ⟨w, i.depth + 1⟩) ?_
  rw [Form.call, Value.ofExpr_ofValue, EvalM.runOn_pure]

/-- A list that looks like a call, with an operation and a truth value in it, at
    the least limit. -/
theorem eval_quoted_value_call :
    let w : World := ⟨#[.default], #[], ""⟩
    let v : Value := .list [.symbol "quote", .callable (.builtin (.form .unquote)),
      .list [.bool true, .string "a", .number (.int (-1))]]
    2 ≤ (idle 2).room ∧
      w.lookup ⟨0⟩ "quote" = some (.callable (.builtin (.form .quote))) ∧
      (idle 2).eval .none w (.list [.symbol "quote", .ofValue v]) ⟨0⟩ = ⟨.ok v, idle 2, w⟩ := by
  intro w v
  have hquote : w.lookup ⟨0⟩ "quote" = some (.callable (.builtin (.form .quote))) := by cbv
  exact ⟨by decide, hquote, eval_quoted_value.2.1 .none (idle 2) w ⟨0⟩ v (by decide) hquote⟩

end Interpreter

end MacroLisp
