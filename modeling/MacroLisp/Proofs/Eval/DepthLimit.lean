/-
  The limit on the depth of evaluations.

  A run that does not hit the limit is the same run under every higher limit:
  nothing in the language looks at the depth, and nothing that fails for want
  of room goes on as if it had not.

  * `refinement`: with more room an evaluation does the same, unless there was
    too little, as a congruence;
  * `Interpreter.evaluate_of_le`: the main statement.
-/
import MacroLisp.Interpreter
import MacroLisp.Proofs.Eval.Congruence
import Mathlib

namespace MacroLisp

/-- The evaluation `act'` does what `act` does, wherever `act` has enough room. -/
def EvalM.Refines {α : Type} (act act' : EvalM α) : Prop :=
  ∀ m, NotExhausted (act.runOn m).1 → act'.runOn m = act.runOn m

namespace EvalM.Refines

variable {α β : Type} {act act' : EvalM α}

protected theorem refl (act : EvalM α) : act.Refines act := fun _ _ => rfl

theorem bind {next next' : α → EvalM β} (h : act.Refines act')
    (hn : ∀ a, (next a).Refines (next' a)) : (act >>= next).Refines (act' >>= next') := by
  intro m hm
  rcases hr : act.runOn m with ⟨e | a, m₁⟩
  · -- the failure of the first part is the failure of the whole
    rw [runOn_bind_of_error next hr] at hm ⊢
    have he : NotExhausted (act.runOn m).1 := by
      rw [hr]; intro depth hd; cases hd; exact hm depth rfl
    rw [runOn_bind_of_error next' ((h m he).trans hr)]
  · rw [runOn_bind_of_ok next hr] at hm ⊢
    have ha : NotExhausted (act.runOn m).1 := by rw [hr]; exact notExhausted_ok a
    rw [runOn_bind_of_ok next' ((h m ha).trans hr)]
    exact hn a m₁ hm

theorem nested (h : act.Refines act') : act.nested.Refines act'.nested := by
  intro m hm
  have hin := h ⟨m.world, m.depth + 1⟩ hm
  rw [runOn_nested, runOn_nested, hin]

theorem exhausted (act : EvalM α) : (EvalM.exhausted : EvalM α).Refines act :=
  fun m hm => absurd rfl (hm m.depth)

end EvalM.Refines

/-- **More room makes no other difference.** -/
def refinement : Evaluator.Congruence where
  rel := fun _ _ act act' => act.Refines act'
  ofExcept := fun _ => .refl _
  read := fun _ => .refl _
  bind := fun h hn => h.bind hn
  define := fun _ _ => .refl _
  close := fun _ _ => .refl _
  print := fun _ => .refl _
  inFrame := fun _ _ _ _ hn => (EvalM.Refines.refl _).bind hn

/-- An evaluation that has enough room does the same with more. -/
theorem eval_refines (h : Host) {room room' : Nat} (hle : room ≤ room') (e : Expr) (env : Env) :
    (eval h room e env).Refines (eval h room' e env) := by
  induction room generalizing room' e env with
  | zero => exact EvalM.Refines.exhausted _
  | succ room ih =>
    obtain ⟨room', rfl⟩ : ∃ n, room' = n + 1 := ⟨room' - 1, by omega⟩
    have hin : refinement.Relates (eval h room) (eval h room') := fun e env => ih (by omega) e env
    exact EvalM.Refines.nested (Evaluator.Congruence.step hin h e env)

/-- **The limit on the depth only ever cuts a run short.**
    If a run of a program does not end for want of room, then under a higher
    limit it has the same result, and leaves the same world behind: the same
    bindings in every table, the same closures, and the same text printed. -/
theorem Interpreter.evaluate_of_le (h : Host) {maxDepth maxDepth' : Nat} (hle : maxDepth ≤ maxDepth')
    (w : World) (es : List Expr) (env : Env)
    (hr : NotExhausted ((idle maxDepth).evaluate h w es env).result) :
    ((idle maxDepth').evaluate h w es env).result = ((idle maxDepth).evaluate h w es env).result ∧
      ((idle maxDepth').evaluate h w es env).world =
        ((idle maxDepth).evaluate h w es env).world := by
  have hin : refinement.Relates (MacroLisp.eval h maxDepth) (MacroLisp.eval h maxDepth') :=
    fun e env => eval_refines h hle e env
  have hseq : refinement.rel env ((MacroLisp.eval h maxDepth).sequence es env)
      ((MacroLisp.eval h maxDepth').sequence es env) := Evaluator.Congruence.sequence hin es
  have hrun := hseq ⟨w, 0⟩ hr
  exact ⟨congrArg Prod.fst hrun, congrArg (·.2.world) hrun⟩

/-- A macro that doubles its argument, and a function that uses it: four
    nested evaluations are enough, so two thousand give the same. -/
theorem Interpreter.evaluate_of_le_twice :
    let twice := Expr.list [.symbol "backquote", .list [.symbol "+",
      .list [.symbol "unquote", .symbol "e"], .list [.symbol "unquote", .symbol "e"]]]
    let program := [
      Expr.list [.symbol "defmacro", .symbol "twice", .list [.symbol "e"], twice],
      .list [.symbol "fn", .symbol "f", .list [.symbol "x"], .list [.symbol "twice", .symbol "x"]],
      .list [.symbol "f", .number (.int 3)]]
    let w : World := ⟨#[.default], #[], ""⟩
    ((idle 4).evaluate .none w program ⟨0⟩).result = .ok (.number (.int 6)) ∧
      ((idle 2000).evaluate .none w program ⟨0⟩).result =
        ((idle 4).evaluate .none w program ⟨0⟩).result ∧
      ((idle 2000).evaluate .none w program ⟨0⟩).world =
        ((idle 4).evaluate .none w program ⟨0⟩).world := by
  intro twice program w
  have hr : ((idle 4).evaluate .none w program ⟨0⟩).result = .ok (.number (.int 6)) := by cbv
  exact ⟨hr, evaluate_of_le .none (by decide) w program ⟨0⟩ (hr ▸ notExhausted_ok _)⟩

end MacroLisp
