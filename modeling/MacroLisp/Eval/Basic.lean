/-
  Evaluation.

  The evaluator is tied to itself by the room that is left: the number of
  evaluations that may still be nested in one another.  `Evaluator.step` is
  one level of it, with the evaluator for everything inside as a parameter,
  and `eval` refuses when there is no room.

  * A list evaluates its head, which must be callable, and applies it to the
    rest of the list as it is written.
  * A function evaluates its arguments in the caller's scope and its body in
    a new frame; a macro gets its arguments as data, and what its body returns
    is read as code and evaluated in the caller's scope.
-/
import MacroLisp.Eval.Form
import MacroLisp.Eval.Primitive

namespace MacroLisp

namespace Evaluator

variable (h : Host) (run : Evaluator)

/-- The code that a closure makes of unevaluated arguments. -/
def expand (ref : ClosureRef) (args : List Expr) : EvalM Expr := do
  let c ← EvalM.closure ref
  EvalM.ofExcept ((Arity.exactly c.params.length).check ref.name args.length)
  let frame ← EvalM.frame c (Value.ofExprs args)
  return .ofValue (← run c.body frame)

/-- Applies a function to arguments as they are written. -/
def applyFunction (ref : ClosureRef) (args : List Expr) (env : Env) : EvalM Value := do
  let c ← EvalM.closure ref
  EvalM.ofExcept ((Arity.exactly c.params.length).check ref.name args.length)
  let vs ← run.arguments args env
  let frame ← EvalM.frame c vs
  run c.body frame

/-- Applies a built-in operation to arguments as they are written. -/
def applyBuiltin (b : Builtin) (args : List Expr) (env : Env) : EvalM Value := do
  EvalM.ofExcept (b.arity.check b.name args.length)
  match b with
  | .form f => f.call run args env
  | .primitive p => p.call h (← run.arguments args env)

/-- Applies a callable to arguments as they are written. -/
def apply (c : Callable) (args : List Expr) (env : Env) : EvalM Value :=
  match c with
  | .builtin b => applyBuiltin h run b args env
  | .function ref => run.applyFunction ref args env
  | .expander ref => do
    let e ← run.expand ref args
    run e env

/-- One level of evaluation; `run` evaluates what is inside. -/
def step (e : Expr) (env : Env) : EvalM Value :=
  match e with
  | .number n => return .number n
  | .string s => return .string s
  | .const v => return v
  | .symbol name => do
    match ← EvalM.lookup env name with
    | some v => return v
    | none => throw (.unboundSymbol name)
  | .list [] => return .nil
  | .list (head :: args) => do
    match ← run head env with
    | .callable c => run.apply h c args env
    | v => throw (.notCallable v)

end Evaluator

/-- The evaluator that may nest `room` evaluations. -/
def eval (h : Host) : Nat → Evaluator
  | 0, _, _ => EvalM.exhausted
  | room + 1, e, env => EvalM.nested (Evaluator.step h (eval h room) e env)

theorem eval_zero (h : Host) (e : Expr) (env : Env) : eval h 0 e env = EvalM.exhausted := rfl

theorem eval_succ (h : Host) (room : Nat) (e : Expr) (env : Env) :
    eval h (room + 1) e env = EvalM.nested (Evaluator.step h (eval h room) e env) := rfl

end MacroLisp
