/-
  The operations on arguments as they are written.

  Forms evaluate what they need with the evaluator they are given (`run`).
  Names and parameter lists are checked before anything is evaluated.
-/
import MacroLisp.Eval.Machine

namespace MacroLisp

namespace Evaluator

variable (run : Evaluator)

/-- The values of expressions, from left to right. -/
def arguments (es : List Expr) (env : Env) : EvalM (List Value) :=
  es.mapM (run · env)

/-- Evaluates expressions in order; the last value counts. -/
def sequence (es : List Expr) (env : Env) : EvalM Value :=
  es.foldlM (fun _ e => run e env) .nil

/-- The value of an expression that may be missing. -/
def unquote (args : List Expr) (env : Env) : EvalM Value :=
  match args with
  | [] => return .nil
  | [e] => run e env
  | _ => throw (.defect (.form .unquote))

/-! ## Templates -/

/-- The argument of a hole.  A list is a hole if its head is a symbol whose
    value is, at this point, the built-in `unquote`. -/
def holeArguments? (items : List Expr) (env : Env) : EvalM (Option (List Expr)) :=
  match items with
  | .symbol head :: args => do
    match ← EvalM.lookup env head with
    | some (.callable (.builtin (.form .unquote))) => return some args
    | _ => return none
  | _ => return none

/-- The value of a hole. -/
def fillHole (args : List Expr) (env : Env) : EvalM Value := do
  EvalM.ofExcept (Form.unquote.arity.check Form.unquote.name args.length)
  unquote run args env

mutual

/-- The value of a template: its tree as data, with the values of the holes in
    their places. -/
def fill (template : Expr) (env : Env) : EvalM Value :=
  match template with
  | .list items => do
    match ← holeArguments? items env with
    | some args => fillHole run args env
    | none => return .list (← fillItems items env)
  | e => return .ofExpr e

/-- The values of the items of a template, from left to right. -/
def fillItems (items : List Expr) (env : Env) : EvalM (List Value) :=
  match items with
  | [] => return []
  | item :: items => do
    let v ← fill item env
    let vs ← fillItems items env
    return v :: vs

end

end Evaluator

namespace Form

/-! ## Shapes -/

/-- The name that `e` is, for the form `f`. -/
def symbolName (f : Form) : Expr → Except EvalError String
  | .symbol name => .ok name
  | e => .error (.malformed f (.expectedSymbol e))

/-- The names that `e` lists, for the form `f`. -/
def parameters (f : Form) : Expr → Except EvalError (List String)
  | .list items => items.mapM f.symbolName
  | e => .error (.malformed f (.expectedParameters e))

/-- The name of a closure that is defined without one. -/
def unnamed : String := "lambda"

/-! ## All forms -/

/-- Makes a callable out of a closure, and binds it where it is defined. -/
def defineClosure (make : ClosureRef → Callable) (name : String) (params : List String)
    (body : Expr) (env : Env) : EvalM Value := do
  let ref ← EvalM.close name ⟨params, body, env⟩
  EvalM.define env name (.callable (make ref))

/-- Calls a form. -/
def call (run : Evaluator) (f : Form) (args : List Expr) (env : Env) : EvalM Value :=
  match f, args with
  | define, [target, e] => do
    let name ← EvalM.ofExcept (define.symbolName target)
    let v ← run e env
    EvalM.define env name v
  | lambda, [params, body] => do
    let params ← EvalM.ofExcept (lambda.parameters params)
    let ref ← EvalM.close unnamed ⟨params, body, env⟩
    return .callable (.function ref)
  | defineFunction, [target, params, body] => do
    let name ← EvalM.ofExcept (defineFunction.symbolName target)
    let params ← EvalM.ofExcept (defineFunction.parameters params)
    defineClosure .function name params body env
  | defineMacro, [target, params, body] => do
    let name ← EvalM.ofExcept (defineMacro.symbolName target)
    let params ← EvalM.ofExcept (defineMacro.parameters params)
    defineClosure .expander name params body env
  | conditional, [test, consequent, alternative] => do
    if (← run test env).isTruthy then run consequent env else run alternative env
  | quote, [] => return .nil
  | quote, [e] => return .ofExpr e
  | backquote, [] => return .nil
  | backquote, [template] => run.fill template env
  | unquote, args => run.unquote args env
  | sequence, args => run.sequence args env
  | f, _ => throw (.defect (.form f))

end Form

end MacroLisp
