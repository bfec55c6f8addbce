/-
  Interpreters: the evaluator with a limit on its depth.

  An interpreter can be used again after anything, errors included.  Its
  operations take a world and give it back, with the result beside it.
-/
import MacroLisp.Eval.Basic
import MacroLisp.Reader.Basic

namespace MacroLisp

/-- An evaluator that nests at most `maxDepth` evaluations, of which `depth`
    are under way. -/
structure Interpreter where
  maxDepth : Nat
  depth : Nat
deriving DecidableEq, Repr

/-- What an operation of an interpreter leaves behind. -/
structure Outcome (ε α : Type) where
  result : Except ε α
  interpreter : Interpreter
  world : World

/-- Why the source text of a program has no value. -/
inductive ProgramError where
  | read (e : ReadError)
  | eval (e : EvalError)

def ProgramError.message : ProgramError → String
  | read e => "parse error: " ++ e.message
  | eval e => "eval error: " ++ e.message

namespace Interpreter

/-- The limit of an interpreter that is not given one. -/
def defaultMaxDepth : Nat := 2000

/-- An interpreter that is not evaluating. -/
def idle (maxDepth : Nat) : Interpreter := ⟨maxDepth, 0⟩

/-- An idle interpreter with the default limit. -/
def default : Interpreter := idle defaultMaxDepth

/-- How many evaluations may still be nested. -/
def room (i : Interpreter) : Nat :=
  i.maxDepth - i.depth

/-- Runs an evaluation on the world `w`. -/
def perform {α : Type} (i : Interpreter) (w : World) (act : EvalM α) : Outcome EvalError α :=
  let (result, m) := act.runOn ⟨w, i.depth⟩
  ⟨result, { i with depth := m.depth }, m.world⟩

section
variable {α : Type} (i : Interpreter) (w : World) (act : EvalM α)

@[simp] theorem result_perform : (i.perform w act).result = (act.runOn ⟨w, i.depth⟩).1 := rfl

@[simp] theorem world_perform : (i.perform w act).world = (act.runOn ⟨w, i.depth⟩).2.world := rfl

end

variable (h : Host) (i : Interpreter) (w : World)

/-- The value of an expression. -/
def eval (e : Expr) (env : Env) : Outcome EvalError Value :=
  i.perform w (MacroLisp.eval h i.room e env)

/-- Evaluates expressions in order; the last value counts. -/
def evaluate (es : List Expr) (env : Env) : Outcome EvalError Value :=
  i.perform w ((MacroLisp.eval h i.room).sequence es env)

/-- The values of expressions. -/
def evalArguments (es : List Expr) (env : Env) : Outcome EvalError (List Value) :=
  i.perform w ((MacroLisp.eval h i.room).arguments es env)

/-- Applies a callable to unevaluated arguments. -/
def apply (c : Callable) (args : List Expr) (env : Env) : Outcome EvalError Value :=
  i.perform w ((MacroLisp.eval h i.room).apply h c args env)

/-- The code that a closure makes of unevaluated arguments. -/
def expand (ref : ClosureRef) (args : List Expr) : Outcome EvalError Expr :=
  i.perform w ((MacroLisp.eval h i.room).expand ref args)

/-- Reads a program and evaluates it.  A program that cannot be read changes
    nothing. -/
def run (source : String) (env : Env) : Outcome ProgramError Value :=
  match read source with
  | .error e => ⟨.error (.read e), i, w⟩
  | .ok es =>
    let o := i.evaluate h w es env
    ⟨o.result.mapError .eval, o.interpreter, o.world⟩

end Interpreter

/-- Reads a program and evaluates it with an interpreter of its own. -/
def evalSource (h : Host) (w : World) (source : String) (env : Env) :
    Except ProgramError Value × World :=
  let o := Interpreter.default.run h w source env
  (o.result, o.world)

/-- Evaluates expressions in order with an interpreter of their own. -/
def evaluate (h : Host) (w : World) (es : List Expr) (env : Env) : Except EvalError Value × World :=
  let o := Interpreter.default.evaluate h w es env
  (o.result, o.world)

end MacroLisp
