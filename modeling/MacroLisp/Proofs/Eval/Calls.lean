/-
  Calls of built-in forms by name.

  A call takes two levels of room before the form is entered, one for the call
  itself and one for its head.  A name that is bound is looked up without any
  effect, so the call does what the form does with its arguments as they are
  written, one level deeper.

  * `runOn_eval_symbol`: a name that is bound;
  * `runOn_eval_form`, `Interpreter.eval_form`: a call of a form.
-/
import MacroLisp.Proofs.Eval.Counter

namespace MacroLisp

variable {h : Host} {m : Machine} {env : Env} {name : String}

theorem runOn_eval_symbol (h : Host) (n : Nat) {v : Value}
    (hv : m.world.lookup env name = some v) :
    (eval h (n + 1) (.symbol name) env).runOn m = (.ok v, m) := by
  have hstep : ((eval h n).step h (.symbol name) env).runOn ⟨m.world, m.depth + 1⟩ =
      (.ok v, ⟨m.world, m.depth + 1⟩) := by
    simp [Evaluator.step, EvalM.runOn_bind, hv]
  rw [eval_succ, EvalM.runOn_nested, hstep, Nat.add_sub_cancel]

/-- A call of a callable that is bound to the name at its head. -/
theorem runOn_eval_call (h : Host) (n : Nat) {c : Callable}
    (hc : m.world.lookup env name = some (.callable c)) (args : List Expr) :
    (eval h (n + 2) (.list (.symbol name :: args)) env).runOn m =
      (EvalM.nested ((eval h (n + 1)).apply h c args env)).runOn m := by
  have hhead := runOn_eval_symbol h n (m := ⟨m.world, m.depth + 1⟩) hc
  have hstep : ((eval h (n + 1)).step h (.list (.symbol name :: args)) env).runOn
      ⟨m.world, m.depth + 1⟩ =
        ((eval h (n + 1)).apply h c args env).runOn ⟨m.world, m.depth + 1⟩ := by
    rw [Evaluator.step, EvalM.runOn_bind_of_ok _ hhead]
  rw [eval_succ, EvalM.runOn_nested, EvalM.runOn_nested, hstep]

/-- A form with as many arguments as it takes is entered with them. -/
theorem Evaluator.runOn_apply_form (run : Evaluator) {f : Form} {args : List Expr}
    (hn : f.arity.accepts args.length = true) :
    (run.apply h (.builtin (.form f)) args env).runOn m = (f.call run args env).runOn m := by
  have hcheck : f.arity.check f.name args.length = .ok () := if_pos hn
  simp [Evaluator.apply, applyBuiltin, Builtin.arity, Builtin.name, hcheck, EvalM.runOn_bind]

/-- **A call of a form by name** is what the form does, one level deeper. -/
theorem runOn_eval_form (h : Host) (n : Nat) {f : Form}
    (hf : m.world.lookup env name = some (.callable (.builtin (.form f)))) {args : List Expr}
    (hn : f.arity.accepts args.length = true) :
    (eval h (n + 2) (.list (.symbol name :: args)) env).runOn m =
      (EvalM.nested (f.call (eval h (n + 1)) args env)).runOn m := by
  rw [runOn_eval_call h n hf args, EvalM.runOn_nested, Evaluator.runOn_apply_form _ hn,
    ← EvalM.runOn_nested]

namespace Interpreter

variable {i : Interpreter} {w : World}

/-- An evaluation gives back the interpreter as it is. -/
theorem interpreter_eval (h : Host) (i : Interpreter) (w : World) (e : Expr) (env : Env) :
    (i.eval h w e env).interpreter = i :=
  interpreter_perform (eval_atDepth h i.room i.depth e env) w

/-- An interpreter with room for a call and its head calls a form by name. -/
theorem eval_form (h : Host) (hroom : 2 ≤ i.room) {f : Form}
    (hf : w.lookup env name = some (.callable (.builtin (.form f)))) {args : List Expr}
    (hn : f.arity.accepts args.length = true) {r : Except EvalError Value}
    (hr : (f.call (MacroLisp.eval h (i.room - 1)) args env).runOn ⟨w, i.depth + 1⟩ = (r, m)) :
    i.eval h w (.list (.symbol name :: args)) env = ⟨r, i, m.world⟩ := by
  have hcall : (MacroLisp.eval h i.room (.list (.symbol name :: args)) env).runOn ⟨w, i.depth⟩ =
      (r, ⟨m.world, m.depth - 1⟩) := by
    obtain ⟨n, hroom⟩ := Nat.exists_eq_add_of_le' hroom
    rw [hroom] at hr ⊢
    rw [runOn_eval_form h n hf hn, EvalM.runOn_nested]
    exact congrArg (fun o => (o.1, (⟨o.2.world, o.2.depth - 1⟩ : Machine))) hr
  have hi := interpreter_eval h i w (.list (.symbol name :: args)) env
  rw [eval, perform, hcall] at hi ⊢
  exact congrArg (⟨r, ·, m.world⟩ : Interpreter → Outcome EvalError Value) hi

end Interpreter

end MacroLisp
