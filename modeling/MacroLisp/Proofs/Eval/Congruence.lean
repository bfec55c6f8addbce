/-
  Relations that evaluation respects.

  A congruence relates two evaluations in a scope.  It is closed under what
  evaluations are made of: results, the operations on the world, one thing
  after the other, and bodies that run in a frame of their own.  Whatever two
  evaluators it relates, it relates all that the language does with them
  (`step`), so a property of all runs needs a congruence and an induction on
  the room for evaluations, and no second walk through the evaluator.

  Only the refusal to go deeper is left to the relation itself: no operation
  of the language makes that error (`NotExhausted`).
-/
import MacroLisp.Proofs.Eval.Results

namespace MacroLisp

/-! ## Errors of the operations -/

/-- A result that is not the refusal to evaluate any deeper. -/
def NotExhausted {α : Type} (r : Except EvalError α) : Prop :=
  ∀ depth, r ≠ .error (.stackExhausted depth)

theorem notExhausted_ok {α : Type} (a : α) : NotExhausted (.ok a) := nofun

/-- An ordinary error is no want of room. -/
theorem Yields.notExhausted {α : Type} {post : α → Prop} {r : Except EvalError α}
    (hr : Yields post r) : NotExhausted r := by
  rintro depth rfl
  cases hr

/-- No primitive refuses for want of room, not even past its arity. -/
theorem Primitive.notExhausted_result (h : Host) (p : Primitive) (vs : List Value) :
    NotExhausted (p.result h vs) := by
  cases hn : p.arity.accepts vs.length with
  | true => exact (yields_result h hn).notExhausted
  | false =>
    rw [result_of_not_accepts h hn]
    exact nofun

/-! ## Congruences -/

namespace Evaluator

/-- A relation between evaluations, for each scope that they run in, that is
    closed under what evaluations are made of. -/
structure Congruence where
  rel : Env → {α : Type} → EvalM α → EvalM α → Prop
  ofExcept {env : Env} {α : Type} {r : Except EvalError α} :
    NotExhausted r → rel env (EvalM.ofExcept r) (EvalM.ofExcept r)
  read {env : Env} {α : Type} (f : World → α) : rel env (EvalM.read f) (EvalM.read f)
  bind {env : Env} {α β : Type} {act act' : EvalM α} {next next' : α → EvalM β} :
    rel env act act' → (∀ a, rel env (next a) (next' a)) → rel env (act >>= next) (act' >>= next')
  define {env : Env} (name : String) (v : Value) :
    rel env (EvalM.define env name v) (EvalM.define env name v)
  close {env : Env} (name : String) (c : Closure) :
    rel env (EvalM.close name c) (EvalM.close name c)
  print {env : Env} (s : String) : rel env (EvalM.print s) (EvalM.print s)
  /-- What runs in a new frame is related as in the scope of the frame. -/
  inFrame {env : Env} {β : Type} (c : Closure) (args : List Value) {next next' : Env → EvalM β} :
    (∀ f, rel f (next f) (next' f)) →
      rel env (EvalM.frame c args >>= next) (EvalM.frame c args >>= next')

namespace Congruence

variable (C : Congruence) {env : Env}

theorem pure {α : Type} (a : α) : C.rel env (Pure.pure a) (Pure.pure a) :=
  C.ofExcept (notExhausted_ok a)

theorem throw {α : Type} {e : EvalError} (h : NotExhausted (.error e : Except EvalError α)) :
    C.rel env (MonadExcept.throw e : EvalM α) (MonadExcept.throw e) :=
  C.ofExcept h

theorem check (a : Arity) (name : String) (got : Nat) :
    C.rel env (EvalM.ofExcept (a.check name got)) (EvalM.ofExcept (a.check name got)) :=
  C.ofExcept (a.yields_check name got).notExhausted

/-- Two evaluators give related evaluations of everything. -/
def Relates (run run' : Evaluator) : Prop :=
  ∀ e env, C.rel env (run e env) (run' e env)

variable {C} {run run' : Evaluator} (hr : C.Relates run run')
include hr

/-! ## Forms -/

theorem arguments (es : List Expr) : C.rel env (run.arguments es env) (run'.arguments es env) := by
  unfold Evaluator.arguments
  induction es with
  | nil => exact C.pure []
  | cons e es ih =>
    rw [List.mapM_cons, List.mapM_cons]
    exact C.bind (hr e env) fun v => C.bind ih fun vs => C.pure (v :: vs)

theorem sequence (es : List Expr) : C.rel env (run.sequence es env) (run'.sequence es env) := by
  unfold Evaluator.sequence
  generalize Value.nil = last
  induction es generalizing last with
  | nil => exact C.pure last
  | cons e es ih =>
    rw [List.foldlM_cons, List.foldlM_cons]
    exact C.bind (hr e env) ih

theorem unquote (args : List Expr) : C.rel env (run.unquote args env) (run'.unquote args env) := by
  match args with
  | [] => exact C.pure _
  | [e] => exact hr e env
  | _ :: _ :: _ => exact C.throw nofun

theorem fillHole (args : List Expr) :
    C.rel env (run.fillHole args env) (run'.fillHole args env) :=
  C.bind (C.check ..) fun _ => unquote hr args

omit hr in
theorem holeArguments (items : List Expr) :
    C.rel env (holeArguments? items env) (holeArguments? items env) := by
  unfold holeArguments?
  split
  · refine C.bind (C.read _) fun v => ?_
    split <;> exact C.pure _
  · exact C.pure _

omit hr in
theorem fillItems (items : List Expr)
    (h : ∀ item ∈ items, C.rel env (run.fill item env) (run'.fill item env)) :
    C.rel env (run.fillItems items env) (run'.fillItems items env) := by
  induction items with
  | nil => exact C.pure _
  | cons item items ih =>
    unfold Evaluator.fillItems
    refine C.bind (h item (by simp)) fun v => C.bind (ih fun i hi => h i (by simp [hi])) fun vs => ?_
    exact C.pure _

theorem fill (template : Expr) : C.rel env (run.fill template env) (run'.fill template env) := by
  match template with
  | .list items =>
    unfold Evaluator.fill
    refine C.bind (holeArguments items) fun args => ?_
    match args with
    | some args => exact fillHole hr args
    | none => exact C.bind (fillItems items fun item _ => fill item) fun vs => C.pure _
  | .number _ | .string _ | .symbol _ | .const _ => unfold Evaluator.fill; exact C.pure _

omit hr in
theorem defineClosure (make : ClosureRef → Callable) (name : String) (params : List String)
    (body : Expr) :
    C.rel env (Form.defineClosure make name params body env)
      (Form.defineClosure make name params body env) :=
  C.bind (C.close _ _) fun _ => C.define _ _

theorem form (f : Form) (args : List Expr) :
    C.rel env (f.call run args env) (f.call run' args env) := by
  unfold Form.call
  split
  · exact C.bind (C.ofExcept (Form.yields_symbolName _ _).notExhausted) fun name =>
      C.bind (hr _ env) fun v => C.define name v
  · exact C.bind (C.ofExcept (Form.yields_parameters _ _).notExhausted) fun params =>
      C.bind (C.close _ _) fun ref => C.pure _
  · exact C.bind (C.ofExcept (Form.yields_symbolName _ _).notExhausted) fun name =>
      C.bind (C.ofExcept (Form.yields_parameters _ _).notExhausted) fun params =>
        defineClosure _ _ _ _
  · exact C.bind (C.ofExcept (Form.yields_symbolName _ _).notExhausted) fun name =>
      C.bind (C.ofExcept (Form.yields_parameters _ _).notExhausted) fun params =>
        defineClosure _ _ _ _
  · refine C.bind (hr _ env) fun v => ?_
    split
    · exact hr _ env
    · exact hr _ env
  · exact C.pure _
  · exact C.pure _
  · exact C.pure _
  · exact fill hr _
  · exact unquote hr _
  · exact sequence hr _
  · exact C.throw nofun

/-! ## Calls -/

theorem expand (ref : ClosureRef) (args : List Expr) :
    C.rel env (run.expand ref args) (run'.expand ref args) :=
  C.bind (C.read _) fun c => C.bind (C.check ..) fun _ =>
    C.inFrame c _ fun f => C.bind (hr c.body f) fun _ => C.pure _

theorem applyFunction (ref : ClosureRef) (args : List Expr) :
    C.rel env (run.applyFunction ref args env) (run'.applyFunction ref args env) :=
  C.bind (C.read _) fun c => C.bind (C.check ..) fun _ => C.bind (arguments hr args) fun vs =>
    C.inFrame c vs fun f => hr c.body f

theorem applyBuiltin (h : Host) (b : Builtin) (args : List Expr) :
    C.rel env (run.applyBuiltin h b args env) (run'.applyBuiltin h b args env) := by
  refine C.bind (C.check ..) fun _ => ?_
  cases b with
  | form f => exact form hr f args
  | primitive p =>
    refine C.bind (arguments hr args) fun vs => ?_
    exact C.bind (C.print _) fun _ => C.ofExcept (p.notExhausted_result h vs)

theorem apply (h : Host) (c : Callable) (args : List Expr) :
    C.rel env (run.apply h c args env) (run'.apply h c args env) := by
  cases c with
  | builtin b => exact applyBuiltin hr h b args
  | function ref => exact applyFunction hr ref args
  | expander ref => exact C.bind (expand hr ref args) fun e => hr e env

/-- **One level of evaluation respects every congruence.** -/
theorem step (h : Host) : C.Relates (run.step h) (run'.step h) := by
  intro e env
  match e with
  | .number _ | .string _ | .const _ | .list [] => exact C.pure _
  | .symbol name =>
    refine C.bind (C.read _) fun v => ?_
    match v with
    | some v => exact C.pure v
    | none => exact C.throw nofun
  | .list (head :: args) =>
    refine C.bind (hr head env) fun v => ?_
    match v with
    | .callable c => exact apply hr h c args
    | .number _ | .string _ | .bool _ | .list _ | .symbol _ | .host _ => exact C.throw nofun

end Congruence

end Evaluator

end MacroLisp
