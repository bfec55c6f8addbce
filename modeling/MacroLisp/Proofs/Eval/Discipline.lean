/-
  What evaluations may meet.

  A discipline says which trees may be evaluated and with how much room, in
  which scopes and worlds, which errors may come of it, and whether there may
  be closures.  It allows for what the language makes of all this: the items of
  a list, what is bound and looked up, frames and expansions.  Then one level of
  evaluation that starts within the discipline stays within it (`keeps_step`),
  and so does a whole run, which therefore hands no other tree to the evaluator
  (`keeps_eval`).

  * `Discipline`: what may be met, and what it allows for;
  * `Discipline.Keeps`: an evaluation that stays within a discipline, where
    another one cannot be told from it;
  * `Discipline.Follows`: evaluators that go by the rules of the language where
    a discipline holds, whatever they do elsewhere;
  * `Discipline.lands_answer`, `Discipline.lands_run`: what becomes of calls and
    of programs.
-/
import MacroLisp.Proofs.Eval.Counter
import MacroLisp.Proofs.Eval.Results

namespace MacroLisp

/-! ## Callables and closures -/

/-- The forms that make a closure. -/
def Form.makesClosure : Form → Bool
  | lambda | defineFunction | defineMacro => true
  | _ => false

/-- The callables that neither are closures nor make any. -/
def Callable.isInert : Callable → Bool
  | builtin (.form f) => !f.makesClosure
  | builtin (.primitive _) => true
  | function _ | expander _ => false

/-- If there may not be `closures`, all callables in the value are inert. -/
def Value.Within (closures : Prop) (v : Value) : Prop :=
  ∀ c ∈ v.callables, closures ∨ c.isInert = true

namespace Value

variable {closures : Prop} {v : Value} {vs : List Value}

theorem within_of_eq_nil (h : v.callables = []) : v.Within closures := by
  intro c hc
  rw [h] at hc
  cases hc

theorem within_list_iff : (list vs).Within closures ↔ ∀ v ∈ vs, v.Within closures := by
  constructor
  · intro h v hv c hc
    exact h c (mem_callables_list.2 ⟨v, hv, hc⟩)
  · intro h c hc
    obtain ⟨v, hv, hcv⟩ := mem_callables_list.1 hc
    exact h v hv c hcv

theorem within_callable_iff {c : Callable} :
    (callable c).Within closures ↔ closures ∨ c.isInert = true := by
  simp [Within, callables]

end Value

/-! ## Disciplines -/

/-- What evaluations may meet, closed under what the language does. -/
structure Discipline where
  /-- The trees that may be evaluated where so many evaluations may be nested. -/
  code : Nat → Expr → Prop
  scope : Env → Prop
  world : World → Prop
  error : EvalError → Prop
  /-- There may be closures. -/
  closures : Prop
  item {n : Nat} {items : List Expr} {e : Expr} :
    code n (.list items) → e ∈ items → code (n - 1) e
  mono {n n' : Nat} {e : Expr} : n ≤ n' → code n e → code n' e
  data {n : Nat} {e : Expr} : code n e → (Value.ofExpr e).Within closures
  lookup {w : World} {env : Env} {name : String} {v : Value} :
    world w → scope env → w.lookup env name = some v → v.Within closures
  bind {w : World} {env : Env} (name : String) {v : Value} :
    world w → scope env → v.Within closures → world (w.bind env name v)
  print {w : World} (s : String) : world w → world (w.print s)
  ordinary {e : EvalError} : e.isOrdinary = true → error e
  exhausted {e : Expr} (depth : Nat) : code 0 e → error (.stackExhausted depth)
  close {n : Nat} {w : World} (name : String) {c : Closure} :
    closures → world w → code n c.body → world (w.addClosure name c).2
  body {w : World} (n : Nat) (ref : ClosureRef) : closures → world w → code n (w.closure ref).body
  frame {w : World} (c : Closure) {vs : List Value} : closures → world w →
    (∀ v ∈ vs, v.Within closures) → world (w.frame c vs).2 ∧ scope (w.frame c vs).1
  expansion {v : Value} (n : Nat) : closures → v.Within closures → code n (.ofValue v)

namespace Discipline

variable {D : Discipline}

/-- The values that may be met. -/
abbrev Datum (D : Discipline) (v : Value) : Prop :=
  v.Within D.closures

theorem item_le {n : Nat} {items : List Expr} {e : Expr} (h : D.code n (.list items))
    (he : e ∈ items) : D.code n e :=
  D.mono (Nat.sub_le n 1) (D.item h he)

/-- An outcome in a world of the discipline: an error of the discipline, or a
    result with the property `post`. -/
structure Lands (D : Discipline) {α : Type} (post : α → Prop)
    (outcome : Except EvalError α × Machine) : Prop where
  world : D.world outcome.2.world
  error {e : EvalError} : outcome.1 = .error e → D.error e
  value {a : α} : outcome.1 = .ok a → post a

/-- In the worlds of the discipline `act` stays within it, with results that have
    the property `post`, and `act'` does the same as `act`. -/
structure Keeps (D : Discipline) {α : Type} (act act' : EvalM α) (post : α → Prop) : Prop where
  same {m : Machine} : D.world m.world → act'.runOn m = act.runOn m
  lands {m : Machine} : D.world m.world → D.Lands post (act.runOn m)

namespace Keeps

variable {α β : Type} {act act' : EvalM α} {post : α → Prop}

theorem mono {post' : α → Prop} (h : D.Keeps act act' post) (hp : ∀ a, post a → post' a) :
    D.Keeps act act' post' :=
  { h with lands := fun hm => { h.lands hm with value := fun ha => hp _ ((h.lands hm).value ha) } }

theorem ofExcept {r : Except EvalError α} (hr : Yields post r) :
    D.Keeps (EvalM.ofExcept r) (EvalM.ofExcept r) post where
  same _ := rfl
  lands hm := by
    rw [EvalM.runOn_ofExcept]
    cases r with
    | ok a => exact ⟨hm, nofun, by rintro _ ⟨⟩; exact hr⟩
    | error e => exact ⟨hm, by rintro _ ⟨⟩; exact D.ordinary hr, nofun⟩

theorem pure {a : α} (ha : post a) : D.Keeps (Pure.pure a) (Pure.pure a) post :=
  ofExcept (r := .ok a) ha

theorem throw {e : EvalError} (he : e.isOrdinary = true) :
    D.Keeps (MonadExcept.throw e : EvalM α) (MonadExcept.throw e) post :=
  ofExcept (r := .error e) he

theorem update {f : World → α × World} (hf : ∀ w, D.world w → D.world (f w).2 ∧ post (f w).1) :
    D.Keeps (EvalM.update f) (EvalM.update f) post where
  same _ := rfl
  lands {m} hm := by
    obtain ⟨hw, hp⟩ := hf m.world hm
    rw [EvalM.runOn_update]
    exact ⟨hw, nofun, by rintro _ ⟨⟩; exact hp⟩

theorem read {f : World → α} (hf : ∀ w, D.world w → post (f w)) :
    D.Keeps (EvalM.read f) (EvalM.read f) post :=
  update (f := fun w => (f w, w)) fun w hw => ⟨hw, hf w hw⟩

theorem bind {next next' : α → EvalM β} {post' : β → Prop} (h : D.Keeps act act' post)
    (hn : ∀ a, post a → D.Keeps (next a) (next' a) post') :
    D.Keeps (act >>= next) (act' >>= next') post' where
  same {m} hm := by
    have h₁ := h.lands hm
    rcases hr : act.runOn m with ⟨e | a, m₁⟩ <;> rw [hr] at h₁
    · rw [EvalM.runOn_bind_of_error next hr, EvalM.runOn_bind_of_error next' ((h.same hm).trans hr)]
    · rw [EvalM.runOn_bind_of_ok next hr, EvalM.runOn_bind_of_ok next' ((h.same hm).trans hr)]
      exact (hn a (h₁.value rfl)).same h₁.world
  lands {m} hm := by
    have h₁ := h.lands hm
    rcases hr : act.runOn m with ⟨e | a, m₁⟩ <;> rw [hr] at h₁
    · -- the failure of the first part is the failure of the whole
      rw [EvalM.runOn_bind_of_error next hr]
      exact ⟨h₁.world, by rintro _ ⟨⟩; exact h₁.error rfl, nofun⟩
    · rw [EvalM.runOn_bind_of_ok next hr]
      exact (hn a (h₁.value rfl)).lands h₁.world

theorem nested (h : D.Keeps act act' post) : D.Keeps act.nested act'.nested post where
  same {m} hm := by
    rw [EvalM.runOn_nested, EvalM.runOn_nested, h.same (m := ⟨m.world, m.depth + 1⟩) hm]
  lands {m} hm := by
    have h₁ := h.lands (m := ⟨m.world, m.depth + 1⟩) hm
    rw [EvalM.runOn_nested]
    exact ⟨h₁.world, h₁.error, h₁.value⟩

end Keeps

/-- With room for `n` evaluations, `run` keeps to the discipline, and `run'` does
    the same. -/
def Relates (D : Discipline) (n : Nat) (run run' : Evaluator) : Prop :=
  ∀ e env, D.code n e → D.scope env → D.Keeps (run e env) (run' e env) D.Datum

variable {n : Nat} {run run' : Evaluator} {env : Env}

/-! ## Forms -/

theorem keeps_define (hs : D.scope env) (name : String) {v : Value} (hv : D.Datum v) :
    D.Keeps (EvalM.define env name v) (EvalM.define env name v) D.Datum :=
  .update fun _ hw => ⟨D.bind name hw hs hv, hv⟩

theorem keeps_close (hc : D.closures) {c : Closure} (hb : D.code n c.body) (name : String) :
    D.Keeps (EvalM.close name c) (EvalM.close name c) fun _ => True :=
  .update fun _ hw => ⟨D.close name hc hw hb, trivial⟩

theorem keeps_defineClosure (hc : D.closures) (hs : D.scope env) (make : ClosureRef → Callable)
    (name : String) (params : List String) {body : Expr} (hb : D.code n body) :
    D.Keeps (Form.defineClosure make name params body env)
      (Form.defineClosure make name params body env) D.Datum :=
  (keeps_close hc (c := ⟨params, body, env⟩) hb name).bind fun _ _ =>
    keeps_define hs name (Value.within_callable_iff.2 (.inl hc))

theorem keeps_closure (hc : D.closures) (ref : ClosureRef) :
    D.Keeps (EvalM.closure ref) (EvalM.closure ref) fun c => ∀ k, D.code k c.body :=
  .read fun _ hw k => D.body k ref hc hw

theorem keeps_frame (hc : D.closures) (c : Closure) {vs : List Value} (hvs : ∀ v ∈ vs, D.Datum v) :
    D.Keeps (EvalM.frame c vs) (EvalM.frame c vs) D.scope :=
  .update fun _ hw => D.frame c hc hw hvs

theorem keeps_lookup (hs : D.scope env) (name : String) :
    D.Keeps (EvalM.lookup env name) (EvalM.lookup env name) fun r => ∀ v, r = some v → D.Datum v :=
  .read fun _ hw _ hv => D.lookup hw hs hv

theorem keeps_print (s : String) : D.Keeps (EvalM.print s) (EvalM.print s) fun _ => True :=
  .update fun _ hw => ⟨D.print s hw, trivial⟩

theorem keeps_primitive (h : Host) {p : Primitive} {vs : List Value}
    (hn : p.arity.accepts vs.length = true) (hvs : ∀ v ∈ vs, D.Datum v) :
    D.Keeps (p.call h vs) (p.call h vs) D.Datum := by
  refine (keeps_print _).bind fun _ _ => .ofExcept ?_
  exact (Primitive.yields_result h hn).mono fun v hv c hc => Value.within_list_iff.2 hvs c (hv hc)

/-- A head that is a hole has its arguments in the template. -/
theorem keeps_holeArguments (hs : D.scope env) (items : List Expr) :
    D.Keeps (Evaluator.holeArguments? items env) (Evaluator.holeArguments? items env)
      fun r => ∀ args, r = some args → args ⊆ items := by
  unfold Evaluator.holeArguments?
  split
  · refine (keeps_lookup hs _).bind fun v _ => ?_
    split
    · refine .pure ?_
      rintro _ ⟨⟩
      exact List.subset_cons_self _ _
    · exact .pure nofun
  · exact .pure nofun

section
variable (hr : D.Relates n run run') (hs : D.scope env)
include hr hs

theorem keeps_arguments {es : List Expr} (hes : ∀ e ∈ es, D.code n e) :
    D.Keeps (run.arguments es env) (run'.arguments es env)
      fun vs => vs.length = es.length ∧ ∀ v ∈ vs, D.Datum v := by
  unfold Evaluator.arguments
  induction es with
  | nil => exact .pure ⟨rfl, nofun⟩
  | cons e es ih =>
    rw [List.mapM_cons, List.mapM_cons]
    refine (hr e env (hes e (by simp)) hs).bind fun v hv => ?_
    refine (ih fun e' he' => hes e' (by simp [he'])).bind fun vs hvs => ?_
    exact .pure ⟨congrArg (· + 1) hvs.1, List.forall_mem_cons.2 ⟨hv, hvs.2⟩⟩

theorem keeps_sequence {es : List Expr} (hes : ∀ e ∈ es, D.code n e) :
    D.Keeps (run.sequence es env) (run'.sequence es env) D.Datum := by
  unfold Evaluator.sequence
  have hnil : D.Datum .nil := Value.within_of_eq_nil rfl
  generalize Value.nil = last at hnil
  induction es generalizing last with
  | nil => exact .pure hnil
  | cons e es ih =>
    rw [List.foldlM_cons, List.foldlM_cons]
    exact (hr e env (hes e (by simp)) hs).bind fun v hv =>
      ih (fun e' he' => hes e' (by simp [he'])) v hv

theorem keeps_unquote {args : List Expr} (hargs : ∀ e ∈ args, D.code n e)
    (hn : Form.unquote.arity.accepts args.length = true) :
    D.Keeps (run.unquote args env) (run'.unquote args env) D.Datum := by
  match args with
  | [] => exact .pure (Value.within_of_eq_nil rfl)
  | [e] => exact hr e env (hargs e (by simp)) hs
  | _ :: _ :: _ => cases hn

theorem keeps_fillHole {args : List Expr} (hargs : ∀ e ∈ args, D.code n e) :
    D.Keeps (run.fillHole args env) (run'.fillHole args env) D.Datum :=
  Keeps.bind (.ofExcept (Arity.yields_check _ _ _)) fun _ hn => keeps_unquote hr hs hargs hn

omit hr hs in
theorem keeps_fillItems {items : List Expr}
    (h : ∀ e ∈ items, D.Keeps (run.fill e env) (run'.fill e env) D.Datum) :
    D.Keeps (run.fillItems items env) (run'.fillItems items env) fun vs => ∀ v ∈ vs, D.Datum v := by
  induction items with
  | nil =>
    unfold Evaluator.fillItems
    exact .pure fun v hv => absurd hv List.not_mem_nil
  | cons e items ih =>
    unfold Evaluator.fillItems
    refine (h e (by simp)).bind fun v hv => ?_
    refine (ih fun e' he' => h e' (by simp [he'])).bind fun vs hvs => ?_
    exact .pure (List.forall_mem_cons.2 ⟨hv, hvs⟩)

theorem keeps_fill {template : Expr} (ht : D.code n template) :
    D.Keeps (run.fill template env) (run'.fill template env) D.Datum := by
  induction template using Expr.induction with
  | list items ih =>
    unfold Evaluator.fill
    refine (keeps_holeArguments hs items).bind fun r hargs => ?_
    cases r with
    | some args => exact keeps_fillHole hr hs fun e he => item_le ht (hargs args rfl he)
    | none =>
      refine (keeps_fillItems fun e he => ih e he (item_le ht he)).bind fun vs hvs => ?_
      exact .pure (Value.within_list_iff.2 hvs)
  | _ =>
    unfold Evaluator.fill
    exact .pure (D.data ht)

theorem keeps_form {f : Form} (hf : D.closures ∨ f.makesClosure = false) {args : List Expr}
    (hargs : ∀ e ∈ args, D.code n e) (hn : f.arity.accepts args.length = true) :
    D.Keeps (f.call run args env) (f.call run' args env) D.Datum := by
  cases f with
  | define =>
    obtain ⟨target, e, rfl⟩ := List.length_eq_two.1 (Arity.accepts_exactly.1 hn)
    exact Keeps.bind (.ofExcept (Form.yields_symbolName _ _)) fun name _ =>
      (hr e env (hargs e (by simp)) hs).bind fun v hv => keeps_define hs name hv
  | lambda =>
    obtain ⟨params, body, rfl⟩ := List.length_eq_two.1 (Arity.accepts_exactly.1 hn)
    have hc : D.closures := hf.resolve_right nofun
    exact Keeps.bind (.ofExcept (Form.yields_parameters _ _)) fun names _ =>
      (keeps_close hc (c := ⟨names, body, env⟩) (hargs body (by simp)) _).bind fun ref _ =>
        .pure (Value.within_callable_iff.2 (.inl hc))
  | defineFunction =>
    obtain ⟨target, params, body, rfl⟩ := List.length_eq_three.1 (Arity.accepts_exactly.1 hn)
    exact Keeps.bind (.ofExcept (Form.yields_symbolName _ _)) fun name _ =>
      Keeps.bind (.ofExcept (Form.yields_parameters _ _)) fun names _ =>
        keeps_defineClosure (hf.resolve_right nofun) hs _ _ _ (hargs body (by simp))
  | defineMacro =>
    obtain ⟨target, params, body, rfl⟩ := List.length_eq_three.1 (Arity.accepts_exactly.1 hn)
    exact Keeps.bind (.ofExcept (Form.yields_symbolName _ _)) fun name _ =>
      Keeps.bind (.ofExcept (Form.yields_parameters _ _)) fun names _ =>
        keeps_defineClosure (hf.resolve_right nofun) hs _ _ _ (hargs body (by simp))
  | conditional =>
    obtain ⟨test, consequent, alternative, rfl⟩ :=
      List.length_eq_three.1 (Arity.accepts_exactly.1 hn)
    refine Keeps.bind (hr test env (hargs test (by simp)) hs) fun v _ => ?_
    split
    · exact hr consequent env (hargs consequent (by simp)) hs
    · exact hr alternative env (hargs alternative (by simp)) hs
  | quote =>
    match args with
    | [] => exact .pure (Value.within_of_eq_nil rfl)
    | [e] => exact .pure (D.data (hargs e (by simp)))
    | _ :: _ :: _ => cases hn
  | backquote =>
    match args with
    | [] => exact .pure (Value.within_of_eq_nil rfl)
    | [template] => exact keeps_fill hr hs (hargs template (by simp))
    | _ :: _ :: _ => cases hn
  | unquote => exact keeps_unquote hr hs hargs hn
  | sequence => exact keeps_sequence hr hs hargs

/-! ## Calls -/

omit hs in
theorem keeps_expand (hc : D.closures) (ref : ClosureRef) {args : List Expr}
    (hargs : ∀ e ∈ args, D.code n e) :
    D.Keeps (run.expand ref args) (run'.expand ref args) fun e => ∀ k, D.code k e := by
  refine Keeps.bind (keeps_closure hc ref) fun c hb => ?_
  refine Keeps.bind (.ofExcept (Arity.yields_check _ _ _)) fun _ _ => ?_
  have hforms : ∀ v ∈ Value.ofExprs args, D.Datum v := by
    intro v hv
    rw [Value.ofExprs_eq_map] at hv
    obtain ⟨e, he, rfl⟩ := List.mem_map.1 hv
    exact D.data (hargs e he)
  refine (keeps_frame hc c hforms).bind fun f hf => ?_
  refine (hr c.body f (hb n) hf).bind fun v hv => ?_
  exact .pure fun k => D.expansion k hc hv

theorem keeps_applyFunction (hc : D.closures) (ref : ClosureRef) {args : List Expr}
    (hargs : ∀ e ∈ args, D.code n e) :
    D.Keeps (run.applyFunction ref args env) (run'.applyFunction ref args env) D.Datum := by
  refine Keeps.bind (keeps_closure hc ref) fun c hb => ?_
  refine Keeps.bind (.ofExcept (Arity.yields_check _ _ _)) fun _ _ => ?_
  refine (keeps_arguments hr hs hargs).bind fun vs hvs => ?_
  exact (keeps_frame hc c hvs.2).bind fun f hf => hr c.body f (hb n) hf

theorem keeps_applyBuiltin (h : Host) {b : Builtin} (hb : D.closures ∨ (Callable.builtin b).isInert = true)
    {args : List Expr} (hargs : ∀ e ∈ args, D.code n e) :
    D.Keeps (run.applyBuiltin h b args env) (run'.applyBuiltin h b args env) D.Datum := by
  refine Keeps.bind (.ofExcept (Arity.yields_check _ _ _)) fun _ hn => ?_
  cases b with
  | form f => exact keeps_form hr hs (by simpa [Callable.isInert] using hb) hargs hn
  | primitive p =>
    refine (keeps_arguments hr hs hargs).bind fun vs hvs => ?_
    exact keeps_primitive h (hvs.1 ▸ hn) hvs.2

theorem keeps_apply (h : Host) {c : Callable} (hc : D.Datum (.callable c)) {args : List Expr}
    (hargs : ∀ e ∈ args, D.code n e) :
    D.Keeps (run.apply h c args env) (run'.apply h c args env) D.Datum := by
  have hc' := Value.within_callable_iff.1 hc
  cases c with
  | builtin b => exact keeps_applyBuiltin hr hs h hc' hargs
  | function ref => exact keeps_applyFunction hr hs (hc'.resolve_right nofun) ref hargs
  | expander ref =>
    exact (keeps_expand hr (hc'.resolve_right nofun) ref hargs).bind fun e he => hr e env (he n) hs

end

/-- **One level of evaluation stays within the discipline.** -/
theorem keeps_step (h : Host) (hr : D.Relates n run run') :
    D.Relates (n + 1) (run.step h) (run'.step h) := by
  intro e env he hs
  match e with
  | .number _ | .string _ | .const _ | .list [] => exact .pure (D.data he)
  | .symbol name =>
    refine Keeps.bind (keeps_lookup hs name) fun r hv => ?_
    match r with
    | some v => exact .pure (hv v rfl)
    | none => exact .throw rfl
  | .list (head :: args) =>
    have hitems : ∀ e ∈ head :: args, D.code n e := fun e he' => D.item he he'
    refine (hr head env (hitems head (by simp)) hs).bind fun v hv => ?_
    match v with
    | .callable c => exact keeps_apply hr hs h hv fun e he => hitems e (by simp [he])
    | .number _ | .string _ | .bool _ | .list _ | .symbol _ | .host _ => exact .throw rfl

/-! ## Runs -/

/-- The evaluators `run`, one for each room, go by the rules of the language where
    the discipline holds. -/
structure Follows (D : Discipline) (h : Host) (run : Nat → Evaluator) : Prop where
  zero {e : Expr} {env : Env} : D.code 0 e → run 0 e env = EvalM.exhausted
  succ {n : Nat} {e : Expr} {env : Env} : D.code (n + 1) e →
    run (n + 1) e env = EvalM.nested ((run n).step h e env)

theorem follows_eval (D : Discipline) (h : Host) : D.Follows h (eval h) := ⟨fun _ => rfl, fun _ => rfl⟩

/-- **A run stays within the discipline** that it starts from, and evaluators that
    differ only where the discipline does not hold cannot be told apart. -/
theorem keeps_eval {h : Host} {run : Nat → Evaluator} (hrun : D.Follows h run) (n : Nat) :
    D.Relates n (eval h n) (run n) := by
  induction n with
  | zero =>
    intro e env he _
    rw [hrun.zero he]
    refine ⟨fun _ => rfl, fun hm => ⟨hm, ?_, nofun⟩⟩
    rintro _ ⟨⟩
    exact D.exhausted _ he
  | succ n ih =>
    intro e env he hs
    rw [hrun.succ he, eval_succ]
    exact (keeps_step h ih e env he hs).nested

/-! ## Calls of an interpreter -/

/-- The call is made with trees, in a scope, and on a callable of the discipline. -/
def MayCall (D : Discipline) (n : Nat) : Call → Prop
  | .eval e env => D.code n e ∧ D.scope env
  | .evaluate es env | .arguments es env => (∀ e ∈ es, D.code n e) ∧ D.scope env
  | .apply c args env => D.Datum (.callable c) ∧ (∀ e ∈ args, D.code n e) ∧ D.scope env
  | .expand _ args => D.closures ∧ ∀ e ∈ args, D.code n e

/-- The answer is made of values of the discipline, or is a tree that may be
    evaluated with any room. -/
def MayAnswer (D : Discipline) : Answer → Prop
  | .value v => D.Datum v
  | .values vs => ∀ v ∈ vs, D.Datum v
  | .code e => ∀ k, D.code k e

theorem keeps_call (h : Host) (hr : D.Relates n run run') {c : Call} (hc : D.MayCall n c) :
    D.Keeps (c.act h run) (c.act h run') D.MayAnswer := by
  cases c with
  | eval e env => exact (hr e env hc.1 hc.2).bind fun v hv => .pure hv
  | evaluate es env => exact (keeps_sequence hr hc.2 hc.1).bind fun v hv => .pure hv
  | arguments es env => exact (keeps_arguments hr hc.2 hc.1).bind fun vs hvs => .pure hvs.2
  | apply c args env => exact (keeps_apply hr hc.2.2 h hc.1 hc.2.1).bind fun v hv => .pure hv
  | expand ref args => exact (keeps_expand hr hc.1 ref hc.2).bind fun e he => .pure he

theorem keeps_answer {h : Host} {run : Nat → Evaluator} (hrun : D.Follows h run) (i : Interpreter)
    {c : Call} (hc : D.MayCall i.room c) :
    D.Keeps (c.act h (eval h i.room)) (c.act h (run i.room)) D.MayAnswer :=
  keeps_call h (keeps_eval hrun i.room) hc

section
variable (i : Interpreter) {w : World} (hw : D.world w) {c : Call} (hc : D.MayCall i.room c)
include hw hc

/-- A call within the discipline may as well be run by any evaluators that go by
    the rules there. -/
theorem perform_eq_answer {h : Host} {run : Nat → Evaluator} (hrun : D.Follows h run) :
    i.perform w (c.act h (run i.room)) = i.answer h w c := by
  rw [Interpreter.answer_eq_perform, Interpreter.perform, Interpreter.perform,
    (keeps_answer hrun i hc).same (m := ⟨w, i.depth⟩) hw]

/-- **A call within the discipline** is answered within it. -/
theorem lands_answer (h : Host) :
    D.Lands D.MayAnswer ((i.answer h w c).result,
      ⟨(i.answer h w c).world, (i.answer h w c).interpreter.depth⟩) := by
  rw [Interpreter.answer_eq_perform]
  exact (keeps_answer (D.follows_eval h) i hc).lands (m := ⟨w, i.depth⟩) hw

end

/-- **A program within the discipline** runs within it. -/
theorem lands_run (h : Host) (i : Interpreter) {w : World} (hw : D.world w) {source : String}
    {env : Env} (hs : D.scope env)
    (hcode : ∀ es, MacroLisp.read source = .ok es → ∀ e ∈ es, D.code i.room e) :
    D.world (i.run h w source env).world ∧
      ∀ e, (i.run h w source env).result = .error (.eval e) → D.error e := by
  unfold Interpreter.run
  split
  · exact ⟨hw, nofun⟩
  · rename_i es hread
    have hlands := D.lands_answer i hw (c := .evaluate es env) ⟨hcode es hread, hs⟩ h
    refine ⟨hlands.world, fun e hr => hlands.error ?_⟩
    cases hr' : (i.evaluate h w es env).result with
    | ok v => simp [hr', Except.mapError] at hr
    | error e' =>
      obtain rfl : e' = e := by simpa [hr', Except.mapError] using hr
      exact congrArg (Except.map Answer.value) hr'

end Discipline

end MacroLisp
