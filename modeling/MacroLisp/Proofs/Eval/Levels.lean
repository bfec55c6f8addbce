/-
  How many levels an evaluation takes.

  An evaluation that changes nothing takes a number of levels if it has its
  value whenever there is room for as many, and is cut short for want of room
  whenever there is less.  The levels of the parts add up from the inside: what
  is evaluated one after the other takes the most that a part takes, and a call
  takes one level more than its head, its arguments and what it runs.

  A call leaves its frame behind, so the world may have more tables afterwards.
  Whatever takes a number of levels in a world therefore takes it in all worlds
  that it grows to.

  * `World.Grows`: a world with more tables, and nothing else different;
  * `EvalM.Takes`: the levels that an evaluation takes;
  * `takes_number`, `takes_symbol`, `takes_primitive`, `takes_conditional` and
    `takes_function`: the levels of expressions.
-/
import MacroLisp.Proofs.Data.Frames
import MacroLisp.Proofs.Eval.Calls

namespace MacroLisp

/-! ## Worlds with more tables -/

/-- The world `w'` is `w` with some more tables. -/
def World.Grows (w w' : World) : Prop :=
  ∃ added : Array Table, w' = ⟨w.tables ++ added, w.closures, w.output⟩

namespace World.Grows

variable {w w₁ w₂ : World} {env : Env}

protected theorem refl (w : World) : w.Grows w := ⟨#[], by simp⟩

protected theorem trans (h₁ : w.Grows w₁) (h₂ : w₁.Grows w₂) : w.Grows w₂ := by
  obtain ⟨ts₁, rfl⟩ := h₁
  obtain ⟨ts₂, rfl⟩ := h₂
  exact ⟨ts₁ ++ ts₂, by simp⟩

theorem frame (w : World) (c : Closure) (args : List Value) : w.Grows (w.frame c args).2 :=
  ⟨#[(w.table c.env).bindAll (c.params.zip args)], by simp [World.frame, addTable]⟩

theorem holds (h : w.Grows w₁) (hw : w.Holds env) : w₁.Holds env := by
  obtain ⟨ts, rfl⟩ := h
  simp only [Holds] at hw
  simpa [Holds] using Nat.lt_add_right _ hw

theorem table (h : w.Grows w₁) (hw : w.Holds env) : w₁.table env = w.table env := by
  obtain ⟨ts, rfl⟩ := h
  simp only [Holds] at hw
  simp [World.table, hw, Nat.lt_add_right]

theorem lookup (h : w.Grows w₁) (hw : w.Holds env) (name : String) :
    w₁.lookup env name = w.lookup env name := by
  rw [World.lookup, h.table hw, World.lookup]

theorem closure (h : w.Grows w₁) (ref : ClosureRef) : w₁.closure ref = w.closure ref := by
  obtain ⟨ts, rfl⟩ := h
  rfl

end World.Grows

/-! ## Levels -/

/-- In the world `w`, and in all that it grows to, `act` takes so many levels to
    have the result `a`: given the room for them it has it, and given less it is
    cut short.  Either way only tables are added. -/
def EvalM.Takes {α : Type} (w : World) (levels : Nat) (a : α) (act : Nat → EvalM α) : Prop :=
  ∀ (room : Nat) (m : Machine), w.Grows m.world → ∃ w', m.world.Grows w' ∧
    (act room).runOn m =
      (if levels ≤ room then .ok a else .error (.stackExhausted (m.depth + room)), ⟨w', m.depth⟩)

namespace EvalM.Takes

variable {α β : Type} {w : World} {levels levels' : Nat} {a : α} {b : β} {act : Nat → EvalM α}

/-- What does the same as a result takes no level. -/
theorem of_runOn (h : ∀ room m, w.Grows m.world → (act room).runOn m = (.ok a, m)) :
    Takes w 0 a act :=
  fun room m hm => ⟨m.world, .refl _, by simp [h room m hm]⟩

protected theorem pure (w : World) (a : α) : Takes w 0 a fun _ => pure a :=
  of_runOn fun _ _ _ => rfl

/-- One thing after the other takes as much as the one that takes more. -/
theorem bind {next : Nat → α → EvalM β} (h : Takes w levels a act)
    (hn : Takes w levels' b fun room => next room a) :
    Takes w (max levels levels') b fun room => act room >>= next room := by
  intro room m hm
  obtain ⟨w₁, hw₁, hact⟩ := h room m hm
  by_cases hroom : levels ≤ room
  · rw [if_pos hroom] at hact
    obtain ⟨w₂, hw₂, hnext⟩ := hn room ⟨w₁, m.depth⟩ (hm.trans hw₁)
    refine ⟨w₂, hw₁.trans hw₂, ?_⟩
    simp only [runOn_bind_of_ok _ hact, hnext, max_le_iff, hroom, true_and]
  · rw [if_neg hroom] at hact
    refine ⟨w₁, hw₁, ?_⟩
    simp only [runOn_bind_of_error _ hact, max_le_iff, hroom, false_and, ↓reduceIte]

/-- An evaluation takes one level more than what is inside. -/
theorem nested {h : Host} {e : Expr} {env : Env} {v : Value}
    (hstep : Takes w levels v fun room => (eval h room).step h e env) :
    Takes w (levels + 1) v fun room => eval h room e env := by
  intro room m hm
  cases room with
  | zero => exact ⟨m.world, .refl _, by simp [eval_zero]⟩
  | succ room =>
    obtain ⟨w', hw', hrun⟩ := hstep room ⟨m.world, m.depth + 1⟩ hm
    refine ⟨w', hw', ?_⟩
    simp only [eval_succ, runOn_nested, hrun, Nat.add_le_add_iff_right, Nat.add_sub_cancel,
      Nat.add_right_comm m.depth 1, Nat.add_assoc]

/-- What only reads the world takes no level before what follows. -/
theorem after {act : EvalM α} {next : Nat → α → EvalM β}
    (h : ∀ m, w.Grows m.world → act.runOn m = (.ok a, m))
    (hn : Takes w levels b fun room => next room a) :
    Takes w levels b fun room => act >>= next room := by
  have hbind := bind (of_runOn fun _ => h) hn
  rwa [Nat.zero_max] at hbind

/-- What runs in a new frame runs in the frame that is made then. -/
theorem after_frame {c : Closure} {args : List Value} {next : Nat → Env → EvalM β}
    (hn : ∀ w₁, w.Grows w₁ →
      Takes (w₁.frame c args).2 levels b fun room => next room (w₁.frame c args).1) :
    Takes w levels b fun room => EvalM.frame c args >>= next room := by
  intro room m hm
  obtain ⟨w', hw', hrun⟩ := hn m.world hm room ⟨(m.world.frame c args).2, m.depth⟩ (.refl _)
  exact ⟨w', (World.Grows.frame m.world c args).trans hw',
    (runOn_bind_of_ok _ (runOn_frame m c args)).trans hrun⟩

end EvalM.Takes

/-- In the scope `env` the expression takes so many levels to have the value. -/
def Expr.Takes (h : Host) (w : World) (env : Env) (levels : Nat) (e : Expr) (v : Value) : Prop :=
  EvalM.Takes w levels v fun room => eval h room e env

theorem Expr.Takes.of_eq {h : Host} {w : World} {env : Env} {levels levels' : Nat} {e : Expr}
    {v : Value} (he : e.Takes h w env levels v) (hl : levels = levels') :
    e.Takes h w env levels' v :=
  hl ▸ he

/-- The expressions have these values and take at most so many levels. -/
inductive Expr.AllTake (h : Host) (w : World) (env : Env) :
    Nat → List Expr → List Value → Prop where
  | nil : AllTake h w env 0 [] []
  | cons {levels levels' : Nat} {e : Expr} {v : Value} {es : List Expr} {vs : List Value}
      (he : e.Takes h w env levels v) (hes : AllTake h w env levels' es vs) :
      AllTake h w env (max levels levels') (e :: es) (v :: vs)

/-- Two arguments. -/
theorem Expr.AllTake.pair {h : Host} {w : World} {env : Env} {levels levels' : Nat} {e e' : Expr}
    {v v' : Value} (he : e.Takes h w env levels v) (he' : e'.Takes h w env levels' v') :
    AllTake h w env (max levels levels') [e, e'] [v, v'] := by
  have hpair := AllTake.cons he (.cons he' .nil)
  rwa [Nat.max_zero] at hpair

/-! ## Expressions -/

section

variable {h : Host} {w : World} {env : Env} {levels levels' : Nat} {v : Value} {vs : List Value}
  {name : String} {args : List Expr}

theorem takes_number (h : Host) (w : World) (env : Env) (n : Number) :
    (Expr.number n).Takes h w env 1 (Value.number n) :=
  .nested (.pure w (Value.number n))

/-- A name takes a level. -/
theorem takes_symbol (h : Host) (hw : w.Holds env) (hv : w.lookup env name = some v) :
    (Expr.symbol name).Takes h w env 1 v := by
  refine .nested (.after (a := some v) (fun m hm => ?_) (.pure w v))
  rw [EvalM.runOn_lookup, hm.lookup hw, hv]

/-- The arguments of a call take what they take one after the other. -/
theorem takes_arguments (hargs : Expr.AllTake h w env levels args vs) :
    EvalM.Takes w levels vs fun room => (eval h room).arguments args env := by
  induction hargs with
  | nil => exact .pure w []
  | @cons levels levels' e v es vs he hes ih =>
    simp only [Evaluator.arguments, List.mapM_cons] at ih ⊢
    have hrest : EvalM.Takes w (max levels' 0) (v :: vs) fun room =>
        es.mapM (eval h room · env) >>= fun vs => pure (v :: vs) := ih.bind (.pure w (v :: vs))
    rw [Nat.max_zero] at hrest
    exact he.bind hrest

/-- A call takes a level for itself, beside what its head and its arguments take
    and what it runs. -/
theorem takes_call {c : Callable} (hw : w.Holds env)
    (hc : w.lookup env name = some (.callable c))
    (happly : EvalM.Takes w levels v fun room => (eval h room).apply h c args env) :
    (Expr.list (.symbol name :: args)).Takes h w env (max 1 levels + 1) v :=
  .nested (.bind (takes_symbol h hw hc) happly)

/-- A primitive that prints nothing. -/
theorem takes_primitive {p : Primitive} (hw : w.Holds env)
    (hp : w.lookup env name = some (.callable (.builtin (.primitive p))))
    (hn : p.arity.accepts args.length = true) (hargs : Expr.AllTake h w env levels args vs)
    (hresult : p.result h vs = .ok v) (hline : p.line vs = "") :
    (Expr.list (.symbol name :: args)).Takes h w env (max 1 levels + 1) v := by
  have hcheck : p.arity.check p.name args.length = .ok () := if_pos hn
  have hcall : EvalM.Takes w 0 v fun _ => p.call h vs := by
    refine .of_runOn fun _ m _ => ?_
    rw [Primitive.runOn_call, hresult, hline]
    simp [World.print]
  have hbind := (takes_arguments hargs).bind hcall
  rw [Nat.max_zero] at hbind
  refine takes_call hw hp (.after (a := ()) (fun m _ => ?_) hbind)
  simpa [Builtin.arity, Builtin.name] using hcheck

/-- A conditional takes what its test and the branch that is taken take. -/
theorem takes_conditional {test consequent alternative : Expr} {t : Value} (hw : w.Holds env)
    (hif : w.lookup env name = some (.callable (.builtin (.form .conditional))))
    (htest : test.Takes h w env levels t)
    (hbranch : (if t.isTruthy then consequent else alternative).Takes h w env levels' v) :
    (Expr.list [.symbol name, test, consequent, alternative]).Takes h w env
      (max 1 (max levels levels') + 1) v := by
  refine takes_call hw hif (.after (a := ()) (fun m _ => rfl) (htest.bind ?_))
  rw [Expr.Takes] at hbranch
  cases ht : t.isTruthy with
  | true => simpa [ht] using hbranch
  | false => simpa [ht] using hbranch

/-- **A call of a function** takes what its arguments take in the scope of the
    caller and its body takes in the frame that is made for it. -/
theorem takes_function {ref : ClosureRef} {c : Closure} (hw : w.Holds env)
    (hf : w.lookup env name = some (.callable (.function ref))) (hc : w.closure ref = c)
    (hn : args.length = c.params.length) (hargs : Expr.AllTake h w env levels args vs)
    (hbody : ∀ w₁, w.Grows w₁ →
      c.body.Takes h (w₁.frame c vs).2 (w₁.frame c vs).1 levels' v) :
    (Expr.list (.symbol name :: args)).Takes h w env (max 1 (max levels levels') + 1) v := by
  have hcheck : (Arity.exactly c.params.length).check ref.name args.length = .ok () :=
    if_pos (by simp [Arity.accepts, hn])
  refine takes_call hw hf (.after (a := c) (fun m hm => ?_) (.after (a := ()) (fun m _ => ?_)
    ((takes_arguments hargs).bind (.after_frame hbody))))
  · rw [EvalM.runOn_closure, hm.closure, hc]
  · rw [EvalM.runOn_ofExcept, hcheck]

end

end MacroLisp
