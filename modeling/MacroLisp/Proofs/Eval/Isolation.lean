/-
  Which tables an evaluation changes.

  Of the tables that there are, an evaluation changes at most that of the
  scope it runs in, and that one loses no name.  Bodies run in frames, which
  are new tables, so the body of a function or a macro changes no table that
  there was before the call: neither the caller's nor that of the scope where
  the closure was made.

  * `World.ChangesOnly changed w w'`: `w'` comes after `w`, and of the tables
    of `w` only those in `changed` may differ;
  * `isolation`: what runs in `env` changes only `env`, as a congruence;
  * `Interpreter.eval_isolated`: the main statement.
-/
import MacroLisp.Interpreter
import MacroLisp.Proofs.Eval.Congruence
import Mathlib.Data.Set.Insert

namespace MacroLisp

namespace World

/-- The world `w'` has all tables and closures of `w`.  Of the tables only
    those in `changed` may be different, and no table has lost a name. -/
structure ChangesOnly (changed : Set Env) (w w' : World) : Prop where
  tables_le : w.tables.size ≤ w'.tables.size
  closures_le : w.closures.size ≤ w'.closures.size
  table {env : Env} : w.Holds env → env ∉ changed → w'.table env = w.table env
  contains {env : Env} {name : String} : w.contains env name = true → w'.contains env name = true
  closure {ref : ClosureRef} : ref.id < w.closures.size → w'.closure ref = w.closure ref

namespace ChangesOnly

variable {changed changed' : Set Env} {w w₁ w₂ : World}

theorem holds (h : w.ChangesOnly changed w₁) {env : Env} (he : w.Holds env) : w₁.Holds env :=
  Nat.lt_of_lt_of_le he h.tables_le

protected theorem refl (changed : Set Env) (w : World) : w.ChangesOnly changed w :=
  ⟨Nat.le_refl _, Nat.le_refl _, fun _ _ => rfl, id, fun _ => rfl⟩

protected theorem trans (h₁ : w.ChangesOnly changed w₁) (h₂ : w₁.ChangesOnly changed w₂) :
    w.ChangesOnly changed w₂ where
  tables_le := h₁.tables_le.trans h₂.tables_le
  closures_le := h₁.closures_le.trans h₂.closures_le
  table hw hc := (h₂.table (h₁.holds hw) hc).trans (h₁.table hw hc)
  contains hn := h₂.contains (h₁.contains hn)
  closure hr := (h₂.closure (Nat.lt_of_lt_of_le hr h₁.closures_le)).trans (h₁.closure hr)

theorem mono (h : w.ChangesOnly changed w₁) (hs : changed ⊆ changed') :
    w.ChangesOnly changed' w₁ :=
  { h with table := fun hw hc => h.table hw fun hm => hc (hs hm) }

/-- A change to tables that are not there yet changes nothing. -/
theorem of_fresh (h₁ : w.ChangesOnly ∅ w₁) (h₂ : w₁.ChangesOnly changed w₂)
    (hf : ∀ env ∈ changed, ¬ w.Holds env) : w.ChangesOnly ∅ w₂ where
  tables_le := h₁.tables_le.trans h₂.tables_le
  closures_le := h₁.closures_le.trans h₂.closures_le
  table hw hc := (h₂.table (h₁.holds hw) fun hm => hf _ hm hw).trans (h₁.table hw hc)
  contains hn := h₂.contains (h₁.contains hn)
  closure hr := (h₂.closure (Nat.lt_of_lt_of_le hr h₁.closures_le)).trans (h₁.closure hr)

end ChangesOnly

variable (w : World)

theorem changesOnly_print (s : String) : w.ChangesOnly ∅ (w.print s) :=
  ⟨Nat.le_refl _, Nat.le_refl _, fun _ _ => rfl, id, fun _ => rfl⟩

theorem changesOnly_addClosure (name : String) (c : Closure) :
    w.ChangesOnly ∅ (w.addClosure name c).2 where
  tables_le := Nat.le_refl _
  closures_le := by simp [addClosure]
  table _ _ := rfl
  contains := id
  closure {ref} hr := by
    simp [closure, addClosure, Array.getElem?_push, Nat.ne_of_lt hr]

theorem changesOnly_addTable (t : Table) : w.ChangesOnly ∅ (w.addTable t).2 where
  tables_le := by simp [addTable]
  closures_le := Nat.le_refl _
  table hw _ := table_addTable_of_holds t hw
  contains {env name} hn := by
    by_cases hw : w.Holds env
    · rwa [contains, table_addTable_of_holds t hw]
    · -- no name is bound where there is no table
      simp only [Holds, Nat.not_lt] at hw
      simp [contains, table, hw] at hn
  closure _ := rfl

theorem changesOnly_bind (env : Env) (name : String) (v : Value) :
    w.ChangesOnly {env} (w.bind env name v) where
  tables_le := by simp [bind]
  closures_le := Nat.le_refl _
  table _ hc := table_bind_of_ne name v hc
  contains {other n} hn := by
    by_cases ho : other = env
    · subst ho
      by_cases hw : w.Holds other
      · rw [contains, table_bind_self name v hw, Std.TreeMap.contains_insert]
        simp [show (w.table other).contains n = true from hn]
      · simp only [Holds, Nat.not_lt] at hw
        simp [contains, table, hw] at hn
    · rwa [contains, table_bind_of_ne name v ho]
  closure _ := rfl

end World

/-! ## Evaluations -/

/-- The evaluation `act` changes no table but those in `changed`. -/
def EvalM.ChangesOnly {α : Type} (changed : Set Env) (act : EvalM α) : Prop :=
  ∀ m : Machine, m.world.ChangesOnly changed (act.runOn m).2.world

namespace EvalM.ChangesOnly

variable {α β : Type} {changed changed' : Set Env} {act : EvalM α}

theorem mono (h : act.ChangesOnly changed) (hs : changed ⊆ changed') : act.ChangesOnly changed' :=
  fun m => (h m).mono hs

theorem bind {next : α → EvalM β} (h : act.ChangesOnly changed)
    (hn : ∀ a, (next a).ChangesOnly changed) : (act >>= next).ChangesOnly changed := by
  intro m
  have h₁ := h m
  rcases hm : act.runOn m with ⟨e | a, m₁⟩ <;> rw [hm] at h₁
  · rw [runOn_bind_of_error next hm]
    exact h₁
  · rw [runOn_bind_of_ok next hm]
    exact h₁.trans (hn a m₁)

theorem nested (h : act.ChangesOnly changed) : act.nested.ChangesOnly changed :=
  fun m => h ⟨m.world, m.depth + 1⟩

/-- What runs in a frame changes only tables that there were not before. -/
theorem frame_bind (c : Closure) (args : List Value) {next : Env → EvalM β}
    (hn : ∀ f, (next f).ChangesOnly {f}) : (frame c args >>= next).ChangesOnly ∅ := by
  intro m
  have hnew : ¬ m.world.Holds (m.world.frame c args).1 := by
    simp [World.Holds, World.frame, World.addTable]
  have hframe : m.world.ChangesOnly ∅ (m.world.frame c args).2 := m.world.changesOnly_addTable _
  have hrun := hn (m.world.frame c args).1 ⟨(m.world.frame c args).2, m.depth⟩
  rw [runOn_bind_of_ok next (runOn_frame m c args)]
  refine hframe.of_fresh hrun fun env he => ?_
  rw [Set.mem_singleton_iff] at he
  exact he ▸ hnew

/-- What changes nothing but an arbitrary scope changes nothing that there is. -/
theorem of_forall (h : ∀ env, act.ChangesOnly {env}) : act.ChangesOnly ∅ := by
  intro m
  -- take a handle that has no table
  have h₁ := h ⟨m.world.tables.size⟩ m
  refine (World.ChangesOnly.refl ∅ m.world).of_fresh h₁ fun env he => ?_
  rw [Set.mem_singleton_iff] at he
  simp [he, World.Holds]

end EvalM.ChangesOnly

/-- **What runs in a scope changes no table but that of the scope.** -/
def isolation : Evaluator.Congruence where
  rel := fun env _ act _ => act.ChangesOnly {env}
  ofExcept := fun _ m => World.ChangesOnly.refl _ m.world
  read := fun _ m => World.ChangesOnly.refl _ m.world
  bind := fun h hn => h.bind hn
  define := fun name v m => m.world.changesOnly_bind _ name v
  close := fun name c m => (m.world.changesOnly_addClosure name c).mono (Set.empty_subset _)
  print := fun s m => (m.world.changesOnly_print s).mono (Set.empty_subset _)
  inFrame := fun c args _ _ hn => (EvalM.ChangesOnly.frame_bind c args hn).mono (Set.empty_subset _)

theorem eval_changesOnly (h : Host) (room : Nat) (e : Expr) (env : Env) :
    (eval h room e env).ChangesOnly {env} := by
  induction room generalizing e env with
  | zero => exact fun m => World.ChangesOnly.refl _ m.world
  | succ room ih =>
    have hin : isolation.Relates (eval h room) (eval h room) := ih
    have hstep : (Evaluator.step h (eval h room) e env).ChangesOnly {env} :=
      Evaluator.Congruence.step hin h e env
    exact hstep.nested

section
variable {h : Host} {room : Nat} {ref : ClosureRef} {args : List Expr} {env : Env}

/-- A macro changes nothing while it makes its code. -/
theorem expand_changesOnly : ((eval h room).expand ref args).ChangesOnly ∅ := by
  have hin : isolation.Relates (eval h room) (eval h room) := eval_changesOnly h room
  exact EvalM.ChangesOnly.of_forall fun env => Evaluator.Congruence.expand hin ref args

/-- A call of a function on too many or too few arguments leaves all as it is. -/
theorem runOn_applyFunction_of_ne {m : Machine}
    (hn : args.length ≠ (m.world.closure ref).params.length) :
    (((eval h room).applyFunction ref args env).runOn m).2 = m := by
  simp [Evaluator.applyFunction, EvalM.closure, EvalM.runOn_bind, Arity.check, hn]

/-- A function changes nothing besides what its arguments change. -/
theorem runOn_applyFunction_of_eq {m : Machine}
    (hn : args.length = (m.world.closure ref).params.length) :
    (((eval h room).arguments args env).runOn m).2.world.ChangesOnly ∅
      (((eval h room).applyFunction ref args env).runOn m).2.world := by
  have hcall : ((eval h room).applyFunction ref args env).runOn m =
      ((eval h room).arguments args env >>= fun vs =>
        EvalM.frame (m.world.closure ref) vs >>= fun f =>
          eval h room (m.world.closure ref).body f).runOn m := by
    simp [Evaluator.applyFunction, EvalM.closure, EvalM.runOn_bind, Arity.check, hn]
  rw [hcall]
  rcases hm : ((eval h room).arguments args env).runOn m with ⟨e | vs, m₁⟩
  · rw [EvalM.runOn_bind_of_error _ hm]
    exact World.ChangesOnly.refl _ m₁.world
  · rw [EvalM.runOn_bind_of_ok _ hm]
    exact EvalM.ChangesOnly.frame_bind _ vs (fun f => eval_changesOnly h room _ f) m₁

end

/-! ## Interpreters -/

/-- The world after some evaluations, one after the other, each with an
    interpreter and in a scope of its own. -/
def World.after (h : Host) (w : World) (runs : List (Interpreter × Expr × Env)) : World :=
  runs.foldl (fun w run => (run.1.eval h w run.2.1 run.2.2).world) w

theorem World.after_cons (h : Host) (w : World) (run : Interpreter × Expr × Env)
    (runs : List (Interpreter × Expr × Env)) :
    w.after h (run :: runs) = World.after h (run.1.eval h w run.2.1 run.2.2).world runs := rfl

/-- A table keeps its bindings as long as nothing is evaluated in its scope. -/
theorem World.changesOnly_after (h : Host) (w : World) (changed : Set Env)
    (runs : List (Interpreter × Expr × Env)) (hruns : ∀ run ∈ runs, run.2.2 ∈ changed) :
    w.ChangesOnly changed (w.after h runs) := by
  induction runs generalizing w with
  | nil => exact .refl changed w
  | cons run runs ih =>
    obtain ⟨i, e, env⟩ := run
    have hrun := eval_changesOnly h i.room e env ⟨w, i.depth⟩
    have hscope : {env} ⊆ changed := Set.singleton_subset_iff.2 (hruns (i, e, env) (by simp))
    rw [World.after_cons]
    exact (hrun.mono hscope).trans (ih _ fun run hr => hruns run (by simp [hr]))

/-- **Binding tables are isolated from each other.**
    An evaluation in a scope, whether it succeeds or fails, changes no table
    but that of the scope.  A call of a function changes besides only what its
    arguments change, and nothing if they are not as many as it takes.  A macro
    changes nothing while it makes its code.  So a table stays as it is as long
    as all that is evaluated is evaluated in other scopes. -/
theorem Interpreter.eval_isolated (h : Host) (i : Interpreter) (w : World) (env : Env) :
    (∀ e, w.ChangesOnly {env} (i.eval h w e env).world) ∧
    (∀ ref args, args.length = (w.closure ref).params.length →
      (i.evalArguments h w args env).world.ChangesOnly ∅
        (i.apply h w (.function ref) args env).world) ∧
    (∀ ref args, args.length ≠ (w.closure ref).params.length →
      (i.apply h w (.function ref) args env).world = w) ∧
    (∀ ref args, w.ChangesOnly ∅ (i.expand h w ref args).world) ∧
    ∀ runs : List (Interpreter × Expr × Env), (∀ run ∈ runs, run.2.2 ≠ env) → w.Holds env →
      (w.after h runs).table env = w.table env := by
  refine ⟨fun e => ?_, fun ref args hn => ?_, fun ref args hn => ?_, fun ref args => ?_,
    fun runs hruns hw => ?_⟩
  · exact eval_changesOnly h i.room e env ⟨w, i.depth⟩
  · exact runOn_applyFunction_of_eq (m := ⟨w, i.depth⟩) hn
  · exact congrArg Machine.world (runOn_applyFunction_of_ne (m := ⟨w, i.depth⟩) hn)
  · exact expand_changesOnly ⟨w, i.depth⟩
  · have hall := w.changesOnly_after h {env}ᶜ runs hruns
    exact hall.table hw fun hc => hc rfl

/-- A function with a definition in its body, called on a definition, and
    another frame of it. -/
theorem Interpreter.eval_isolated_definer :
    let body := Expr.list [.symbol "define", .symbol "y", .symbol "x"]
    let arg := Expr.list [.symbol "define", .symbol "z", .number (.int 1)]
    let w : World := ⟨#[.default, .bindAll .default [("x", .int 2)]], #[⟨["x"], body, ⟨0⟩⟩], ""⟩
    let call := Expr.list [.const (.callable (.function ⟨0, "f"⟩)), arg]
    ((idle 9).evalArguments .none w [arg] ⟨0⟩).world.ChangesOnly ∅
        ((idle 9).apply .none w (.function ⟨0, "f"⟩) [arg] ⟨0⟩).world ∧
      ((idle 9).apply .none w (.function ⟨0, "f"⟩) [] ⟨0⟩).world = w ∧
      (w.after .none [(idle 9, call, ⟨0⟩)]).table ⟨1⟩ = w.table ⟨1⟩ := by
  intro body arg w call
  have hzero := eval_isolated .none (idle 9) w ⟨0⟩
  have hone := eval_isolated .none (idle 9) w ⟨1⟩
  exact ⟨hzero.2.1 _ _ rfl, hzero.2.2.1 _ _ nofun,
    hone.2.2.2.2 _ (by simp) (by simp [World.Holds, w])⟩

end MacroLisp
