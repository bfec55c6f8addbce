/-
  Evaluations: what they read and change, and how they fail.

  An evaluation runs on a world and counts how deep it is nested.  When it
  fails, the world keeps what was done before, and the count is back at what
  it was (`nested`).
-/
import MacroLisp.EvalError
import MacroLisp.World

namespace MacroLisp

/-- The world, and how many evaluations are under way in one another. -/
structure Machine where
  world : World
  depth : Nat

/-- A computation that changes a machine, whether or not it fails. -/
abbrev EvalM := ExceptT EvalError (StateM Machine)

/-- A way to evaluate an expression in a scope. -/
abbrev Evaluator := Expr → Env → EvalM Value

namespace EvalM

variable {α : Type}

/-- The result of `act` on the machine `m`, and the machine afterwards. -/
def runOn (act : EvalM α) (m : Machine) : Except EvalError α × Machine :=
  act m

/-- A result that depends on no machine. -/
def ofExcept (r : Except EvalError α) : EvalM α :=
  ExceptT.mk fun m => (r, m)

/-- Reads the world. -/
def read (f : World → α) : EvalM α :=
  ExceptT.mk fun m => (.ok (f m.world), m)

/-- Changes the world, and answers. -/
def update (f : World → α × World) : EvalM α :=
  ExceptT.mk fun ⟨world, depth⟩ =>
    let (a, world) := f world
    (.ok a, ⟨world, depth⟩)

/-- The refusal to evaluate any deeper. -/
def exhausted : EvalM α :=
  ExceptT.mk fun m => (.error (.stackExhausted m.depth), m)

/-- Runs `act` one level deeper. -/
def nested (act : EvalM α) : EvalM α :=
  ExceptT.mk fun ⟨world, depth⟩ =>
    let (r, ⟨world, inner⟩) := act.runOn ⟨world, depth + 1⟩
    (r, ⟨world, inner - 1⟩)

/-! ## How evaluations compose -/

@[simp] theorem runOn_pure (a : α) (m : Machine) : (pure a : EvalM α).runOn m = (.ok a, m) := rfl

@[simp] theorem runOn_throw (e : EvalError) (m : Machine) :
    (throw e : EvalM α).runOn m = (.error e, m) := rfl

/-- What follows a failure is not run. -/
theorem runOn_bind {β : Type} (act : EvalM α) (next : α → EvalM β) (m : Machine) :
    (act >>= next).runOn m =
      match act.runOn m with
      | (.ok a, m') => (next a).runOn m'
      | (.error e, m') => (.error e, m') := by
  show (do let (r, m') ← act m; ExceptT.bindCont next r m' : Id _) = _
  unfold runOn
  rcases act m with ⟨_ | _, _⟩ <;> rfl

theorem runOn_bind_of_ok {β : Type} {act : EvalM α} (next : α → EvalM β) {m m' : Machine} {a : α}
    (h : act.runOn m = (.ok a, m')) : (act >>= next).runOn m = (next a).runOn m' := by
  rw [runOn_bind, h]

theorem runOn_bind_of_error {β : Type} {act : EvalM α} (next : α → EvalM β) {m m' : Machine}
    {e : EvalError} (h : act.runOn m = (.error e, m')) :
    (act >>= next).runOn m = (.error e, m') := by
  rw [runOn_bind, h]

/-- What follows has run when there is a result. -/
theorem runOn_bind_eq_ok {β : Type} {act : EvalM α} {next : α → EvalM β} {m m' : Machine} {b : β}
    (h : (act >>= next).runOn m = (.ok b, m')) :
    ∃ a m₁, act.runOn m = (.ok a, m₁) ∧ (next a).runOn m₁ = (.ok b, m') := by
  rcases hact : act.runOn m with ⟨e | a, m₁⟩
  · rw [runOn_bind_of_error next hact] at h
    cases h
  · rw [runOn_bind_of_ok next hact] at h
    exact ⟨a, m₁, rfl, h⟩

/-- Two evaluations agree if their first parts do, and what follows the results. -/
theorem runOn_bind_congr {β : Type} {act act' : EvalM α} {next next' : α → EvalM β} {m : Machine}
    (h : act.runOn m = act'.runOn m)
    (hnext : ∀ a m', act'.runOn m = (.ok a, m') → (next a).runOn m' = (next' a).runOn m') :
    (act >>= next).runOn m = (act' >>= next').runOn m := by
  rcases hact : act'.runOn m with ⟨e | a, m'⟩
  · rw [runOn_bind_of_error next (h.trans hact), runOn_bind_of_error next' hact]
  · rw [runOn_bind_of_ok next (h.trans hact), runOn_bind_of_ok next' hact, hnext a m' hact]

@[simp] theorem runOn_ofExcept (r : Except EvalError α) (m : Machine) :
    (ofExcept r).runOn m = (r, m) := rfl

@[simp] theorem runOn_read (f : World → α) (m : Machine) :
    (read f).runOn m = (.ok (f m.world), m) := rfl

@[simp] theorem runOn_update (f : World → α × World) (m : Machine) :
    (update f).runOn m = (.ok (f m.world).1, ⟨(f m.world).2, m.depth⟩) := rfl

@[simp] theorem runOn_exhausted (m : Machine) :
    (exhausted : EvalM α).runOn m = (.error (.stackExhausted m.depth), m) := rfl

theorem runOn_nested (act : EvalM α) (m : Machine) :
    (nested act).runOn m =
      ((act.runOn ⟨m.world, m.depth + 1⟩).1,
        ⟨(act.runOn ⟨m.world, m.depth + 1⟩).2.world,
          (act.runOn ⟨m.world, m.depth + 1⟩).2.depth - 1⟩) := rfl

/-! ## Operations on the world -/

/-- The value of a name. -/
def lookup (env : Env) (name : String) : EvalM (Option Value) :=
  read (·.lookup env name)

/-- Binds a name, and answers the value. -/
def define (env : Env) (name : String) (v : Value) : EvalM Value :=
  update fun w => (v, w.bind env name v)

/-- Makes a closure. -/
def close (name : String) (c : Closure) : EvalM ClosureRef :=
  update (·.addClosure name c)

/-- The parts of a closure. -/
def closure (ref : ClosureRef) : EvalM Closure :=
  read (·.closure ref)

/-- Makes a scope for the body of a closure. -/
def frame (c : Closure) (args : List Value) : EvalM Env :=
  update (·.frame c args)

def print (s : String) : EvalM Unit :=
  update fun w => ((), w.print s)

section
variable (m : Machine)

@[simp] theorem runOn_lookup (env : Env) (name : String) :
    (lookup env name).runOn m = (.ok (m.world.lookup env name), m) := rfl

@[simp] theorem runOn_define (env : Env) (name : String) (v : Value) :
    (define env name v).runOn m = (.ok v, ⟨m.world.bind env name v, m.depth⟩) := rfl

@[simp] theorem runOn_close (name : String) (c : Closure) :
    (close name c).runOn m =
      (.ok (m.world.addClosure name c).1, ⟨(m.world.addClosure name c).2, m.depth⟩) := rfl

@[simp] theorem runOn_closure (ref : ClosureRef) :
    (closure ref).runOn m = (.ok (m.world.closure ref), m) := rfl

@[simp] theorem runOn_frame (c : Closure) (args : List Value) :
    (frame c args).runOn m =
      (.ok (m.world.frame c args).1, ⟨(m.world.frame c args).2, m.depth⟩) := rfl

@[simp] theorem runOn_print (s : String) :
    (print s).runOn m = (.ok (), ⟨m.world.print s, m.depth⟩) := rfl

end

end EvalM

end MacroLisp
