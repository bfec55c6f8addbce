/-
  Calls that are refused.

  Every call first checks the number of its arguments, and a form that defines
  something or makes a closure then checks the name and the parameters that it
  is given.  Nothing is evaluated before these checks are passed: a call that
  fails one of them is the same for all evaluators, and leaves the machine as
  it is.

  * `Callable.Refuses`: a call that ends before anything is evaluated;
  * `Form.Offence`: what is wrong with the arguments of a form, from left to
    right;
  * `Interpreter.apply_refused`: the main statement, with what a definition
    does whose value cannot be had.
-/
import MacroLisp.Proofs.Eval.Calls

namespace MacroLisp

variable {h : Host} {env : Env} {args : List Expr} {m : Machine}

/-- How many arguments a callable takes. -/
def World.arity (w : World) : Callable → Arity
  | .function ref | .expander ref => .exactly (w.closure ref).params.length
  | .builtin b => b.arity

/-- The call ends with the error `e` whatever evaluates what is inside, so
    nothing is evaluated, and the machine stays as it is. -/
def Callable.Refuses (h : Host) (c : Callable) (args : List Expr) (env : Env) (m : Machine)
    (e : EvalError) : Prop :=
  ∀ run : Evaluator, (run.apply h c args env).runOn m = (.error e, m)

namespace EvalM

variable {α β : Type} {r : Except EvalError α}

/-- What follows a check that fails is not run. -/
theorem runOn_check_of_error {e : EvalError} (hr : r = .error e) (next : α → EvalM β) :
    (ofExcept r >>= next).runOn m = (.error e, m) := by
  rw [runOn_bind, runOn_ofExcept, hr]

theorem runOn_check_of_ok {a : α} (hr : r = .ok a) (next : α → EvalM β) :
    (ofExcept r >>= next).runOn m = (next a).runOn m := by
  rw [runOn_bind, runOn_ofExcept, hr]

end EvalM

/-! ## Numbers of arguments -/

theorem Arity.check_of_not_accepts {a : Arity} {got : Nat} (hn : a.accepts got = false)
    (name : String) : a.check name got = .error (.arity name a got) :=
  if_neg (by simp [hn])

namespace Evaluator

variable (run : Evaluator) {ref : ClosureRef}

theorem runOn_expand_of_not_accepts
    (hn : (Arity.exactly (m.world.closure ref).params.length).accepts args.length = false) :
    (run.expand ref args).runOn m =
      (.error (.arity ref.name (.exactly (m.world.closure ref).params.length) args.length), m) := by
  rw [expand, EvalM.runOn_bind_of_ok _ (EvalM.runOn_closure m ref)]
  exact EvalM.runOn_check_of_error (Arity.check_of_not_accepts hn _) _

theorem runOn_applyFunction_of_not_accepts
    (hn : (Arity.exactly (m.world.closure ref).params.length).accepts args.length = false) :
    (run.applyFunction ref args env).runOn m =
      (.error (.arity ref.name (.exactly (m.world.closure ref).params.length) args.length), m) := by
  rw [applyFunction, EvalM.runOn_bind_of_ok _ (EvalM.runOn_closure m ref)]
  exact EvalM.runOn_check_of_error (Arity.check_of_not_accepts hn _) _

end Evaluator

/-- **A callable refuses all numbers of arguments that it does not take.** -/
theorem Callable.refuses_of_not_accepts {c : Callable}
    (hn : (m.world.arity c).accepts args.length = false) :
    c.Refuses h args env m (.arity c.name (m.world.arity c) args.length) := by
  intro run
  cases c with
  | function ref => exact run.runOn_applyFunction_of_not_accepts hn
  | expander ref => exact EvalM.runOn_bind_of_error _ (run.runOn_expand_of_not_accepts hn)
  | builtin b => exact EvalM.runOn_check_of_error (Arity.check_of_not_accepts hn _) _

/-! ## Names and parameters -/

def Expr.IsSymbol (e : Expr) : Prop := ∃ name, e = .symbol name

namespace Form

variable {f : Form} {e : Expr}

/-- The argument with the name that a form binds. -/
def target? (f : Form) (args : List Expr) : Option Expr :=
  match f with
  | define | defineFunction | defineMacro => args[0]?
  | _ => none

/-- The argument with the parameters of the closure that a form makes. -/
def parameters? (f : Form) (args : List Expr) : Option Expr :=
  match f with
  | lambda => args[0]?
  | defineFunction | defineMacro => args[1]?
  | _ => none

/-- The name is a symbol, and the parameters are a list of symbols, if the form
    has them. -/
structure WellShaped (f : Form) (args : List Expr) : Prop where
  target : ∀ e ∈ f.target? args, e.IsSymbol
  parameters : ∀ e ∈ f.parameters? args, ∃ items, e = .list items ∧ ∀ item ∈ items, item.IsSymbol

/-- The first thing that is wrong with the arguments of a form: its name, or its
    parameters as a whole, or the first of them that is no symbol. -/
inductive Offence (f : Form) (args : List Expr) : MalformedForm → Prop where
  | target {e : Expr} (ht : f.target? args = some e) (he : ¬ e.IsSymbol) :
      Offence f args (.expectedSymbol e)
  | parameters {e : Expr} (ht : ∀ t ∈ f.target? args, t.IsSymbol)
      (hp : f.parameters? args = some e) (he : ∀ items, e ≠ .list items) :
      Offence f args (.expectedParameters e)
  | parameter {names later : List Expr} {e : Expr} (ht : ∀ t ∈ f.target? args, t.IsSymbol)
      (hp : f.parameters? args = some (.list (names ++ e :: later)))
      (hn : ∀ name ∈ names, name.IsSymbol) (he : ¬ e.IsSymbol) :
      Offence f args (.expectedSymbol e)

theorem exists_first_not_symbol {items : List Expr} (h : ¬ ∀ item ∈ items, item.IsSymbol) :
    ∃ names e later, items = names ++ e :: later ∧ (∀ name ∈ names, name.IsSymbol) ∧
      ¬ e.IsSymbol := by
  induction items with
  | nil => exact absurd nofun h
  | cons item items ih =>
    by_cases hi : item.IsSymbol
    · obtain ⟨names, e, later, rfl, hn, he⟩ := ih fun hall => h (List.forall_mem_cons.2 ⟨hi, hall⟩)
      exact ⟨item :: names, e, later, rfl, List.forall_mem_cons.2 ⟨hi, hn⟩, he⟩
    · exact ⟨[], item, items, rfl, nofun, hi⟩

/-- Arguments of the wrong shape have a first offence. -/
theorem exists_offence (hw : ¬ f.WellShaped args) : ∃ e, f.Offence args e := by
  by_cases ht : ∀ e ∈ f.target? args, e.IsSymbol
  · have hp : ¬ ∀ e ∈ f.parameters? args, ∃ items, e = .list items ∧
        ∀ item ∈ items, item.IsSymbol := fun hp => hw ⟨ht, hp⟩
    push Not at hp
    obtain ⟨e, he, hitems⟩ := hp
    by_cases hl : ∃ items, e = .list items
    · obtain ⟨items, rfl⟩ := hl
      obtain ⟨item, hitem, hi⟩ := hitems items rfl
      obtain ⟨names, e, later, rfl, hn, he'⟩ :=
        exists_first_not_symbol fun hall => hi (hall item hitem)
      exact ⟨_, .parameter ht he hn he'⟩
    · exact ⟨_, .parameters ht he fun items hl' => hl ⟨items, hl'⟩⟩
  · push Not at ht
    obtain ⟨e, he, hs⟩ := ht
    exact ⟨_, .target he hs⟩

/-! ## The checks of a form -/

theorem symbolName_of_not_symbol (f : Form) (he : ¬ e.IsSymbol) :
    f.symbolName e = .error (.malformed f (.expectedSymbol e)) := by
  cases e with
  | symbol name => exact absurd ⟨name, rfl⟩ he
  | _ => rfl

theorem parameters_of_not_list (f : Form) (he : ∀ items, e ≠ .list items) :
    f.parameters e = .error (.malformed f (.expectedParameters e)) := by
  cases e with
  | list items => exact absurd rfl (he items)
  | _ => rfl

theorem parameters_of_not_symbol (f : Form) {names later : List Expr}
    (hn : ∀ name ∈ names, name.IsSymbol) (he : ¬ e.IsSymbol) :
    f.parameters (.list (names ++ e :: later)) = .error (.malformed f (.expectedSymbol e)) := by
  rw [parameters]
  induction names with
  | nil => rw [List.nil_append, List.mapM_cons, f.symbolName_of_not_symbol he]; rfl
  | cons name names ih =>
    obtain ⟨⟨s, hs⟩, hnames⟩ := List.forall_mem_cons.1 hn
    rw [List.cons_append, List.mapM_cons, ih hnames, hs]
    rfl

/-- What the checks of a form find, the name first. -/
theorem Offence.check {reason : MalformedForm} (ho : f.Offence args reason) :
    (∃ e, f.target? args = some e ∧ f.symbolName e = .error (.malformed f reason)) ∨
      (∀ t ∈ f.target? args, ∃ name, f.symbolName t = .ok name) ∧
        ∃ e, f.parameters? args = some e ∧ f.parameters e = .error (.malformed f reason) := by
  have hname {t : Expr} (ht : t.IsSymbol) : ∃ name, f.symbolName t = .ok name := by
    obtain ⟨name, rfl⟩ := ht
    exact ⟨name, rfl⟩
  cases ho with
  | target ht he => exact .inl ⟨_, ht, f.symbolName_of_not_symbol he⟩
  | parameters ht hp he =>
    exact .inr ⟨fun t hm => hname (ht t hm), _, hp, f.parameters_of_not_list he⟩
  | parameter ht hp hn he =>
    exact .inr ⟨fun t hm => hname (ht t hm), _, hp, f.parameters_of_not_symbol hn he⟩

/-- **A form that is given the wrong shape says what is wrong first**, and
    evaluates, binds and prints nothing. -/
theorem Offence.runOn_call {reason : MalformedForm} (ho : f.Offence args reason)
    (hn : f.arity.accepts args.length = true) (run : Evaluator) :
    (f.call run args env).runOn m = (.error (.malformed f reason), m) := by
  have hcheck := ho.check
  cases f with
  | define =>
    obtain ⟨target, value, rfl⟩ := List.length_eq_two.1 (Arity.accepts_exactly.1 hn)
    rcases hcheck with ⟨_, ⟨⟩, ht⟩ | ⟨_, _, ⟨⟩, _⟩
    exact EvalM.runOn_check_of_error ht _
  | lambda =>
    obtain ⟨params, body, rfl⟩ := List.length_eq_two.1 (Arity.accepts_exactly.1 hn)
    rcases hcheck with ⟨_, ⟨⟩, _⟩ | ⟨_, _, ⟨⟩, hp⟩
    exact EvalM.runOn_check_of_error hp _
  | defineFunction | defineMacro =>
    obtain ⟨target, params, body, rfl⟩ := List.length_eq_three.1 (Arity.accepts_exactly.1 hn)
    rcases hcheck with ⟨_, ⟨⟩, ht⟩ | ⟨hname, _, ⟨⟩, hp⟩
    · exact EvalM.runOn_check_of_error ht _
    · obtain ⟨name, ht⟩ := hname target rfl
      exact (EvalM.runOn_check_of_ok ht _).trans (EvalM.runOn_check_of_error hp _)
  | conditional | quote | backquote | unquote | sequence =>
    rcases hcheck with ⟨_, ⟨⟩, _⟩ | ⟨_, _, ⟨⟩, _⟩

/-- A definition that has a name evaluates its value, and then binds it. -/
theorem runOn_call_define (run : Evaluator) (name : String) (value : Expr) :
    (define.call run [.symbol name, value] env).runOn m =
      (run value env >>= EvalM.define env name).runOn m :=
  EvalM.runOn_check_of_ok rfl _

end Form

/-! ## Interpreters -/

namespace Interpreter

variable {i : Interpreter} {w : World}

theorem apply_of_refuses {c : Callable} {e : EvalError} (hc : c.Refuses h args env ⟨w, i.depth⟩ e) :
    i.apply h w c args env = ⟨.error e, i, w⟩ := by
  rw [apply, perform, hc]

/-- A definition whose value cannot be had binds nothing. -/
theorem apply_define_of_error {name : String} {value : Expr} {e : EvalError}
    (he : (i.eval h w value env).result = .error e) :
    i.apply h w (.builtin (.form .define)) [.symbol name, value] env = i.eval h w value env := by
  let run := MacroLisp.eval h i.room
  have hvalue : (run value env).runOn ⟨w, i.depth⟩ =
      (.error e, ((run value env).runOn ⟨w, i.depth⟩).2) := Prod.ext he rfl
  have hcall :
      (run.apply h (.builtin (.form .define)) [.symbol name, value] env).runOn ⟨w, i.depth⟩ =
        (run value env >>= EvalM.define env name).runOn ⟨w, i.depth⟩ :=
    (run.runOn_apply_form rfl).trans (Form.runOn_call_define run name value)
  rw [EvalM.runOn_bind_of_error _ hvalue, ← hvalue] at hcall
  rw [apply, eval, perform, perform, hcall]

/-- **A call that is refused leaves no trace.**
    A callable that is given a number of arguments that it does not take answers
    with its name, the number that it takes and the number given.  A form whose
    name is no symbol, or whose parameters are no list of symbols, says what is
    wrong first.  Neither evaluates anything, so the world and the interpreter
    stay as they are.  A definition whose value cannot be had does what the
    evaluation of the value does, and nothing else. -/
theorem apply_refused (h : Host) (i : Interpreter) (w : World) (env : Env) :
    (∀ (c : Callable) (args : List Expr), (w.arity c).accepts args.length = false →
      let e := EvalError.arity c.name (w.arity c) args.length
      c.Refuses h args env ⟨w, i.depth⟩ e ∧ i.apply h w c args env = ⟨.error e, i, w⟩) ∧
    (∀ (f : Form) (args : List Expr), f.arity.accepts args.length = true → ¬ f.WellShaped args →
      ∃ reason, f.Offence args reason ∧
        let e := EvalError.malformed f reason
        let c := Callable.builtin (.form f)
        c.Refuses h args env ⟨w, i.depth⟩ e ∧ i.apply h w c args env = ⟨.error e, i, w⟩) ∧
    ∀ (name : String) (value : Expr) (e : EvalError), (i.eval h w value env).result = .error e →
      i.apply h w (.builtin (.form .define)) [.symbol name, value] env = i.eval h w value env := by
  refine ⟨fun c args hn => ?_, fun f args hn hw => ?_, fun name value e he => ?_⟩
  · have hc : c.Refuses h args env ⟨w, i.depth⟩ (.arity c.name (w.arity c) args.length) :=
      Callable.refuses_of_not_accepts hn
    exact ⟨hc, apply_of_refuses hc⟩
  · obtain ⟨reason, ho⟩ := Form.exists_offence hw
    have hc : (Callable.builtin (.form f)).Refuses h args env ⟨w, i.depth⟩ (.malformed f reason) :=
      fun run => (run.runOn_apply_form hn).trans (ho.runOn_call hn run)
    exact ⟨reason, ho, hc, apply_of_refuses hc⟩
  · exact apply_define_of_error he

/-- Arguments that would bind a name, for a function that takes fewer of them, in
    the place of a parameter, and in a value that cannot be had. -/
theorem apply_refused_definition :
    let w : World := ⟨#[.default], #[⟨["x"], .symbol "x", ⟨0⟩⟩], ""⟩
    let form (f : Form) : Callable := .builtin (.form f)
    let binds : Expr := .list [.const (.callable (form .define)), .symbol "y", .number (.int 1)]
    let value : Expr := .list [.const (.callable (.builtin (.primitive .first))), binds]
    (idle 9).apply .none w (.function ⟨0, "f"⟩) [binds, binds] ⟨0⟩ =
        ⟨.error (.arity "f" (.exactly 1) 2), idle 9, w⟩ ∧
      (∃ reason,
        Form.defineFunction.Offence [.symbol "f", .list [.symbol "x", binds], binds] reason ∧
        (idle 9).apply .none w (form .defineFunction)
            [.symbol "f", .list [.symbol "x", binds], binds] ⟨0⟩ =
          ⟨.error (.malformed .defineFunction reason), idle 9, w⟩) ∧
      (idle 9).apply .none w (form .define) [.symbol "z", value] ⟨0⟩ =
        (idle 9).eval .none w value ⟨0⟩ := by
  intro w form binds value
  have hall := apply_refused .none (idle 9) w ⟨0⟩
  have hshape : ¬ Form.defineFunction.WellShaped
      [.symbol "f", .list [.symbol "x", binds], binds] := by
    intro hs
    obtain ⟨_, ⟨⟩, hsymbols⟩ := hs.parameters _ rfl
    obtain ⟨name, hname⟩ := hsymbols binds (by simp)
    simp [binds] at hname
  obtain ⟨reason, ho, -, hmalformed⟩ := hall.2.1 .defineFunction _ rfl hshape
  exact ⟨(hall.1 (.function ⟨0, "f"⟩) [binds, binds] rfl).2, ⟨reason, ho, hmalformed⟩,
    hall.2.2 "z" value _ rfl⟩

end Interpreter

end MacroLisp
