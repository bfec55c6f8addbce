/-
  Only functions and macros of the program go deep.

  A scope is inert if no closure can be reached from it and none of the forms
  that make closures.  Nothing that runs there can then get hold of either:
  the operations make no callables, the host passes none, and quoted syntax
  holds none.  So evaluations are nested no deeper than the tree that is
  evaluated, and no form costs a level of its own.

  * `World.Reaches`: what can be reached from a scope;
  * `stillness`: evaluations in an inert scope, as a discipline;
  * `Interpreter.eval_of_inert`: the main statement.
-/
import MacroLisp.Proofs.Eval.Discipline
import MacroLisp.Proofs.Reader.Printable

namespace MacroLisp

/-! ## Inert scopes -/

namespace World

/-- The value is bound in the scope, or is an item of a list that can be
    reached. -/
inductive Reaches (w : World) (env : Env) : Value → Prop where
  | binding {name : String} {v : Value} (h : w.lookup env name = some v) : Reaches w env v
  | item {items : List Value} {v : Value} (h : Reaches w env (.list items)) (hv : v ∈ items) :
      Reaches w env v

/-- Neither a closure nor a form that makes one can be reached. -/
def Inert (w : World) (env : Env) : Prop :=
  ∀ c, w.Reaches env (.callable c) → c.isInert = true

variable {w : World} {env : Env}

theorem Reaches.of_occurs {v v' : Value} (h : v'.Occurs v) (hv : w.Reaches env v) :
    w.Reaches env v' := by
  induction h with
  | self => exact hv
  | item hi _ ih => exact ih (hv.item hi)

/-- It is enough to look at what the bindings consist of. -/
theorem inert_iff :
    w.Inert env ↔ ∀ name v, w.lookup env name = some v → v.Within False := by
  constructor
  · intro hw name v hv c hc
    exact .inr (hw c (.of_occurs (Value.mem_callables_iff.1 hc) (.binding hv)))
  · intro hw c hc
    have hreach : ∀ v, w.Reaches env v → v.Within False := by
      intro v hv
      induction hv with
      | binding h => exact hw _ _ h
      | item _ hi ih => exact Value.within_list_iff.1 ih _ hi
    exact (Value.within_callable_iff.1 (hreach _ hc)).resolve_left id

theorem lookup_bind {name other : String} {v v' : Value}
    (h : (w.bind env name v).lookup env other = some v') :
    v' = v ∨ w.lookup env other = some v' := by
  by_cases hne : other = name
  · subst hne
    by_cases hw : w.Holds env
    · rw [lookup_bind_self other v hw] at h
      exact .inl (Option.some.inj h).symm
    · -- there is no table, so nothing is bound
      simp only [Holds, Nat.not_lt] at hw
      simp [lookup, table, bind, hw] at h
  · rw [lookup_bind_of_ne v hne] at h
    exact .inr h

theorem Inert.bind (hw : w.Inert env) (name : String) {v : Value} (hv : v.Within False) :
    (w.bind env name v).Inert env := by
  refine inert_iff.2 fun other v' h => ?_
  rcases lookup_bind h with rfl | h
  · exact hv
  · exact inert_iff.1 hw other v' h

theorem Inert.print (hw : w.Inert env) (s : String) : (w.print s).Inert env :=
  inert_iff.2 fun name v h => inert_iff.1 hw name v h

end World

/-! ## The initial bindings -/

theorem mem_of_getElem?_ofList {bs : List (String × Value)} {name : String} {v : Value}
    (h : (Std.TreeMap.ofList bs : Table)[name]? = some v) : (name, v) ∈ bs := by
  rw [Std.TreeMap.ofList_eq_insertMany_empty, Std.TreeMap.getElem?_insertMany_list,
    Std.TreeMap.getElem?_emptyc, Option.or_none, List.findSomeRev?_eq_findSome?_reverse] at h
  obtain ⟨b, hb, hv⟩ := List.exists_of_findSome?_eq_some h
  obtain ⟨other, v'⟩ := b
  simp at hv
  obtain ⟨rfl, rfl⟩ := hv
  exact List.mem_reverse.1 hb

/-- The names of the forms that make closures. -/
def closureMakers : List String := [Form.lambda, .defineFunction, .defineMacro].map Form.name

/-- What programs start with is inert but for the forms that make closures. -/
theorem within_of_default {name : String} {v : Value} (h : Table.default[name]? = some v)
    (hn : name ∉ closureMakers) : v.Within False := by
  have hbuiltin : ∀ b ∈ Builtin.all, b.name ∈ closureMakers ∨ (Callable.builtin b).isInert = true := by
    decide
  rcases List.mem_append.1 (mem_of_getElem?_ofList h) with hb | hb
  · obtain ⟨b, -, hbv⟩ := List.mem_map.1 hb
    obtain ⟨rfl, rfl⟩ := Prod.mk.inj hbv
    exact Value.within_callable_iff.2 (.inr ((hbuiltin b b.mem_all).resolve_left hn))
  · refine Value.within_of_eq_nil ?_
    simp only [List.mem_cons, Prod.mk.injEq, List.not_mem_nil, or_false] at hb
    rcases hb with ⟨-, rfl⟩ | ⟨-, rfl⟩ | ⟨-, rfl⟩ <;> rfl

/-- **The initial scope is inert once the names of the forms that make closures
    are bound to something else.** -/
theorem inert_of_shadowed {w : World} {env : Env} (v : Value) (hv : v.Within False)
    (hw : w.table env = Table.default.bindAll (closureMakers.map (·, v))) : w.Inert env := by
  refine World.inert_iff.2 fun name v' h => ?_
  rw [World.lookup, hw, Table.getElem?_bindAll] at h
  cases hl : ((closureMakers.map (·, v)).reverse).lookup name with
  | some v'' =>
    rw [hl] at h
    obtain rfl := Option.some.inj h
    obtain ⟨before, after, hbs, -⟩ := List.lookup_eq_some_iff.1 hl
    have hm : (name, v'') ∈ closureMakers.map (·, v) :=
      List.mem_reverse.1 (hbs ▸ List.mem_append_right _ (.head _))
    obtain ⟨_, -, he⟩ := List.mem_map.1 hm
    obtain rfl := (Prod.mk.inj he).2
    exact hv
  | none =>
    rw [hl] at h
    refine within_of_default h fun hn => ?_
    have hm := List.lookup_eq_none_iff.1 hl (name, v)
      (List.mem_reverse.2 (List.mem_map_of_mem hn))
    simp at hm

/-! ## Evaluations in an inert scope -/

/-- The tree holds no constants, and is no deeper than `n`. -/
structure Expr.Plain (n : Nat) (e : Expr) : Prop where
  not_const (v : Value) : ¬ (Expr.const v).Occurs e
  depth_le : e.depth ≤ n

namespace Expr.Plain

variable {n n' : Nat} {e : Expr}

theorem mono (hn : n ≤ n') (h : e.Plain n) : e.Plain n' :=
  ⟨h.not_const, h.depth_le.trans hn⟩

/-- An item is less deep than its list. -/
theorem item {items : List Expr} (h : (list items).Plain n) (he : e ∈ items) : e.Plain (n - 1) := by
  refine ⟨fun v hv => h.not_const v (.item he hv), ?_⟩
  have hlist : 1 + greatestDepth items ≤ n := by
    simpa only [depth] using h.depth_le
  exact greatestDepth_le_iff.1 (by omega) e he

theorem not_zero (h : e.Plain 0) : False := by
  have hpos := e.depth_pos
  have hle := h.depth_le
  omega

theorem within (h : e.Plain n) : (Value.ofExpr e).Within False := by
  intro c hc
  obtain ⟨v, hv, -⟩ := Value.exists_const_of_mem_callables hc
  exact absurd hv (h.not_const v)

end Expr.Plain

/-- **In an inert scope, a tree needs as much room as it is deep**, and the scope
    stays inert. -/
def stillness (env : Env) : Discipline where
  code := Expr.Plain
  scope env' := env' = env
  world w := w.Inert env
  error e := ∀ depth, e ≠ .stackExhausted depth
  closures := False
  item h he := h.item he
  mono hn h := h.mono hn
  data h := h.within
  lookup := by
    rintro w env' name v hw rfl hv
    exact World.inert_iff.1 hw name v hv
  bind := by
    rintro w env' name v hw rfl hv
    exact hw.bind name hv
  print s hw := hw.print s
  ordinary h := by
    rintro depth rfl
    cases h
  exhausted _ h := h.not_zero.elim
  close _ _ hc := hc.elim
  body _ _ hc := hc.elim
  frame _ _ hc := hc.elim
  expansion _ hc := hc.elim

/-! ## Interpreters -/

namespace Interpreter

/-- **Only functions and macros of the program can exhaust the depth.**
    In an inert scope, a tree without constants that is no deeper than the limit
    is evaluated without want of room, and so is every program that can be read
    if the limit is that of the reader or more.  The scope is inert afterwards,
    also when there is an error. -/
theorem eval_of_inert (h : Host) {w : World} {env : Env} (hw : w.Inert env) {maxDepth : Nat} :
    (∀ e : Expr, (∀ v, ¬ (Expr.const v).Occurs e) → e.depth ≤ maxDepth →
      (∀ depth, ((idle maxDepth).eval h w e env).result ≠ .error (.stackExhausted depth)) ∧
        ((idle maxDepth).eval h w e env).world.Inert env) ∧
      (Reader.maxNesting ≤ maxDepth → ∀ source,
        (∀ depth, ((idle maxDepth).run h w source env).result ≠
          .error (.eval (.stackExhausted depth))) ∧
        ((idle maxDepth).run h w source env).world.Inert env) := by
  refine ⟨fun e hc hd => ?_, fun hmax source => ?_⟩
  · have hlands := (stillness env).lands_answer (idle maxDepth) hw (c := .eval e env)
      ⟨⟨hc, hd⟩, rfl⟩ h
    refine ⟨fun depth hr => ?_, hlands.world⟩
    exact hlands.error (congrArg (Except.map Answer.value) hr) depth rfl
  · have hcode : ∀ es, read source = .ok es → ∀ e ∈ es, e.Plain maxDepth := fun es hread e he =>
      ⟨not_occurs_const_of_read hread he, (depth_le_of_read hread he).trans hmax⟩
    have hlands := (stillness env).lands_run h (idle maxDepth) hw rfl hcode
    exact ⟨fun depth hr => hlands.2 _ hr depth rfl, hlands.1⟩

/-- A program with a hole in a template, at the limit of the reader. -/
theorem eval_of_inert_template :
    let w : World := ⟨#[Table.default.bindAll (closureMakers.map (·, .nil))], #[], ""⟩
    let e : Expr := .list [.symbol "backquote",
      .list [.list [.symbol "unquote", .list [.symbol "list", .number (.int 1)]]]]
    w.Inert ⟨0⟩ ∧ e.depth = 5 ∧
      (∀ depth, ((idle 5).eval .none w e ⟨0⟩).result ≠ .error (.stackExhausted depth)) ∧
      ((idle Reader.maxNesting).run .none w "(define x `(,(list 1)))" ⟨0⟩).world.Inert ⟨0⟩ := by
  intro w e
  have hw : w.Inert ⟨0⟩ := inert_of_shadowed .nil (Value.within_of_eq_nil rfl) rfl
  have hc : ∀ v, ¬ (Expr.const v).Occurs e := by
    intro v hv
    simp [e, Expr.occurs_list_iff] at hv
    rcases hv with hv | hv | hv | hv <;> cases hv
  have hd : e.depth = 5 := rfl
  exact ⟨hw, hd, ((eval_of_inert .none hw).1 e hc hd.le).1,
    ((eval_of_inert .none hw).2 (Nat.le_refl _) _).2⟩

end Interpreter

end MacroLisp
