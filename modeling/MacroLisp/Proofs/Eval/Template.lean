/-
  Templates.

  The holes of a template are its outermost lists with a head that resolves to
  the built-in `unquote`.  A quasiquotation evaluates them, each once and from
  left to right, and copies all else; the first failure ends it.  Which lists
  are holes is looked up while the template is being filled, so this holds as
  long as the holes do not change what the heads in it resolve to
  (`Evaluator.Steady`).

  * `Expr.holes`, `Expr.plug`: the holes of a template, and the template with
    values in their places;
  * `Expr.holes_eq_nil_iff`: the templates without holes;
  * `Evaluator.runOn_fill`: what the evaluator does with a template;
  * `Interpreter.eval_backquote`: the main statement.
-/
import MacroLisp.Proofs.Data.Parts
import MacroLisp.Proofs.Eval.Calls

namespace MacroLisp

/-! ## Holes -/

/-- The name resolves to the built-in `unquote`. -/
def World.unquotes (w : World) (env : Env) (name : String) : Bool :=
  match w.lookup env name with
  | some (.callable (.builtin (.form .unquote))) => true
  | _ => false

theorem World.unquotes_eq_false_iff {w : World} {env : Env} {name : String} :
    w.unquotes env name = false ↔
      w.lookup env name ≠ some (.callable (.builtin (.form .unquote))) := by
  unfold unquotes
  split
  · simp [*]
  · exact ⟨fun _ => ‹_›, fun _ => rfl⟩

theorem World.unquotes_bind_of_ne {w : World} {env : Env} {name other : String} (v : Value)
    (h : other ≠ name) : (w.bind env name v).unquotes env other = w.unquotes env other := by
  rw [unquotes, unquotes, lookup_bind_of_ne v h]

namespace Expr

section
variable (p : String → Bool)

/-- A list with these items is a hole: its head is a symbol with a name of `p`. -/
def isHole : List Expr → Bool
  | symbol name :: _ => p name
  | _ => false

mutual

/-- The arguments of the outermost holes in a template, from left to right. -/
def holes : Expr → List (List Expr)
  | list items => if isHole p items then [items.tail] else holesIn items
  | _ => []

/-- The arguments of the outermost holes in the items of a template. -/
def holesIn : List Expr → List (List Expr)
  | [] => []
  | item :: items => holes item ++ holesIn items

end

mutual

/-- The template as data, with the values in the places of its holes. -/
def plug : Expr → List Value → Value
  | list items, vs => if isHole p items then vs.headD .nil else .list (plugItems items vs)
  | e, _ => .ofExpr e

/-- The items of a template as data; each takes the values of its own holes. -/
def plugItems : List Expr → List Value → List Value
  | [], _ => []
  | item :: items, vs => plug item vs :: plugItems items (vs.drop (holes p item).length)

end

/-- The name at the head of a list, if it is a symbol. -/
def headName? : List Expr → Option String
  | symbol name :: _ => some name
  | _ => none

mutual

/-- The names at the heads of the lists in a template that lie in no hole, and
    of the holes themselves. -/
def heads : Expr → List String
  | list items => (headName? items).toList ++ if isHole p items then [] else headsIn items
  | _ => []

/-- The names at the heads of the lists in the items of a template. -/
def headsIn : List Expr → List String
  | [] => []
  | item :: items => heads item ++ headsIn items

end

theorem holesIn_eq_flatMap (items : List Expr) : holesIn p items = items.flatMap (holes p) := by
  induction items with
  | nil => rfl
  | cons e es ih => rw [holesIn, ih, List.flatMap_cons]

end

variable {p : String → Bool} {items : List Expr}

theorem holes_of_isHole (h : isHole p items = true) : (list items).holes p = [items.tail] := by
  rw [holes, if_pos h]

theorem holes_of_not_isHole (h : ¬ isHole p items = true) :
    (list items).holes p = holesIn p items := by
  rw [holes, if_neg h]

/-- **A template has a hole exactly if some list in it has a head that makes it
    one.** -/
theorem holes_eq_nil_iff {t : Expr} :
    t.holes p = [] ↔ ∀ name args, (list (symbol name :: args)).Occurs t → p name = false := by
  induction t using Expr.induction with
  | list items ih =>
    by_cases hhole : isHole p items = true
    · -- the list itself is a hole
      rw [holes_of_isHole hhole]
      refine ⟨nofun, fun hnone => ?_⟩
      unfold isHole at hhole
      split at hhole
      · rename_i name args
        rw [hnone name args .self] at hhole
        cases hhole
      · cases hhole
    · rw [holes_of_not_isHole hhole, holesIn_eq_flatMap, List.flatMap_eq_nil_iff]
      constructor
      · intro hnone name args h
        rcases occurs_list_iff.1 h with he | ⟨e, he, h⟩
        · obtain rfl := list.inj he
          exact Bool.eq_false_iff.2 hhole
        · exact (ih e he).1 (hnone e he) name args h
      · intro hnone e he
        exact (ih e he).2 fun name args h => hnone name args (.item he h)
  | _ =>
    refine ⟨fun _ name args h => ?_, fun _ => rfl⟩
    cases h

/-! ## Templates as data -/

theorem plugItems_append {vs rest : List Value} (hl : vs.length = (holesIn p items).length)
    (ih : ∀ e ∈ items, ∀ vs rest : List Value, vs.length = (e.holes p).length →
      e.plug p (vs ++ rest) = e.plug p vs) :
    plugItems p items (vs ++ rest) = plugItems p items vs := by
  induction items generalizing vs with
  | nil => rfl
  | cons e es ihes =>
    rw [holesIn, List.length_append] at hl
    -- the values of the first item, and those of the others
    obtain ⟨us, ws, rfl, hus, hws⟩ : ∃ us ws, vs = us ++ ws ∧ us.length = (e.holes p).length ∧
        ws.length = (holesIn p es).length :=
      ⟨_, _, (List.take_append_drop (e.holes p).length vs).symm, by simp; omega, by simp; omega⟩
    have hrest := ihes hws fun e' he' => ih e' (by simp [he'])
    rw [plugItems, plugItems, List.append_assoc, ih e (by simp) us _ hus, ih e (by simp) us _ hus,
      ← hus, List.drop_left, List.drop_left, hrest]

/-- A template takes as many values as it has holes. -/
theorem plug_append (t : Expr) {vs : List Value} (hl : vs.length = (t.holes p).length)
    (rest : List Value) : t.plug p (vs ++ rest) = t.plug p vs := by
  induction t using Expr.induction generalizing vs rest with
  | list items ih =>
    rw [plug, plug]
    by_cases hhole : isHole p items = true
    · rw [holes_of_isHole hhole] at hl
      obtain ⟨v, rfl⟩ := List.length_eq_one_iff.1 hl
      rw [if_pos hhole, if_pos hhole]
      rfl
    · rw [holes_of_not_isHole hhole] at hl
      rw [if_neg hhole, if_neg hhole, plugItems_append hl fun e he vs rest hl => ih e he hl rest]
  | _ => rfl

theorem plugItems_of_holesIn_eq_nil (hn : holesIn p items = [])
    (ih : ∀ e ∈ items, e.holes p = [] → e.plug p [] = .ofExpr e) :
    plugItems p items [] = Value.ofExprs items := by
  induction items with
  | nil => rfl
  | cons e es ihes =>
    obtain ⟨he, hes⟩ := List.append_eq_nil_iff.1 hn
    rw [plugItems, Value.ofExprs, ih e (by simp) he, List.drop_nil,
      ihes hes fun e' he' => ih e' (by simp [he'])]

/-- A template without holes is copied. -/
theorem plug_of_holes_eq_nil {t : Expr} (hn : t.holes p = []) : t.plug p [] = .ofExpr t := by
  induction t using Expr.induction with
  | list items ih =>
    by_cases hhole : isHole p items = true
    · rw [holes_of_isHole hhole] at hn
      cases hn
    · rw [holes_of_not_isHole hhole] at hn
      rw [plug, if_neg hhole, Value.ofExpr, plugItems_of_holesIn_eq_nil hn ih]
  | _ => rfl

end Expr

namespace Evaluator

variable (run : Evaluator)

/-! ## The values of holes -/

/-- The value of a hole with these arguments: the value of its argument, nil if
    it has none; there may not be more than one. -/
def holeValue (env : Env) : List Expr → EvalM Value
  | [] => return .nil
  | [e] => run e env
  | args => throw (.arity "unquote" (.between 0 1) args.length)

/-- The values of holes, from left to right. -/
def holeValues (holes : List (List Expr)) (env : Env) : EvalM (List Value) :=
  holes.mapM (run.holeValue env)

/-- While the holes are evaluated from left to right, exactly the names of `p`
    resolve to `unquote` among `names`: at the start, and after each hole that
    has a value. -/
def Steady (env : Env) (p : String → Bool) (names : List String) :
    List (List Expr) → Machine → Prop
  | [], m => ∀ name ∈ names, m.world.unquotes env name = p name
  | hole :: holes, m => (∀ name ∈ names, m.world.unquotes env name = p name) ∧
    ∀ v m', (run.holeValue env hole).runOn m = (.ok v, m') → Steady env p names holes m'

variable {run} {env : Env} {p : String → Bool} {names names' : List String}
  {holes holes' : List (List Expr)} {m m' : Machine}

theorem holeValues_append (holes holes' : List (List Expr)) :
    run.holeValues (holes ++ holes') env = do
      let vs ← run.holeValues holes env
      let vs' ← run.holeValues holes' env
      return vs ++ vs' :=
  List.mapM_append

theorem holeValues_cons (hole : List Expr) (holes : List (List Expr)) :
    run.holeValues (hole :: holes) env = do
      let v ← run.holeValue env hole
      let vs ← run.holeValues holes env
      return v :: vs :=
  List.mapM_cons

theorem runOn_holeValues_cons {hole : List Expr} {v : Value} {vs : List Value} {m₁ : Machine}
    (hv : (run.holeValue env hole).runOn m = (.ok v, m₁))
    (hvs : (run.holeValues holes env).runOn m₁ = (.ok vs, m')) :
    (run.holeValues (hole :: holes) env).runOn m = (.ok (v :: vs), m') := by
  rw [holeValues_cons, EvalM.runOn_bind_of_ok _ hv, EvalM.runOn_bind_of_ok _ hvs, EvalM.runOn_pure]

theorem length_of_holeValues {vs : List Value}
    (h : (run.holeValues holes env).runOn m = (.ok vs, m')) : vs.length = holes.length := by
  induction holes generalizing m vs with
  | nil => cases h; rfl
  | cons hole holes ih =>
    rw [holeValues_cons] at h
    obtain ⟨v, m₁, -, h⟩ := EvalM.runOn_bind_eq_ok h
    obtain ⟨vs', m₂, hvs, h⟩ := EvalM.runOn_bind_eq_ok h
    cases h
    exact congrArg (· + 1) (ih hvs)

namespace Steady

theorem cons {hole : List Expr} (hm : ∀ name ∈ names, m.world.unquotes env name = p name)
    {r : Except EvalError Value} (hr : (run.holeValue env hole).runOn m = (r, m'))
    (h : ∀ v, r = .ok v → run.Steady env p names holes m') :
    run.Steady env p names (hole :: holes) m := by
  refine ⟨hm, fun v m₁ hv => ?_⟩
  obtain ⟨rfl, rfl⟩ := Prod.mk.inj (hr.symm.trans hv)
  exact h v rfl

theorem unquotes_eq (h : run.Steady env p names holes m) :
    ∀ name ∈ names, m.world.unquotes env name = p name := by
  cases holes with
  | nil => exact h
  | cons hole holes => exact h.1

theorem mono (h : run.Steady env p names holes m) (hn : names' ⊆ names) :
    run.Steady env p names' holes m := by
  induction holes generalizing m with
  | nil => exact fun name hname => h name (hn hname)
  | cons hole holes ih =>
    exact ⟨fun name hname => h.1 name (hn hname), fun v m' hv => ih (h.2 v m' hv)⟩

theorem left (h : run.Steady env p names (holes ++ holes') m) :
    run.Steady env p names holes m := by
  induction holes generalizing m with
  | nil => exact h.unquotes_eq
  | cons hole holes ih => exact ⟨h.1, fun v m' hv => ih (h.2 v m' hv)⟩

/-- The holes on the right are evaluated where those on the left have led. -/
theorem right {vs : List Value} (h : run.Steady env p names (holes ++ holes') m)
    (hvs : (run.holeValues holes env).runOn m = (.ok vs, m')) :
    run.Steady env p names holes' m' := by
  induction holes generalizing m vs with
  | nil => cases hvs; exact h
  | cons hole holes ih =>
    rw [holeValues_cons] at hvs
    obtain ⟨v, m₁, hv, hvs⟩ := EvalM.runOn_bind_eq_ok hvs
    obtain ⟨vs', m₂, hrest, hvs⟩ := EvalM.runOn_bind_eq_ok hvs
    cases hvs
    exact ih (h.2 v m₁ hv) hrest

end Steady

/-! ## Filling -/

theorem runOn_holeArguments? {items : List Expr}
    (h : ∀ name ∈ Expr.headName? items, m.world.unquotes env name = p name) :
    (holeArguments? items env).runOn m =
      (.ok (if Expr.isHole p items then some items.tail else none), m) := by
  cases items with
  | nil => rfl
  | cons e args =>
    cases e with
    | symbol head =>
      have hp : Expr.isHole p (.symbol head :: args) = m.world.unquotes env head :=
        (h head rfl).symm
      rw [hp, holeArguments?, EvalM.runOn_bind_of_ok _ (EvalM.runOn_lookup m env head),
        World.unquotes]
      split <;> simp [*]
    | _ => rfl

theorem runOn_fillHole (args : List Expr) (m : Machine) :
    (run.fillHole args env).runOn m = (run.holeValue env args).runOn m := by
  match args with
  | [] => rfl
  | [e] => rfl
  | _ :: _ :: args =>
    have hcheck : Form.unquote.arity.check Form.unquote.name (args.length + 2) =
        .error (.arity "unquote" (.between 0 1) (args.length + 2)) := rfl
    rw [fillHole, List.length_cons, List.length_cons, hcheck]
    rfl

/-- The items of a template, if each is filled as it should be. -/
theorem runOn_fillItems {items : List Expr}
    (ih : ∀ e ∈ items, ∀ m, run.Steady env p (e.heads p) (e.holes p) m →
      (run.fill e env).runOn m =
        (do return e.plug p (← run.holeValues (e.holes p) env) : EvalM Value).runOn m)
    (h : run.Steady env p (Expr.headsIn p items) (Expr.holesIn p items) m) :
    (run.fillItems items env).runOn m =
      (do return Expr.plugItems p items (← run.holeValues (Expr.holesIn p items) env) :
        EvalM (List Value)).runOn m := by
  induction items generalizing m with
  | nil => rfl
  | cons e es ihes =>
    have he := ih e (by simp) m (h.left.mono (by simp [Expr.headsIn]))
    rw [fillItems, EvalM.runOn_bind_congr he fun _ _ _ => rfl, Expr.holesIn, holeValues_append]
    simp only [bind_assoc, pure_bind]
    refine EvalM.runOn_bind_congr rfl fun vs m₁ hvs => ?_
    -- the other items are filled where the first has led, with values of their own
    have hes := ihes (fun e' he' => ih e' (by simp [he']))
      ((h.right hvs).mono (by simp [Expr.headsIn]))
    have hplug : ∀ vs', Expr.plugItems p (e :: es) (vs ++ vs') =
        e.plug p vs :: Expr.plugItems p es vs' := fun vs' => by
      rw [Expr.plugItems, Expr.plug_append e (length_of_holeValues hvs),
        ← length_of_holeValues hvs, List.drop_left]
    rw [EvalM.runOn_bind_congr hes fun _ _ _ => rfl]
    simp only [bind_assoc, pure_bind, hplug]

/-- **Filling a template evaluates its holes, each once and from left to right,
    and copies all else.** -/
theorem runOn_fill {t : Expr} (h : run.Steady env p (t.heads p) (t.holes p) m) :
    (run.fill t env).runOn m =
      (do return t.plug p (← run.holeValues (t.holes p) env) : EvalM Value).runOn m := by
  induction t using Expr.induction generalizing m with
  | list items ih =>
    have hhead := runOn_holeArguments? fun name hname =>
      h.unquotes_eq name (List.mem_append_left _ (Option.mem_toList.2 hname))
    rw [fill, EvalM.runOn_bind_of_ok _ hhead]
    by_cases hhole : Expr.isHole p items = true
    · rw [if_pos hhole, Expr.holes_of_isHole hhole]
      simp [runOn_fillHole, holeValues, Expr.plug, hhole]
    · rw [Expr.holes_of_not_isHole hhole] at h ⊢
      have hitems := runOn_fillItems (fun e he m hm => ih e he hm)
        (h.mono (by simp [Expr.heads, hhole]))
      rw [if_neg hhole]
      refine (EvalM.runOn_bind_congr hitems fun _ _ _ => rfl).trans ?_
      simp [Expr.plug, hhole]
  | _ => rfl

end Evaluator

/-! ## Quasiquotations -/

namespace Interpreter

variable {i : Interpreter} {w : World} {env : Env} {t : Expr}

/-- **Backquote fills the holes of its template.**
    Where its name is bound to it, and as long as the holes do not change which
    heads of the template resolve to `unquote`, each hole is evaluated once, in
    the scope of the call and from left to right, and the value is the template
    with the values of its holes in their places.  The first hole that fails, or
    has more than one argument, ends the evaluation with its error.  A template
    without holes is quoted: it is taken as data, and nothing changes.  It has none
    exactly if no list in it, at any depth, has a head that resolves to `unquote`. -/
theorem eval_backquote (h : Host) (hroom : 2 ≤ i.room)
    (hb : w.lookup env "backquote" = some (.callable (.builtin (.form .backquote)))) (t : Expr) :
    let run := MacroLisp.eval h (i.room - 1)
    let p := w.unquotes env
    let start : Machine := ⟨w, i.depth + 1⟩
    let o := i.eval h w (.list [.symbol "backquote", t]) env
    (run.Steady env p (t.heads p) (t.holes p) start →
      (∀ vs m, (run.holeValues (t.holes p) env).runOn start = (.ok vs, m) →
        o = ⟨.ok (t.plug p vs), i, m.world⟩) ∧
      ∀ done hole later, t.holes p = done ++ hole :: later → ∀ vs m e m',
        (run.holeValues done env).runOn start = (.ok vs, m) →
        (run.holeValue env hole).runOn m = (.error e, m') → o = ⟨.error e, i, m'.world⟩) ∧
    (t.holes p = [] → o = ⟨.ok (.ofExpr t), i, w⟩ ∧
      (w.lookup env "quote" = some (.callable (.builtin (.form .quote))) →
        o = i.eval h w (.list [.symbol "quote", t]) env)) ∧
    (t.holes p = [] ↔ ∀ name args, (Expr.list (.symbol name :: args)).Occurs t →
      w.lookup env name ≠ some (.callable (.builtin (.form .unquote)))) := by
  intro run p start o
  have hfill : ∀ r m, run.Steady env p (t.heads p) (t.holes p) start →
      (do return t.plug p (← run.holeValues (t.holes p) env) : EvalM Value).runOn start = (r, m) →
      o = ⟨r, i, m.world⟩ := fun r m hs hr =>
    eval_form h hroom hb rfl ((Evaluator.runOn_fill hs).trans hr)
  refine ⟨fun hs => ⟨fun vs m hvs => ?_, fun done hole later hl vs m e m' hdone hhole => ?_⟩,
    fun hn => ?_, ?_⟩
  · refine hfill _ _ hs ?_
    rw [EvalM.runOn_bind_of_ok _ hvs, EvalM.runOn_pure]
  · refine hfill _ _ hs ?_
    rw [hl, Evaluator.holeValues_append, Evaluator.holeValues_cons, bind_assoc,
      EvalM.runOn_bind_of_ok _ hdone, bind_assoc, bind_assoc, EvalM.runOn_bind_of_error _ hhole]
  · have hquoted : o = ⟨.ok (.ofExpr t), i, w⟩ := by
      refine hfill (.ok (.ofExpr t)) start ?_ ?_
      · rw [hn]
        exact fun _ _ => rfl
      · rw [hn, ← Expr.plug_of_holes_eq_nil hn]
        rfl
    refine ⟨hquoted, fun hq => hquoted.trans (eval_form h hroom hq rfl (m := start) ?_).symm⟩
    rw [Form.call, EvalM.runOn_pure]
  · simp only [Expr.holes_eq_nil_iff, p, World.unquotes_eq_false_iff]

/-- A hole by another name that binds what the next hole reads, which lies in an
    inner template; and the same with an argument too many. -/
theorem eval_backquote_alias :
    let form (f : Form) : Value := .callable (.builtin (.form f))
    let bindings : List (String × Value) := [("backquote", form .backquote),
      ("define", form .define), ("unquote", form .unquote), ("u", form .unquote)]
    let w : World := ⟨#[Table.bindAll ∅ bindings], #[], ""⟩
    let w' := w.bind ⟨0⟩ "x" (.number (.int 1))
    let t (args : List Expr) : Expr := .list [.symbol "a",
      .list [.symbol "u", .list [.symbol "define", .symbol "x", .number (.int 1)]],
      .list [.symbol "backquote", .list (.symbol "unquote" :: args)]]
    (idle 3).eval .none w (.list [.symbol "backquote", t [.symbol "x"]]) ⟨0⟩ =
        ⟨.ok (.list [.symbol "a", .number (.int 1),
          .list [.symbol "backquote", .number (.int 1)]]), idle 3, w'⟩ ∧
      (idle 3).eval .none w (.list [.symbol "backquote", t [.symbol "x", .symbol "x"]]) ⟨0⟩ =
        ⟨.error (.arity "unquote" (.between 0 1) 2), idle 3, w'⟩ := by
  intro form bindings w w' t
  let run := MacroLisp.eval .none 2
  let binding : List Expr := [.symbol "x", .number (.int 1)]
  let define : List Expr := [.list (.symbol "define" :: binding)]
  have hw (name) : w.lookup ⟨0⟩ name = (bindings.reverse.lookup name).or none :=
    Table.getElem?_bindAll ∅ bindings name
  have hb : w.lookup ⟨0⟩ "backquote" = some (form .backquote) := hw _
  have hd : w.lookup ⟨0⟩ "define" = some (form .define) := hw _
  have ha : w.unquotes ⟨0⟩ "a" = false := by rw [World.unquotes, hw]; rfl
  have hu : w.unquotes ⟨0⟩ "u" = true := by rw [World.unquotes, hw]; rfl
  have hq : w.unquotes ⟨0⟩ "backquote" = false := by rw [World.unquotes, hw]; rfl
  have hn : w.unquotes ⟨0⟩ "unquote" = true := by rw [World.unquotes, hw]; rfl
  have h1 : (run.holeValue ⟨0⟩ define).runOn ⟨w, 1⟩ = (.ok (.number (.int 1)), ⟨w', 1⟩) := by
    have hcall : (Form.define.call (MacroLisp.eval .none 1) binding ⟨0⟩).runOn ⟨w, 2⟩ =
        (.ok (.number (.int 1)), ⟨w', 2⟩) := rfl
    have harity : Form.define.arity.accepts binding.length = true := rfl
    have hform := runOn_eval_form .none 0 (m := ⟨w, 1⟩) hd harity
    rw [EvalM.runOn_nested, hcall] at hform
    exact hform
  have h2 : (run.holeValue ⟨0⟩ [.symbol "x"]).runOn ⟨w', 1⟩ =
      (.ok (.number (.int 1)), ⟨w', 1⟩) :=
    runOn_eval_symbol .none 1 (World.lookup_bind_self _ _ Nat.one_pos)
  have hholes (args) : (t args).holes (w.unquotes ⟨0⟩) = [define, args] := by
    simp [t, define, binding, Expr.holes, Expr.holesIn, Expr.isHole, hu, ha, hq, hn]
  have hheads (args) : (t args).heads (w.unquotes ⟨0⟩) = ["a", "u", "backquote", "unquote"] := by
    simp [t, Expr.heads, Expr.headsIn, Expr.headName?, Expr.isHole, hu, ha, hq, hn]
  have hplug (args) (v v' : Value) : (t args).plug (w.unquotes ⟨0⟩) [v, v'] =
      .list [.symbol "a", v, .list [.symbol "backquote", v']] := by
    simp [t, Expr.plug, Expr.plugItems, Expr.isHole, Expr.holes, Value.ofExpr,
      hu, ha, hq, hn]
  -- the first hole binds another name than those that the template looks up
  have hs (args) {r} (hr : (run.holeValue ⟨0⟩ args).runOn ⟨w', 1⟩ = (r, ⟨w', 1⟩)) :
      run.Steady ⟨0⟩ (w.unquotes ⟨0⟩) ((t args).heads (w.unquotes ⟨0⟩))
        ((t args).holes (w.unquotes ⟨0⟩)) ⟨w, 1⟩ := by
    have hsame : ∀ name ∈ ["a", "u", "backquote", "unquote"],
        w'.unquotes ⟨0⟩ name = w.unquotes ⟨0⟩ name := fun name hname =>
      World.unquotes_bind_of_ne _ (by rintro rfl; simp at hname)
    rw [hheads, hholes]
    exact .cons (fun _ _ => rfl) h1 fun _ _ => .cons hsame hr fun _ _ => hsame
  constructor
  · have hok := (eval_backquote (i := idle 3) .none (by decide) hb (t [.symbol "x"])).1 (hs _ h2)
    refine (hok.1 [.number (.int 1), .number (.int 1)] ⟨w', 1⟩ ?_).trans ?_
    · rw [hholes]
      exact Evaluator.runOn_holeValues_cons h1 (Evaluator.runOn_holeValues_cons h2 rfl)
    · rw [hplug]
  · have hbad := (eval_backquote (i := idle 3) .none (by decide) hb
      (t [.symbol "x", .symbol "x"])).1 (hs _ rfl)
    exact hbad.2 [define] [.symbol "x", .symbol "x"] [] (hholes _) [.number (.int 1)] ⟨w', 1⟩ _ _
      (Evaluator.runOn_holeValues_cons h1 rfl) rfl

end Interpreter

end MacroLisp
