/-
  Programs in pieces.

  A program that is read and run piece by piece, by one interpreter in one
  scope, does what it does as a whole, if the pieces are lines and each can be
  read: the forms of the whole are those of its pieces, one after the other
  (`read_append_line`), and so is what they do (`Interpreter.evaluate_append`).

  * `Interpreter.run_append_line`: the main statement.
-/
import MacroLisp.Proofs.Eval.Counter
import MacroLisp.Proofs.Reader.Continuation

namespace MacroLisp

namespace Evaluator

variable {run : Evaluator} {env : Env} {m m' : Machine} {v : Value}

/-- What comes last decides about the value, unless there is nothing. -/
theorem foldlM_eq_sequence {es : List Expr} (hne : es ≠ []) (v : Value) :
    es.foldlM (fun _ e => run e env) v = run.sequence es env := by
  cases es with
  | nil => exact absurd rfl hne
  | cons e es => rw [sequence, List.foldlM_cons, List.foldlM_cons]

theorem runOn_sequence_append {es₁ : List Expr} (h : (run.sequence es₁ env).runOn m = (.ok v, m'))
    {es₂ : List Expr} (hne : es₂ ≠ []) :
    (run.sequence (es₁ ++ es₂) env).runOn m = (run.sequence es₂ env).runOn m' := by
  have happ : run.sequence (es₁ ++ es₂) env =
      run.sequence es₁ env >>= fun v => es₂.foldlM (fun _ e => run e env) v :=
    List.foldlM_append
  rw [happ, EvalM.runOn_bind_of_ok _ h, foldlM_eq_sequence hne]

end Evaluator

namespace Interpreter

variable (h : Host) (i : Interpreter) (w : World) (env : Env)

theorem sequence_atDepth (es : List Expr) :
    ((MacroLisp.eval h i.room).sequence es env).AtDepth i.depth (i.depth + i.room)
      ((MacroLisp.eval h i.room).sequence es env) := by
  have hin : (steadiness i.depth (i.depth + i.room)).Relates (MacroLisp.eval h i.room)
      (MacroLisp.eval h i.room) := eval_atDepth h i.room i.depth
  exact Evaluator.Congruence.sequence hin es

/-- An interpreter is the same after it has evaluated something. -/
theorem interpreter_evaluate (es : List Expr) : (i.evaluate h w es env).interpreter = i :=
  interpreter_perform (sequence_atDepth h i env es) w

/-- Expressions are evaluated piece by piece, as long as nothing fails. -/
theorem evaluate_append {es₁ : List Expr} {v : Value}
    (hv : (i.evaluate h w es₁ env).result = .ok v) {es₂ : List Expr} (hne : es₂ ≠ []) :
    i.evaluate h w (es₁ ++ es₂) env = i.evaluate h (i.evaluate h w es₁ env).world es₂ env := by
  have hdepth := (sequence_atDepth h i env es₁).restores (m := ⟨w, i.depth⟩) rfl
  have hfirst : ((MacroLisp.eval h i.room).sequence es₁ env).runOn ⟨w, i.depth⟩ =
      (.ok v, ⟨(i.evaluate h w es₁ env).world, i.depth⟩) :=
    Prod.ext hv (congrArg (Machine.mk _) hdepth)
  have happ := Evaluator.runOn_sequence_append hfirst hne
  simp only [evaluate, perform] at happ ⊢
  rw [happ]

/-- **A program in pieces does what it does as a whole.**
    Let a text be read that is followed by a line feed and a rest.  The whole is
    read if the rest is, and its forms are those of both; otherwise the error is
    that of the rest, behind the bytes of the text and the line feed.  If the text
    has a value and the rest is read, running one after the other leaves the world
    and the interpreter that running the whole leaves, and if the rest has a form,
    with the same result. -/
theorem run_append_line {s₁ : String} {es₁ : List Expr} (h₁ : read s₁ = .ok es₁) (s₂ : String) :
    (read (s₁ ++ "\n" ++ s₂) =
      match read s₂ with
      | .ok es₂ => .ok (es₁ ++ es₂)
      | .error e => .error (e.shift (s₁.utf8ByteSize + 1))) ∧
    ∀ (h : Host) (i : Interpreter) (w : World) (env : Env) (es₂ : List Expr) (v : Value),
      read s₂ = .ok es₂ → (i.run h w s₁ env).result = .ok v →
        let first := i.run h w s₁ env
        let second := first.interpreter.run h first.world s₂ env
        let whole := i.run h w (s₁ ++ "\n" ++ s₂) env
        whole.world = second.world ∧ whole.interpreter = second.interpreter ∧
          (es₂ ≠ [] → whole.result = second.result) := by
  have hread := read_append_line h₁ s₂
  refine ⟨?_, fun h i w env es₂ v h₂ hv => ?_⟩
  · rw [hread]
    cases read s₂ <;> rfl
  · have hwhole : read (s₁ ++ "\n" ++ s₂) = .ok (es₁ ++ es₂) := by rw [hread, h₂]; rfl
    have hfirst : (i.evaluate h w es₁ env).result = .ok v := by
      simp only [run, h₁] at hv
      cases hr : (i.evaluate h w es₁ env).result with
      | error e => rw [hr] at hv; cases hv
      | ok v' => rw [hr] at hv; cases hv; rfl
    have hkeep := interpreter_evaluate h i w env es₁
    simp only [run, h₁, h₂, hwhole, hkeep]
    by_cases hne : es₂ = []
    · subst hne
      rw [List.append_nil, hkeep, interpreter_evaluate]
      exact ⟨rfl, rfl, fun hne => absurd rfl hne⟩
    · rw [evaluate_append h i w env hfirst hne]
      exact ⟨rfl, rfl, fun _ => rfl⟩

/-- A line that ends in a comment, before a list and before a quote mark that
    has nothing to quote. -/
theorem run_append_line_comment :
    let w : World := ⟨#[.default], #[], ""⟩
    let first := (idle 9).run .none w "1 ;'" ⟨0⟩
    let second := first.interpreter.run .none first.world "()" ⟨0⟩
    let whole := (idle 9).run .none w "1 ;'\n()" ⟨0⟩
    read "1 ;'" = .ok [.number (.int 1)] ∧ read "()" = .ok [.list []] ∧
      first.result = .ok (.int 1) ∧ whole.world = second.world ∧ whole.result = second.result ∧
      read "a ,)" = .error (.danglingQuote 2) ∧
      read "1 ;'\na ,)" = .error (.danglingQuote 7) := by
  intro w first second whole
  have h₁ : read "1 ;'" = .ok [.number (.int 1)] := by cbv
  have h₂ : read "()" = .ok [.list []] := by cbv
  have hdangling : read "a ,)" = .error (.danglingQuote 2) := by cbv
  have hv : first.result = .ok (.int 1) := by
    simp only [first, run, h₁]
    rfl
  have hlist := (run_append_line h₁ "()").2 .none (idle 9) w ⟨0⟩ _ _ h₂ hv
  have herror := (run_append_line h₁ "a ,)").1
  rw [hdangling] at herror
  exact ⟨h₁, h₂, hv, hlist.1, hlist.2.2 (by simp), hdangling, herror⟩

end Interpreter

end MacroLisp
