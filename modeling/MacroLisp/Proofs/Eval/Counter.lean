/-
  The count of the evaluations under way.

  A machine counts the evaluations that it is nested in.  The count rises by
  one when an evaluation is entered and falls by one when it is left, with a
  value or with an error, so every evaluation leaves the count as it found it.
  The room that the evaluator carries along is therefore what the count leaves
  of the limit, at every point of a run, and an interpreter is as good as new
  after every call.

  * `EvalM.AtDepth`: two evaluations that agree at a depth, and keep to it;
    `steadiness` is the congruence;
  * `Evaluator.Counts`: an evaluator that is given no room, but tests the count;
    there is exactly one (`Evaluator.counts_iff`);
  * `Interpreter.session_reusable`: the main statement.
-/
import MacroLisp.Interpreter
import MacroLisp.Proofs.Eval.Congruence

namespace MacroLisp

/-! ## Evaluations at a depth -/

/-- At the depth `d`, the evaluation `act'` does what `act` does.  It leaves the
    depth as it is, and when it refuses to go deeper it reports `limit`. -/
structure EvalM.AtDepth (d limit : Nat) {α : Type} (act act' : EvalM α) : Prop where
  same {m : Machine} : m.depth = d → act'.runOn m = act.runOn m
  restores {m : Machine} : m.depth = d → (act.runOn m).2.depth = d
  reports {m : Machine} {k : Nat} :
    m.depth = d → (act.runOn m).1 = .error (.stackExhausted k) → k = limit

namespace EvalM.AtDepth

variable {α β : Type} {d limit : Nat} {act act' : EvalM α}

/-- An operation that does not touch the depth, and has no need for room. -/
theorem of_notExhausted (hd : ∀ m : Machine, (act.runOn m).2.depth = m.depth)
    (hn : ∀ m : Machine, NotExhausted (act.runOn m).1) : AtDepth d limit act act where
  same _ := rfl
  restores {m} hm := (hd m).trans hm
  reports {m k} _ hk := absurd hk (hn m k)

theorem bind {next next' : α → EvalM β} (h : AtDepth d limit act act')
    (hn : ∀ a, AtDepth d limit (next a) (next' a)) :
    AtDepth d limit (act >>= next) (act' >>= next') where
  same {m} hm := by
    rcases hr : act.runOn m with ⟨e | a, m₁⟩
    · rw [runOn_bind_of_error next hr, runOn_bind_of_error next' ((h.same hm).trans hr)]
    · rw [runOn_bind_of_ok next hr, runOn_bind_of_ok next' ((h.same hm).trans hr)]
      have hm₁ : m₁.depth = d := by simpa only [hr] using h.restores hm
      exact (hn a).same hm₁
  restores {m} hm := by
    have hm₁ := h.restores hm
    rcases hr : act.runOn m with ⟨e | a, m₁⟩ <;> rw [hr] at hm₁
    · rwa [runOn_bind_of_error next hr]
    · rw [runOn_bind_of_ok next hr]
      exact (hn a).restores hm₁
  reports {m k} hm := by
    have hm₁ := h.restores hm
    rcases hr : act.runOn m with ⟨e | a, m₁⟩ <;> rw [hr] at hm₁
    · -- the failure of the first part is the failure of the whole
      rw [runOn_bind_of_error next hr]
      intro hk
      cases hk
      exact h.reports (k := k) hm (by rw [hr])
    · rw [runOn_bind_of_ok next hr]
      exact (hn a).reports hm₁

theorem map {f : α → β} (h : AtDepth d limit act act') :
    AtDepth d limit (do return f (← act)) (do return f (← act')) :=
  h.bind fun _ => .of_notExhausted (fun _ => rfl) fun _ => notExhausted_ok _

/-- The refusal at the limit. -/
theorem exhausted : AtDepth limit limit (EvalM.exhausted : EvalM α) EvalM.exhausted where
  same _ := rfl
  restores hm := hm
  reports hm hk := by cases hk; exact hm

theorem nested (h : AtDepth (d + 1) limit act act') : AtDepth d limit act.nested act'.nested where
  same {m} hm := by
    rw [runOn_nested, runOn_nested, h.same (by simpa using hm)]
  restores {m} hm := by
    rw [runOn_nested]
    show (act.runOn ⟨m.world, m.depth + 1⟩).2.depth - 1 = d
    rw [h.restores (by simpa using hm), Nat.add_sub_cancel]
  reports {m k} hm hk := h.reports (m := ⟨m.world, m.depth + 1⟩) (by simpa using hm) hk

end EvalM.AtDepth

/-- **All that the language does keeps to the depth that it starts from.** -/
def steadiness (d limit : Nat) : Evaluator.Congruence where
  rel := fun _ _ act act' => act.AtDepth d limit act'
  ofExcept := fun hr => .of_notExhausted (fun _ => rfl) fun _ => hr
  read := fun _ => .of_notExhausted (fun _ => rfl) fun _ => notExhausted_ok _
  bind := fun h hn => h.bind hn
  define := fun _ _ => .of_notExhausted (fun _ => rfl) fun _ => notExhausted_ok _
  close := fun _ _ => .of_notExhausted (fun _ => rfl) fun _ => notExhausted_ok _
  print := fun _ => .of_notExhausted (fun _ => rfl) fun _ => notExhausted_ok _
  inFrame := fun _ _ _ _ hn =>
    EvalM.AtDepth.bind (.of_notExhausted (fun _ => rfl) fun _ => notExhausted_ok _) hn

/-- An evaluation leaves the depth as it finds it, and refuses only where the
    room that it had at first is used up. -/
theorem eval_atDepth (h : Host) (room d : Nat) (e : Expr) (env : Env) :
    (eval h room e env).AtDepth d (d + room) (eval h room e env) := by
  induction room generalizing d e env with
  | zero => exact .exhausted
  | succ room ih =>
    rw [← Nat.succ_add_eq_add_succ]
    have hin : (steadiness (d + 1) (d + 1 + room)).Relates (eval h room) (eval h room) := ih (d + 1)
    exact .nested (Evaluator.Congruence.step hin h e env)

/-! ## Evaluators that test the count -/

/-- Runs `act` as long as the count is within `limit`, and `alarm` if it is not. -/
def EvalM.watched {α : Type} (limit : Nat) (alarm act : EvalM α) : EvalM α :=
  ExceptT.mk fun m => if m.depth ≤ limit then act.runOn m else alarm.runOn m

theorem EvalM.runOn_watched {α : Type} {limit : Nat} (alarm act : EvalM α) {m : Machine}
    (hm : m.depth ≤ limit) : (watched limit alarm act).runOn m = act.runOn m :=
  if_pos hm

namespace Evaluator

/-- The evaluator `run` knows how deep it is from the count alone.  It refuses
    at the limit, and otherwise evaluates one level deeper, where `alarm` takes
    over if the count has got past the limit. -/
structure Counts (h : Host) (limit : Nat) (alarm run : Evaluator) : Prop where
  refuses {e : Expr} {env : Env} {m : Machine} :
    limit ≤ m.depth → (run e env).runOn m = EvalM.exhausted.runOn m
  enters {e : Expr} {env : Env} {m : Machine} : m.depth < limit →
    (run e env).runOn m =
      (EvalM.nested (.watched limit (alarm e env) (run.step h e env))).runOn m

/-- The evaluator whose room is what the count leaves of `limit`. -/
def counted (h : Host) (limit : Nat) : Evaluator := fun e env =>
  ExceptT.mk fun m => (eval h (limit - m.depth) e env).runOn m

variable {h : Host} {limit : Nat} {alarm run : Evaluator}

/-- The room that is left and the count that is reached say the same. -/
theorem counted_atDepth {room d : Nat} (hd : d + room = limit) (e : Expr) (env : Env) :
    (eval h room e env).AtDepth d limit (counted h limit e env) where
  same {m} hm := by
    show (eval h (limit - m.depth) e env).runOn m = _
    rw [hm, ← hd, Nat.add_sub_cancel_left]
  restores hm := (eval_atDepth h room d e env).restores hm
  reports hm hk := hd ▸ (eval_atDepth h room d e env).reports hm hk

/-- What an evaluator that tests the count does, it does with the room that
    the count leaves. -/
theorem Counts.atDepth (hrun : Counts h limit alarm run) {room d : Nat} (hd : d + room = limit)
    (e : Expr) (env : Env) : (eval h room e env).AtDepth d limit (run e env) := by
  induction room generalizing d e env with
  | zero =>
    have hlimit : d = limit := hd
    subst hlimit
    exact { EvalM.AtDepth.exhausted with same := fun hm => hrun.refuses (Nat.le_of_eq hm.symm) }
  | succ room ih =>
    have hin : (steadiness (d + 1) limit).Relates (eval h room) run :=
      fun e env => ih (by omega) e env
    have hstep : ((eval h room).step h e env).AtDepth (d + 1) limit (run.step h e env) :=
      Congruence.step hin h e env
    refine { hstep.nested with same := fun {m} hm => ?_ }
    rw [hrun.enters (by omega), EvalM.runOn_nested,
      EvalM.runOn_watched _ _ (show m.depth + 1 ≤ limit by omega), ← EvalM.runOn_nested]
    exact hstep.nested.same hm

/-- **One evaluator tests the count**, and it never gets past the limit: it is
    the same whatever happens there. -/
theorem counts_iff : Counts h limit alarm run ↔ run = counted h limit := by
  constructor
  · intro hrun
    funext e env m
    by_cases hm : m.depth ≤ limit
    · have hroom : m.depth + (limit - m.depth) = limit := Nat.add_sub_of_le hm
      exact (hrun.atDepth hroom e env).same rfl
    · have hzero : limit - m.depth = 0 := by omega
      show (run e env).runOn m = (eval h (limit - m.depth) e env).runOn m
      rw [hrun.refuses (by omega), hzero, eval_zero]
  · rintro rfl
    refine ⟨fun {e env m} hm => ?_, fun {e env m} hm => ?_⟩
    · show (eval h (limit - m.depth) e env).runOn m = _
      rw [Nat.sub_eq_zero_of_le hm, eval_zero]
    · obtain ⟨room, hroom⟩ : ∃ room, m.depth + 1 + room = limit := ⟨limit - (m.depth + 1), by omega⟩
      have hin : (steadiness (m.depth + 1) limit).Relates (eval h room) (counted h limit) :=
        counted_atDepth hroom
      have hstep := Congruence.step hin h e env
      show (eval h (limit - m.depth) e env).runOn m = _
      rw [show limit - m.depth = room + 1 by omega, eval_succ, EvalM.runOn_nested,
        EvalM.runOn_nested, EvalM.runOn_watched _ _ (show m.depth + 1 ≤ limit by omega),
        hstep.same rfl]

end Evaluator

/-! ## Calls -/

/-- A call of one of the operations of an interpreter. -/
inductive Call where
  | eval (e : Expr) (env : Env)
  | evaluate (es : List Expr) (env : Env)
  | arguments (es : List Expr) (env : Env)
  | apply (c : Callable) (args : List Expr) (env : Env)
  | expand (ref : ClosureRef) (args : List Expr)

/-- What a call answers. -/
inductive Answer where
  | value (v : Value)
  | values (vs : List Value)
  | code (e : Expr)

def Outcome.map {ε α β : Type} (f : α → β) (o : Outcome ε α) : Outcome ε β :=
  ⟨o.result.map f, o.interpreter, o.world⟩

/-- What a call evaluates, with `run` as the evaluator. -/
def Call.act (h : Host) (run : Evaluator) : Call → EvalM Answer
  | eval e env => do return .value (← run e env)
  | evaluate es env => do return .value (← run.sequence es env)
  | arguments es env => do return .values (← run.arguments es env)
  | apply c args env => do return .value (← run.apply h c args env)
  | expand ref args => do return .code (← run.expand ref args)

theorem Call.act_atDepth {d limit : Nat} {run run' : Evaluator}
    (hrun : (steadiness d limit).Relates run run') (h : Host) (c : Call) :
    (c.act h run).AtDepth d limit (c.act h run') := by
  cases c with
  | eval e env => exact (hrun e env).map
  | evaluate es env =>
    have hes : (run.sequence es env).AtDepth d limit (run'.sequence es env) :=
      Evaluator.Congruence.sequence hrun es
    exact hes.map
  | arguments es env =>
    have hes : (run.arguments es env).AtDepth d limit (run'.arguments es env) :=
      Evaluator.Congruence.arguments hrun es
    exact hes.map
  | apply c args env =>
    have hc : (run.apply h c args env).AtDepth d limit (run'.apply h c args env) :=
      Evaluator.Congruence.apply hrun h c args
    exact hc.map
  | expand ref args =>
    -- a macro makes its code in no scope; the relation is the same in all of them
    have href : (steadiness d limit).rel ⟨0⟩ (run.expand ref args) (run'.expand ref args) :=
      Evaluator.Congruence.expand hrun ref args
    exact href.map

/-- A call on an idle machine. -/
theorem Call.act_counted (h : Host) (maxDepth : Nat) (c : Call) :
    (c.act h (MacroLisp.eval h maxDepth)).AtDepth 0 maxDepth
      (c.act h (Evaluator.counted h maxDepth)) := by
  have hall : (steadiness 0 maxDepth).Relates (MacroLisp.eval h maxDepth)
      (Evaluator.counted h maxDepth) := Evaluator.counted_atDepth (Nat.zero_add maxDepth)
  exact c.act_atDepth hall h

namespace Interpreter

/-- What an interpreter answers to a call. -/
def answer (h : Host) (i : Interpreter) (w : World) : Call → Outcome EvalError Answer
  | .eval e env => (i.eval h w e env).map .value
  | .evaluate es env => (i.evaluate h w es env).map .value
  | .arguments es env => (i.evalArguments h w es env).map .values
  | .apply c args env => (i.apply h w c args env).map .value
  | .expand ref args => (i.expand h w ref args).map .code

theorem perform_map {α β : Type} (i : Interpreter) (w : World) (act : EvalM α) (f : α → β) :
    (i.perform w act).map f = i.perform w (do return f (← act)) := by
  unfold perform Outcome.map
  rcases hm : act.runOn ⟨w, i.depth⟩ with ⟨e | a, m⟩
  · rw [EvalM.runOn_bind_of_error _ hm]; rfl
  · rw [EvalM.runOn_bind_of_ok _ hm]; rfl

theorem answer_eq_perform (h : Host) (i : Interpreter) (w : World) (c : Call) :
    i.answer h w c = i.perform w (c.act h (MacroLisp.eval h i.room)) := by
  cases c <;> exact perform_map i w _ _

/-- An operation that leaves the depth as it is gives back the interpreter it
    was called on. -/
theorem interpreter_perform {α : Type} {i : Interpreter} {limit : Nat} {act act' : EvalM α}
    (hact : act.AtDepth i.depth limit act') (w : World) : (i.perform w act).interpreter = i :=
  congrArg (Interpreter.mk i.maxDepth) (hact.restores rfl)

section
variable {h : Host} {maxDepth : Nat} (w : World) (c : Call)

/-- After a call the interpreter is idle again. -/
theorem interpreter_answer : ((idle maxDepth).answer h w c).interpreter = idle maxDepth := by
  rw [answer_eq_perform]
  exact interpreter_perform (i := idle maxDepth) (c.act_counted h maxDepth) w

theorem depth_of_answer_eq_stackExhausted {depth : Nat}
    (he : ((idle maxDepth).answer h w c).result = .error (.stackExhausted depth)) :
    depth = maxDepth := by
  rw [answer_eq_perform] at he
  exact (c.act_counted h maxDepth).reports (m := ⟨w, 0⟩) rfl he

end

/-! ## Sessions -/

/-- A turn of a session: what becomes of the world before the call, and the call. -/
structure Turn where
  before : World → World
  call : Call

/-- The outcomes of the calls of a session, each answered by `ask`.  A call is
    made on the interpreter that the one before it has left. -/
def session (ask : Interpreter → World → Call → Outcome EvalError Answer) :
    Interpreter → World → List Turn → List (Outcome EvalError Answer)
  | _, _, [] => []
  | i, w, turn :: turns =>
    let o := ask i (turn.before w) turn.call
    o :: session ask o.interpreter o.world turns

section
variable {ask ask' : Interpreter → World → Call → Outcome EvalError Answer} {i : Interpreter}
  (hkeep : ∀ w c, (ask i w c).interpreter = i) (w : World) (turns : List Turn)
include hkeep

theorem session_cons (turn : Turn) :
    session ask i w (turn :: turns) =
      ask i (turn.before w) turn.call ::
        session ask i (ask i (turn.before w) turn.call).world turns := by
  rw [session, hkeep]

theorem session_congr (hsame : ∀ w c, ask' i w c = ask i w c) :
    session ask' i w turns = session ask i w turns := by
  have hkeep' : ∀ w c, (ask' i w c).interpreter = i := fun w c => by rw [hsame, hkeep]
  induction turns generalizing w with
  | nil => rfl
  | cons turn turns ih => rw [session_cons hkeep, session_cons hkeep', hsame, ih]

theorem exists_of_mem_session {o : Outcome EvalError Answer} (ho : o ∈ session ask i w turns) :
    ∃ w c, o = ask i w c := by
  induction turns generalizing w with
  | nil => cases ho
  | cons turn turns ih =>
    rw [session_cons hkeep, List.mem_cons] at ho
    rcases ho with rfl | ho
    · exact ⟨_, _, rfl⟩
    · exact ih _ ho

end

/-- **An interpreter can be used again after anything.**
    In a session with one interpreter, every call has the outcome that it has
    with a new interpreter.  Whatever the calls answer, the interpreter is idle
    after each of them, and a call that fails for want of room reports the limit.
    The calls may also be run by the evaluator that only looks at the count,
    whatever it does where the count is past the limit. -/
theorem session_reusable (h : Host) (maxDepth : Nat) (w : World) (turns : List Turn) :
    session (answer h) (idle maxDepth) w turns =
        session (fun i => (idle i.maxDepth).answer h) (idle maxDepth) w turns ∧
      (∀ o ∈ session (answer h) (idle maxDepth) w turns, o.interpreter = idle maxDepth ∧
        ∀ depth, o.result = .error (.stackExhausted depth) → depth = maxDepth) ∧
      ∀ alarm, (∃ run, Evaluator.Counts h maxDepth alarm run) ∧
        ∀ run, Evaluator.Counts h maxDepth alarm run →
          session (fun i w c => i.perform w (c.act h run)) (idle maxDepth) w turns =
            session (answer h) (idle maxDepth) w turns := by
  have hkeep : ∀ w c, ((idle maxDepth).answer h w c).interpreter = idle maxDepth :=
    interpreter_answer
  refine ⟨?_, fun o ho => ?_, fun alarm => ⟨⟨_, Evaluator.counts_iff.2 rfl⟩, fun run hrun => ?_⟩⟩
  · symm
    exact session_congr hkeep w turns fun _ _ => rfl
  · obtain ⟨w, c, rfl⟩ := exists_of_mem_session hkeep w turns ho
    exact ⟨hkeep w c, fun depth => depth_of_answer_eq_stackExhausted w c⟩
  · obtain rfl := Evaluator.counts_iff.1 hrun
    refine session_congr hkeep w turns fun w c => ?_
    have hcall := (c.act_counted h maxDepth).same (m := ⟨w, 0⟩) rfl
    rw [answer_eq_perform]
    simp only [perform, idle, room, hcall, Nat.sub_zero]

/-- A call that is nested too deep for its interpreter, and one that is not. -/
theorem session_reusable_refused :
    let w : World := ⟨#[.default], #[], ""⟩
    let turns : List Turn :=
      [⟨id, .eval (.list [.list []]) ⟨0⟩⟩, ⟨(·.bind ⟨0⟩ "x" (.int 2)), .eval (.list []) ⟨0⟩⟩]
    let outcomes := session (answer .none) (idle 1) w turns
    let alarm : Evaluator := fun _ _ => throw (.unboundSymbol "alarm")
    (∃ o ∈ outcomes, ∃ depth, o.result = .error (.stackExhausted depth) ∧ depth = 1 ∧
        o.interpreter = idle 1) ∧
      outcomes.map (·.result) = [.error (.stackExhausted 1), .ok (.value .nil)] ∧
      Evaluator.Counts .none 1 alarm (.counted .none 1) ∧
      session (fun i w c => i.perform w (c.act .none (.counted .none 1))) (idle 1) w turns =
        outcomes := by
  intro w turns outcomes alarm
  have hall := session_reusable .none 1 w turns
  have hrefused := hall.2.1 ((idle 1).answer .none w (.eval (.list [.list []]) ⟨0⟩)) (.head _)
  have hcounts : Evaluator.Counts .none 1 alarm (.counted .none 1) := Evaluator.counts_iff.2 rfl
  exact ⟨⟨_, .head _, 1, rfl, hrefused.2 1 rfl, hrefused.1⟩, rfl, hcounts,
    (hall.2.2 alarm).2 _ hcounts⟩

end Interpreter

end MacroLisp
