/-
  Programs end with a value or with an error of their own.

  Reading takes slices of the text, operations take their arguments from lists,
  and arithmetic takes quotients and sums; none of them is ever taken where it
  does not exist.  For the operations this is because calls check the number of
  arguments first, and the number that an operation admits is the one that it
  can do with.

  * `EvalM.Sound`: an evaluation that misses no argument;
  * `Form.sound_call_iff`: a form misses one exactly if its arity does not admit
    their number;
  * `Interpreter.run_sound`: the main statement.
-/
import MacroLisp.Proofs.Eval.Discipline
import MacroLisp.Proofs.Reader.Offence
import MacroLisp.Proofs.Reader.Slices

namespace MacroLisp

/-- The evaluation enters no operation past its arity. -/
def EvalM.Sound {α : Type} (act : EvalM α) : Prop :=
  ∀ m b, (act.runOn m).1 ≠ .error (.defect b)

/-- Evaluations that enter no operation past its arity, in any world. -/
def soundness : Discipline where
  code _ _ := True
  scope _ := True
  world _ := True
  error e := ∀ b, e ≠ .defect b
  closures := True
  item _ _ := trivial
  mono _ _ := trivial
  data _ _ _ := .inl trivial
  lookup _ _ _ _ _ := .inl trivial
  bind _ _ _ _ _ := trivial
  print _ _ := trivial
  ordinary h := by
    rintro b rfl
    cases h
  exhausted _ _ := nofun
  close _ _ _ _ _ := trivial
  body _ _ _ _ := trivial
  frame _ _ _ _ _ := ⟨trivial, trivial⟩
  expansion _ _ _ := trivial

theorem soundness_datum (v : Value) : soundness.Datum v :=
  fun _ _ => .inl trivial

theorem EvalM.Sound.of_keeps {α : Type} {act : EvalM α} {post : α → Prop}
    (h : soundness.Keeps act act post) : act.Sound :=
  fun m b hr => (h.lands (m := m) trivial).error hr b rfl

theorem EvalM.Sound.keeps {act : EvalM Value} (h : act.Sound) :
    soundness.Keeps act act soundness.Datum :=
  ⟨fun _ => rfl, fun {m} _ => ⟨trivial, fun hr b he => h m b (he ▸ hr), fun _ => soundness_datum _⟩⟩

/-! ## Forms -/

theorem Form.call_of_not_accepts (run : Evaluator) {f : Form} {args : List Expr} (env : Env)
    (hn : f.arity.accepts args.length = false) :
    f.call run args env = throw (.defect (.form f)) := by
  unfold call
  split <;> first | rfl | simp [arity, Arity.accepts] at hn
  -- `unquote` looks at the number itself, for templates call it as well
  unfold Evaluator.unquote
  split <;> first | rfl | simp at hn

/-- **A form misses an argument exactly if its arity does not admit their
    number**, as long as what it evaluates does not. -/
theorem Form.sound_call_iff {run : Evaluator} (hrun : ∀ e env, (run e env).Sound) (f : Form)
    (args : List Expr) (env : Env) :
    (f.call run args env).Sound ↔ f.arity.accepts args.length = true := by
  constructor
  · intro hs
    refine eq_true_of_ne_false fun hn => ?_
    rw [call_of_not_accepts run env hn] at hs
    exact hs ⟨.empty, 0⟩ _ rfl
  · intro hn
    have hr : soundness.Relates 0 run run := fun e env _ _ => (hrun e env).keeps
    exact .of_keeps (Discipline.keeps_form hr trivial (.inl trivial) (fun _ _ => trivial) hn)

/-- **No evaluation enters an operation past its arity.** -/
theorem sound_eval (h : Host) (room : Nat) (e : Expr) (env : Env) : (eval h room e env).Sound :=
  .of_keeps (Discipline.keeps_eval (soundness.follows_eval h) room e env trivial trivial)

/-! ## Reading -/

/-- What the lexer takes for an atom is one. -/
theorem read_ne_malformedAtom (source : String) (pos : Nat) (text : String) :
    read source ≠ .error (.malformedAtom pos text) := by
  intro h
  have hsignificant : ∀ t ∈ (Tiling.ofSource source).significant,
      t.kind.Shape t.text.toList ∧ t.isSignificant = true := fun t ht =>
    ⟨shape_of_mem_significant t ht, (List.mem_filter.1 ht).2⟩
  have hoffence := (Reader.readFrom_eq_error_iff (s := .initial) hsignificant (Nat.zero_le _)).1 h
  exact hoffence.ne_malformedAtom pos text rfl

/-! ## Interpreters -/

namespace Interpreter

theorem answer_ne_defect (h : Host) (i : Interpreter) (w : World) (c : Call) (b : Builtin) :
    (i.answer h w c).result ≠ .error (.defect b) := by
  have hmay : soundness.MayCall i.room c := by
    cases c with
    | eval | evaluate | arguments => simp [Discipline.MayCall, soundness]
    | apply => exact ⟨soundness_datum _, fun _ _ => trivial, trivial⟩
    | expand => exact ⟨trivial, fun _ _ => trivial⟩
  intro hr
  exact (soundness.lands_answer i (w := w) trivial hmay h).error hr b rfl

/-- **No program makes the language fail.**
    Whatever the text, wherever the cursor of a reader has come, it stands at a
    place of the text and has before it the text from there on; the contents of
    a string lie between its quotes, and no atom is malformed.  An operation
    misses no argument exactly if its arity admits their number.  Arithmetic on
    integers is exact, and takes no quotient where there is none.  So in any
    world and scope, and with any limit, all calls and all programs end with a
    value or with an error of their own. -/
theorem run_sound (h : Host) (source : String) :
    (∀ t, Tokenizer.Reached TokenKind.rules source t →
      Text.IsSlice source t.pos source.utf8ByteSize (String.ofList t.rest)) ∧
    (∀ t ∈ (Tiling.ofSource source).tokens, t.kind = .string →
      ∃ content, Reader.atom? t = some (.string content) ∧
        Text.IsSlice t.text 1 (t.text.utf8ByteSize - 1) content) ∧
    (∀ pos text, read source ≠ .error (.malformedAtom pos text)) ∧
    (∀ (p : Primitive) (vs : List Value),
      (∀ b, p.result h vs ≠ .error (.defect b)) ↔ p.arity.accepts vs.length = true) ∧
    (∀ run : Evaluator, (∀ e env, (run e env).Sound) → ∀ (f : Form) (args : List Expr) (env : Env),
      (f.call run args env).Sound ↔ f.arity.accepts args.length = true) ∧
    (∀ (op : Operator) (l r : Int64),
      Number.Answers op l r (Number.apply op (.int l) (.int r))) ∧
    (∀ (i : Interpreter) (w : World) (c : Call) (b : Builtin),
      (i.answer h w c).result ≠ .error (.defect b)) ∧
    ∀ (i : Interpreter) (w : World) (env : Env) (b : Builtin),
      (i.run h w source env).result ≠ .error (.eval (.defect b)) := by
  refine ⟨fun t ht => ht.isSlice, fun t ht hk => ?_, fun pos text => ?_, fun p vs => ?_,
    fun run hrun f args env => ?_, Number.answers_apply, fun i w c b => ?_, fun i w env b hr => ?_⟩
  · exact Token.isSlice_of_string (TokenKind.shape_of_mem_scan t ht) hk
  · exact read_ne_malformedAtom source pos text
  · exact Primitive.result_ne_defect_iff
  · exact Form.sound_call_iff hrun f args env
  · exact answer_ne_defect h i w c b
  · exact (soundness.lands_run h i trivial trivial fun _ _ _ _ => trivial).2 _ hr b rfl

/-- A text with a character of two bytes in a string, the cursor behind its first
    token, and operations with arguments that they refuse. -/
theorem run_sound_refused :
    let source := "(first \"é\")"
    let t := ((Tokenizer.ofSource source).consume fun _ => true).2
    let token : Token TokenKind := ⟨.string, "\"é\"", 7⟩
    let branches : List Expr := [.list [], .symbol "x", .symbol "y"]
    t.pos = 1 ∧ Text.IsSlice source t.pos source.utf8ByteSize (String.ofList t.rest) ∧
      (∃ content, Reader.atom? token = some (.string content) ∧
        Text.IsSlice token.text 1 (token.text.utf8ByteSize - 1) content) ∧
      (∀ b, Primitive.first.result .none [.list []] ≠ .error (.defect b)) ∧
      (Form.conditional.call (MacroLisp.eval .none 1) branches ⟨0⟩).Sound ∧
      Number.Answers .divide Int64.minValue (-1)
        (.error (.overflow .divide Int64.minValue (-1))) := by
  intro source t token branches
  have hall := run_sound .none source
  have htokens : (Tiling.ofSource source).tokens = [⟨.openParen, "(", 0⟩, ⟨.symbol, "first", 1⟩,
      ⟨.whiteSpace, " ", 6⟩, token, ⟨.closeParen, ")", 11⟩] := by cbv
  have hpos : ((Tokenizer.ofSource source).consume fun _ => true).2.pos = 1 := by cbv
  exact ⟨hpos, hall.1 t (.consume .start _), hall.2.1 token (by simp [htokens]) rfl,
    (hall.2.2.2.1 .first _).2 rfl, (hall.2.2.2.2.1 _ (sound_eval .none 1) _ branches ⟨0⟩).2 rfl,
    hall.2.2.2.2.2.1 .divide Int64.minValue (-1)⟩

end Interpreter

end MacroLisp
