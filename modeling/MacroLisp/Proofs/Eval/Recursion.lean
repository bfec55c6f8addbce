/-
  How deep a function can call itself.

  A function that counts by calling itself, with something left to do after
  each call, takes three levels for each: one for the sum that is still to be
  made, one for the call, and one for the conditional that its body is.  So
  what a limit allows is known exactly.

  * `World.Counts`: scopes in which the function can be called;
  * `takes_count`: the levels of a call;
  * `read_count`: the call as it is written;
  * `Interpreter.run_count`: the main statement.
-/
import MacroLisp.Proofs.Data.Handles
import MacroLisp.Proofs.Eval.Arithmetic
import MacroLisp.Proofs.Eval.Levels
import MacroLisp.Proofs.Eval.Pieces
import MacroLisp.Proofs.Reader.RoundTrip

namespace MacroLisp

/-! ## The function -/

/-- The definition of the function, as it is written. -/
def countSource : String := "(fn count (n) (if (= n 0) 0 (+ 1 (count (- n 1)))))"

/-- `(count e)` -/
def countCall (e : Expr) : Expr := .list [.symbol "count", e]

/-- `(if (= n 0) 0 (+ 1 (count (- n 1))))` -/
def countBody : Expr :=
  .list [.symbol "if", .list [.symbol "=", .symbol "n", .number (.int 0)], .number (.int 0),
    .list [.symbol "+", .number (.int 1),
      countCall (.list [.symbol "-", .symbol "n", .number (.int 1)])]]

/-- `(fn count (n) …)` -/
def countDefinition : Expr :=
  .list [.symbol "fn", .symbol "count", .list [.symbol "n"], countBody]

theorem read_countSource : read countSource = .ok [countDefinition] := by cbv

/-- The function as it is defined in the scope `env`. -/
def countClosure (env : Env) : Closure := ⟨["n"], countBody, env⟩

/-- In the scope, the names that the function uses stand for what they stand for
    where it is defined. -/
structure World.Counts (w : World) (ref : ClosureRef) (env : Env) : Prop where
  holds : w.Holds env
  conditional : w.lookup env "if" = some (.callable (.builtin (.form .conditional)))
  equal : w.lookup env "=" = some (.callable (.builtin (.primitive (.comparison .equal))))
  add : w.lookup env "+" = some (.callable (.builtin (.primitive (.arithmetic .add))))
  subtract : w.lookup env "-" = some (.callable (.builtin (.primitive (.arithmetic .subtract))))
  count : w.lookup env "count" = some (.callable (.function ref))

namespace World.Counts

variable {w w' : World} {ref : ClosureRef} {env base : Env}

theorem grows (h : w.Counts ref env) (hw : w.Grows w') : w'.Counts ref env where
  holds := hw.holds h.holds
  conditional := (hw.lookup h.holds _).trans h.conditional
  equal := (hw.lookup h.holds _).trans h.equal
  add := (hw.lookup h.holds _).trans h.add
  subtract := (hw.lookup h.holds _).trans h.subtract
  count := (hw.lookup h.holds _).trans h.count

/-- A frame of the function sees all names but `n` as its defining scope does. -/
theorem lookup_frame {name : String} (hn : name ≠ "n") (vs : List Value) :
    (w.frame (countClosure base) vs).2.lookup (w.frame (countClosure base) vs).1 name =
      w.lookup base name := by
  refine lookup_frame_of_ne fun i _ hi => hn ?_
  exact List.mem_singleton.1 (List.mem_of_getElem? hi)

theorem frame (h : w.Counts ref base) (vs : List Value) :
    (w.frame (countClosure base) vs).2.Counts ref (w.frame (countClosure base) vs).1 where
  holds := holds_addTable _ _
  conditional := (lookup_frame (by decide) vs).trans h.conditional
  equal := (lookup_frame (by decide) vs).trans h.equal
  add := (lookup_frame (by decide) vs).trans h.add
  subtract := (lookup_frame (by decide) vs).trans h.subtract
  count := (lookup_frame (by decide) vs).trans h.count

end World.Counts

/-! ## Its levels -/

theorem result_equal_int (h : Host) (i j : Int64) :
    (Primitive.comparison .equal).result h [.int i, .int j] = .ok (.bool (i == j)) := by
  have hi : (Value.int i).asNumber Comparison.equal.symbol = .ok (.int i) := rfl
  have hj : (Value.int j).asNumber Comparison.equal.symbol = .ok (.int j) := rfl
  simp only [Primitive.result, Primitive.comparisonResult, hi, hj]
  rfl

/-- A sum or a difference that fits. -/
theorem result_arithmetic_int (h : Host) {op : Operator} (hop : op ≠ .divide) {i j r : Int64}
    (hr : r.toInt = op.onInt i.toInt j.toInt) :
    (Primitive.arithmetic op).result h [.int i, .int j] = .ok (.int r) := by
  have hint {k : Int64} : (Value.int k).NotFloat := by simp [Value.NotFloat, Value.int]
  have hpartial : op.PartialResult ([.int i] ++ [.int j]) (.int r) :=
    .next (.first i) (.exact ((Operator.exact_iff hop).2 hr))
  have hresult : Primitive.arithmeticResult op (.int i) [.int j] = .ok (.int r) :=
    (Primitive.arithmeticResult_eq_ok_iff hint (by simpa using hint)).2 hpartial
  rw [Primitive.result_arithmetic, hresult]
  rfl

variable {h : Host} {w : World} {ref : ClosureRef} {env base : Env} {i : Int64}

/-- In a frame of the function, `n` is its argument. -/
theorem takes_parameter (h : Host) (w : World) (base : Env) (i : Int64) :
    (Expr.symbol "n").Takes h (w.frame (countClosure base) [.int i]).2
      (w.frame (countClosure base) [.int i]).1 1 (.int i) := by
  refine takes_symbol h (World.holds_addTable _ _) (World.lookup_frame_of_last (i := 0) rfl rfl ?_)
  intro j hj hlen
  simp at hlen
  omega

namespace World.Counts

/-- The test of the function takes two levels. -/
theorem takes_test (hw : w.Counts ref env) (hn : (Expr.symbol "n").Takes h w env 1 (.int i)) :
    (Expr.list [.symbol "=", .symbol "n", .number (.int 0)]).Takes h w env 2 (.bool (i == 0)) :=
  takes_primitive hw.holds hw.equal rfl (.pair hn (takes_number h w env (.int 0)))
    (result_equal_int h i 0) rfl

/-- The argument of the next call takes two levels. -/
theorem takes_predecessor (hw : w.Counts ref env) {j : Int64} (hj : j.toInt = i.toInt - 1)
    (hn : (Expr.symbol "n").Takes h w env 1 (.int i)) :
    (Expr.list [.symbol "-", .symbol "n", .number (.int 1)]).Takes h w env 2 (.int j) :=
  takes_primitive hw.holds hw.subtract rfl (.pair hn (takes_number h w env (.int 1)))
    (result_arithmetic_int h (by decide) hj) rfl

/-- The sum takes a level more than the next call. -/
theorem takes_sum (hw : w.Counts ref env) {j : Int64} (hj : i.toInt = 1 + j.toInt) {e : Expr}
    {levels : Nat} (he : e.Takes h w env (levels + 1) (.int j)) :
    (Expr.list [.symbol "+", .number (.int 1), e]).Takes h w env (levels + 2) (.int i) := by
  have hsum := takes_primitive hw.holds hw.add rfl (.pair (takes_number h w env (.int 1)) he)
    (result_arithmetic_int h (by decide : Operator.add ≠ .divide) hj) rfl
  exact hsum.of_eq (by omega)

/-- A call takes a level more than what it runs. -/
theorem takes_call (hw : w.Counts ref env) (hc : w.closure ref = countClosure base) {e : Expr}
    {levels levels' : Nat} (he : e.Takes h w env levels (.int i)) (hl : levels ≤ levels' + 1)
    (hbody : ∀ w₁, w.Grows w₁ → countBody.Takes h (w₁.frame (countClosure base) [.int i]).2
      (w₁.frame (countClosure base) [.int i]).1 (levels' + 1) (.int i)) :
    (countCall e).Takes h w env (levels' + 2) (.int i) := by
  have hcall := takes_function hw.holds hw.count hc rfl (.cons he .nil) hbody
  exact hcall.of_eq (by omega)

end World.Counts

/-- **A call takes four levels for zero, and three more for each number after
    it.** -/
theorem takes_count (hbase : w.Counts ref base) (hc : w.closure ref = countClosure base)
    (henv : w.Counts ref env) {n : Nat} (hi : i.toInt = n) {e : Expr} {levels : Nat}
    (he : e.Takes h w env levels (.int i)) (hl : levels ≤ 3) :
    (countCall e).Takes h w env (3 * n + 4) (.int i) := by
  induction n generalizing w env i e levels with
  | zero =>
    obtain rfl : i = 0 := Int64.toInt_inj.1 hi
    refine henv.takes_call hc he hl fun w₁ hw₁ => ?_
    have hframe := (hbase.grows hw₁).frame [.int 0]
    exact takes_conditional hframe.holds hframe.conditional
      (hframe.takes_test (takes_parameter h w₁ base 0)) (takes_number h _ _ (.int 0))
  | succ n ih =>
    have hne : i ≠ 0 := by
      rintro rfl
      simp at hi
      omega
    -- the predecessor fits
    obtain ⟨j, hj⟩ : ∃ j : Int64, j.toInt = n := by
      refine exists_toInt_iff.2 ?_
      have hle := i.toInt_lt
      unfold InRange
      omega
    refine henv.takes_call hc he (by omega) fun w₁ hw₁ => ?_
    have hbase₁ := hbase.grows hw₁
    have hframe := hbase₁.frame [.int i]
    have hgrows := World.Grows.frame w₁ (countClosure base) [.int i]
    have hn := takes_parameter h w₁ base i
    have hpred : j.toInt = i.toInt - 1 := by omega
    have hsucc : i.toInt = 1 + j.toInt := by omega
    -- the next call is evaluated in the frame of this one, where all names are still in place
    have hnext := ih (hbase₁.grows hgrows) ((hgrows.closure ref).trans ((hw₁.closure ref).trans hc))
      hframe hj (hframe.takes_predecessor hpred hn) (Nat.le_succ 2)
    have hsum := hframe.takes_sum hsucc hnext
    have hbody : countBody.Takes h _ _ (max 1 (max 2 (3 * n + 3 + 2)) + 1) (.int i) :=
      takes_conditional hframe.holds hframe.conditional (hframe.takes_test hn)
        (by simpa [Value.isTruthy, hne] using hsum)
    exact hbody.of_eq (by omega)

/-! ## The call as it is written -/

/-- A row of digits that denotes a number is a token that stands for it. -/
theorem leaf_of_ofLiteral? {literal : String} {n : Number}
    (hl : Number.ofLiteral? literal = some n) :
    TokenKind.number.Shape literal.toList ∧
      ∀ pos, Token.leaf ⟨.number, literal, pos⟩ = .number n := by
  unfold Number.ofLiteral? at hl
  split at hl
  · rename_i hdigits
    obtain rfl := Option.some.inj hl
    refine ⟨TokenKind.shape_number.2 ⟨hdigits.1, List.all_eq_true.1 hdigits.2⟩, fun pos => ?_⟩
    rw [Token.leaf_eq_ofNat rfl, Number.natOfDigits_eq]
    rfl
  · cases hl

theorem toInt_nonneg_of_ofLiteral? {literal : String} {i : Int64}
    (hl : Number.ofLiteral? literal = some (.int i)) : 0 ≤ i.toInt := by
  have hleaf := (leaf_of_ofLiteral? hl).2 0
  rw [((Token.leaf_of_number rfl).1 i).1 hleaf]
  exact Int.natCast_nonneg _

/-- What stands before the argument of a call. -/
theorem lexes_count {rest : List Char} (hr : TokenKind.whiteSpace.Stops rest) :
    Lexes ['(', 'c', 'o', 'u', 'n', 't', ' '] rest 0
      [⟨.openParen, "(", 0⟩, ⟨.symbol, "count", 1⟩] 7 := by
  have hopen : Lexes ['('] (['c', 'o', 'u', 'n', 't', ' '] ++ rest) 0 [⟨.openParen, "(", 0⟩] 1 :=
    .token (TokenKind.shape_singleton (by decide) rfl) (TokenKind.stops_cons.2 fun _ => rfl) rfl 0
  have hname : Lexes ['c', 'o', 'u', 'n', 't'] ([' '] ++ rest) 1 [⟨.symbol, "count", 1⟩] 6 :=
    .token ((TokenKind.shape_of_ne (by decide)).2
      ⟨'c', ['o', 'u', 'n', 't'], rfl, List.all_eq_true.1 rfl, rfl⟩)
      (TokenKind.stops_cons.2 fun _ => rfl) rfl 1
  exact hopen.append (hname.append (.blank hr 6))

/-- **A call with a literal is read as such**, whatever the literal. -/
theorem read_count {literal : String} {i : Int64}
    (hl : Number.ofLiteral? literal = some (.int i)) :
    read ("(count " ++ literal ++ ")") = .ok [countCall (.number (.int i))] := by
  obtain ⟨hshape, hleaf⟩ := leaf_of_ofLiteral? hl
  have hstops : TokenKind.whiteSpace.Stops (literal.toList ++ [')'] ++ []) := by
    obtain ⟨c, cs, hs, hc⟩ := TokenKind.isHead_of_shape hshape
    rw [hs]
    exact TokenKind.stops_of_isHead (by decide) hc _
  have hstop : TokenKind.number.Stops ([')'] ++ []) := TokenKind.stops_cons.2 fun _ => rfl
  have hnumber := Lexes.token hshape hstop rfl 7
  rw [String.ofList_toList] at hnumber
  generalize 7 + literal.utf8ByteSize = pos at hnumber
  have hclose : Lexes [')'] [] pos [⟨.closeParen, ")", pos⟩] (pos + 1) :=
    .token (TokenKind.shape_singleton (by decide) rfl) (TokenKind.stops_nil _) rfl pos
  let call : Derivation :=
    .list ⟨.openParen, "(", 0⟩ [.atom ⟨.symbol, "count", 1⟩ rfl, .atom ⟨.number, literal, 7⟩ rfl]
      ⟨.closeParen, ")", pos⟩ rfl rfl
  have hsource : ("(count " ++ literal ++ ")").toList =
      ['(', 'c', 'o', 'u', 'n', 't', ' '] ++ (literal.toList ++ [')']) := by simp
  have hlex := (lexes_count hstops).append (hnumber.append hclose)
  rw [← hsource] at hlex
  have hform : call.form = countCall (.number (.int i)) := by
    simp [call, Derivation.form, Derivation.forms, hleaf]
    rfl
  have hshallow : ∀ n ∈ Derivation.levelsOf [call], n < Reader.maxNesting := by
    have hlevels : Derivation.levelsOf [call] = [0, 1, 1] := rfl
    rw [hlevels]
    decide
  exact read_eq_ok_iff.2 ⟨[call], .of_lexes hlex hshallow, by simp [hform]⟩

/-! ## The program -/

namespace Interpreter

variable {h : Host} {i : Interpreter} {w : World} {env : Env} {v : Value}

/-- A program of one form. -/
theorem run_of_read (h : Host) (i : Interpreter) (w : World) (env : Env) {source : String}
    {e : Expr} (hread : read source = .ok [e]) :
    (i.run h w source env).result = (i.eval h w e env).result.mapError .eval ∧
      (i.run h w source env).interpreter = i ∧
      (i.run h w source env).world = (i.eval h w e env).world := by
  have hone : i.evaluate h w [e] env = i.eval h w e env := by
    simp [evaluate, Evaluator.sequence, eval]
  rw [run, hread]
  simp only [hone, interpreter_eval, and_self]

/-- A call that has a value had room for itself and its head. -/
theorem two_le_room {head : Expr} {args : List Expr}
    (hv : (i.eval h w (.list (head :: args)) env).result = .ok v) : 2 ≤ i.room := by
  by_contra hroom
  obtain hroom | hroom : i.room = 0 ∨ i.room = 1 := by omega
  all_goals
    rw [eval, hroom] at hv
    simp [MacroLisp.eval, Evaluator.step, EvalM.runOn_nested, EvalM.runOn_bind] at hv

/-- What the definition does if it has a value. -/
theorem world_eval_countDefinition
    (hfn : w.lookup env "fn" = some (.callable (.builtin (.form .defineFunction))))
    (hv : (i.eval h w countDefinition env).result = .ok v) :
    (i.eval h w countDefinition env).world =
      (w.addClosure "count" (countClosure env)).2.bind env "count"
        (.callable (.function (w.addClosure "count" (countClosure env)).1)) := by
  let f : Value := .callable (.function (w.addClosure "count" (countClosure env)).1)
  let w' : World := (w.addClosure "count" (countClosure env)).2.bind env "count" f
  have hthree : Form.defineFunction.arity.accepts
      [Expr.symbol "count", .list [.symbol "n"], countBody].length = true := rfl
  have hcall : (Form.defineFunction.call (MacroLisp.eval h (i.room - 1))
      [.symbol "count", .list [.symbol "n"], countBody] env).runOn ⟨w, i.depth + 1⟩ =
        (.ok f, ⟨w', i.depth + 1⟩) := by
    simp [Form.call, Form.symbolName, Form.parameters, Form.defineClosure, EvalM.runOn_bind, f, w',
      countClosure]
  exact congrArg Outcome.world (eval_form h (two_le_room hv) hfn hthree hcall)

/-- The scope that programs start with, after the definition. -/
theorem counts_of_run (hw : w.Holds env) (ht : w.table env = .default)
    (hdef : (i.run h w countSource env).result = .ok v) :
    ∃ ref, (i.run h w countSource env).world.Counts ref env ∧
      (i.run h w countSource env).world.closure ref = countClosure env := by
  have hinitial {name : String} {u : Value}
      (hu : Snapshot.lookup ⟨Snapshot.initial, []⟩ name = some u) : w.lookup env name = some u := by
    rw [World.lookup, ht, Table.Holds.default, hu]
  obtain ⟨hresult, -, hworld⟩ := run_of_read h i w env read_countSource
  have hvalue : (i.eval h w countDefinition env).result = .ok v := by
    rw [hresult] at hdef
    cases heval : (i.eval h w countDefinition env).result with
    | error e => simp [heval, Except.mapError] at hdef
    | ok u => simpa [heval, Except.mapError] using hdef
  rw [hworld, world_eval_countDefinition (hinitial rfl) hvalue]
  have hkept {name : String} {u : Value} (f : Value) (hn : name ≠ "count")
      (hu : Snapshot.lookup ⟨Snapshot.initial, []⟩ name = some u) :
      ((w.addClosure "count" (countClosure env)).2.bind env "count" f).lookup env name = some u :=
    (World.lookup_bind_of_ne f hn).trans (hinitial hu)
  refine ⟨(w.addClosure "count" (countClosure env)).1, ⟨World.holds_bind hw _ _ _,
    hkept _ (by decide) rfl, hkept _ (by decide) rfl, hkept _ (by decide) rfl,
    hkept _ (by decide) rfl, World.lookup_bind_self _ _ hw⟩, ?_⟩
  simp [World.closure, World.bind, World.addClosure]

/-- **Counting to `n` by calls that are not in tail position takes three levels
    for each number, and four more.**
    Let the function be defined in a scope with the initial bindings.  For every
    literal that denotes an integer `n` and every limit `m`, the call with the
    literal has the value `n` if `m` is at least `3 * n + 4`, and is otherwise
    refused at the limit.  Either way the interpreter is idle again and the scope
    binds what it did; the world has more tables, and is otherwise as before. -/
theorem run_count (hw : w.Holds env) (ht : w.table env = .default)
    (hdef : (i.run h w countSource env).result = .ok v) {literal : String} {n : Int64}
    (hn : Number.ofLiteral? literal = some (.int n)) (m : Nat) :
    let w' := (i.run h w countSource env).world
    let o := (idle m).run h w' ("(count " ++ literal ++ ")") env
    (3 * n.toInt + 4 ≤ m → o.result = .ok (.int n)) ∧
      (m < 3 * n.toInt + 4 → o.result = .error (.eval (.stackExhausted m))) ∧
      o.interpreter = idle m ∧ o.world.table env = w'.table env ∧ w'.Grows o.world := by
  intro w' o
  obtain ⟨ref, hcounts, hc⟩ := counts_of_run hw ht hdef
  obtain ⟨k, hk⟩ : ∃ k : Nat, n.toInt = k := Int.eq_ofNat_of_zero_le (toInt_nonneg_of_ofLiteral? hn)
  have htakes := takes_count hcounts hc hcounts hk (takes_number h w' env (.int n)) (by decide)
  obtain ⟨w'', hgrows, hrun⟩ := htakes m ⟨w', 0⟩ (.refl w')
  obtain ⟨hresult, hinterpreter, hworld⟩ :=
    run_of_read h (idle m) w' env (read_count hn)
  have heval : (idle m).eval h w' (countCall (.number (.int n))) env =
      ⟨if 3 * k + 4 ≤ m then .ok (.int n) else .error (.stackExhausted m), idle m, w''⟩ := by
    simp [eval, perform, idle, room, hrun]
  rw [heval] at hresult hworld
  refine ⟨fun hle => ?_, fun hlt => ?_, hinterpreter, ?_, ?_⟩
  · rw [hresult, if_pos (by omega)]
    rfl
  · rw [hresult, if_neg (by omega)]
    rfl
  · rw [hworld]
    exact hgrows.table hcounts.holds
  · rw [hworld]
    exact hgrows

/-- Two numbers take ten levels, whether or not the literal begins with a zero. -/
theorem run_count_two :
    let w : World := ⟨#[.default], #[], ""⟩
    let w' := ((idle 2).run .none w countSource ⟨0⟩).world
    ((idle 10).run .none w' "(count 02)" ⟨0⟩).result = .ok (.int 2) ∧
      ((idle 9).run .none w' "(count 02)" ⟨0⟩).result = .error (.eval (.stackExhausted 9)) := by
  intro w w'
  have hw : w.Holds ⟨0⟩ := Nat.zero_lt_one
  have hdef : ((idle 2).run .none w countSource ⟨0⟩).result =
      .ok (.callable (.function ⟨0, "count"⟩)) := by
    rw [(run_of_read _ _ _ _ read_countSource).1]
    rfl
  have hn : Number.ofLiteral? "02" = some (.int 2) := rfl
  have hten := run_count hw rfl hdef hn 10
  have hnine := run_count hw rfl hdef hn 9
  exact ⟨hten.1 (by decide), hnine.2.1 (by decide)⟩

end Interpreter

end MacroLisp
