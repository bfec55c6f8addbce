/-
  What the operations answer.

  An operation that is entered with as many arguments as it takes answers with
  a value or with an ordinary error: it neither refuses for want of room nor
  misses an argument (`EvalError.isOrdinary`).  It makes no callable either;
  those in its value come from its arguments.

  * `Yields`: a result with a property, or an ordinary error;
  * `Number.answers_apply`: the results of arithmetic on integers;
  * `Primitive.yields_result`: the results of the primitives;
  * `Primitive.result_ne_defect_iff`: a primitive misses no argument exactly if
    its arity admits their number.
-/
import MacroLisp.Eval.Basic
import MacroLisp.Proofs.Data.Parts
import Mathlib.Data.List.Basic

namespace MacroLisp

/-- An error of a program: no want of room, and no missing argument. -/
def EvalError.isOrdinary : EvalError → Bool
  | stackExhausted _ | defect _ => false
  | _ => true

/-- A result with the property `post`, or an ordinary error. -/
def Yields {α : Type} (post : α → Prop) : Except EvalError α → Prop
  | .ok a => post a
  | .error e => e.isOrdinary = true

namespace Yields

variable {α β : Type} {post : α → Prop} {post' : β → Prop}

theorem bind {r : Except EvalError α} {f : α → Except EvalError β} (hr : Yields post r)
    (hf : ∀ a, post a → Yields post' (f a)) : Yields post' (r >>= f) := by
  cases r with
  | ok a => exact hf a hr
  | error e => exact hr

theorem mono {r : Except EvalError α} {post' : α → Prop} (hr : Yields post r)
    (h : ∀ a, post a → post' a) : Yields post' r := by
  cases r with
  | ok a => exact h a hr
  | error e => exact hr

/-- A step that keeps a property of what is passed on, over a list of items. -/
theorem foldlM {f : β → α → Except EvalError β} (hf : ∀ b a, post' b → Yields post' (f b a))
    (as : List α) {b : β} (hb : post' b) : Yields post' (as.foldlM f b) := by
  induction as generalizing b with
  | nil => exact hb
  | cons a as ih =>
    rw [List.foldlM_cons]
    exact (hf b a hb).bind fun b' hb' => ih hb'

theorem mapM {f : α → Except EvalError β} (hf : ∀ a, Yields post' (f a)) (as : List α) :
    Yields (fun bs => ∀ b ∈ bs, post' b) (as.mapM f) := by
  induction as with
  | nil => exact nofun
  | cons a as ih =>
    rw [List.mapM_cons]
    exact (hf a).bind fun b hb => ih.bind fun bs hbs => List.forall_mem_cons.2 ⟨hb, hbs⟩

end Yields

/-! ## Checks -/

theorem Arity.yields_check (a : Arity) (name : String) (got : Nat) :
    Yields (fun _ => a.accepts got = true) (a.check name got) := by
  unfold check
  split
  · assumption
  · rfl

theorem Form.yields_symbolName (f : Form) (e : Expr) :
    Yields (fun name => e = .symbol name) (f.symbolName e) := by
  cases e <;> rfl

theorem Form.yields_parameters (f : Form) (e : Expr) :
    Yields (fun _ => True) (f.parameters e) := by
  cases e with
  | list items =>
    have hall : Yields _ (items.mapM f.symbolName) :=
      .mapM (fun e => (f.yields_symbolName e).mono fun _ _ => trivial) items
    exact hall.mono fun _ _ => trivial
  | _ => rfl

theorem Value.yields_asNumber (op : String) (v : Value) :
    Yields (fun _ => True) (v.asNumber op) := by
  cases v <;> first | rfl | trivial

theorem Value.yields_asList (op : String) (v : Value) :
    Yields (fun items => v = .list items) (v.asList op) := by
  cases v <;> rfl

/-! ## Integers -/

namespace Number

variable {op : Operator} {l r : Int64} {exact : Int}

theorem ofExact_eq_ok_iff {n : Number} :
    ofExact op l r exact = .ok n ↔ ∃ i : Int64, n = int i ∧ i.toInt = exact := by
  simp only [← int64?_eq_some_iff]
  unfold ofExact
  cases int64? exact <;> simp [eq_comm]

theorem ofExact_eq_error_iff {e : ArithmeticError} :
    ofExact op l r exact = .error e ↔ e = .overflow op l r ∧ ∀ i : Int64, i.toInt ≠ exact := by
  have hnone : int64? exact = none ↔ ∀ i : Int64, i.toInt ≠ exact := by
    simp only [Option.eq_none_iff_forall_ne_some, ne_eq, int64?_eq_some_iff]
  rw [← hnone]
  unfold ofExact
  cases int64? exact <;> simp [eq_comm]

/-- What an operation may answer on the integers `l` and `r`.  An integer is the
    exact result.  If it is a quotient, then it is the one of the machine, there
    is one, and it leaves no remainder. -/
inductive Answers (op : Operator) (l r : Int64) : Except ArithmeticError Number → Prop where
  | exact {i : Int64} (hi : i.toInt = op.onInt l.toInt r.toInt)
      (hd : op = .divide →
        r ≠ 0 ∧ ¬ (l = Int64.minValue ∧ r = -1) ∧ r.toInt ∣ l.toInt ∧ i = l / r) :
      Answers op l r (.ok (.int i))
  | inexact {x : Float} (hd : op = .divide) (hr : ¬ r.toInt ∣ l.toInt) :
      Answers op l r (.ok (.float x))
  | overflow (hi : ∀ i : Int64, i.toInt ≠ op.onInt l.toInt r.toInt) :
      Answers op l r (.error (.overflow op l r))
  | divisionByZero (hd : op = .divide) (hr : r = 0) : Answers op l r (.error .divisionByZero)

theorem answers_ofExact (hop : op ≠ .divide) :
    Answers op l r (ofExact op l r (op.onInt l.toInt r.toInt)) := by
  cases hr : ofExact op l r (op.onInt l.toInt r.toInt) with
  | ok n =>
    obtain ⟨i, rfl, hi⟩ := ofExact_eq_ok_iff.1 hr
    exact .exact hi fun hd => absurd hd hop
  | error e =>
    obtain ⟨rfl, hi⟩ := ofExact_eq_error_iff.1 hr
    exact .overflow hi

theorem answers_quotient : Answers .divide l r (quotient l r) := by
  unfold quotient
  by_cases hzero : r.toInt = 0
  · rw [if_pos hzero]
    exact .divisionByZero rfl (Int64.toInt_inj.1 hzero)
  rw [if_neg hzero]
  by_cases hrem : l.toInt.tmod r.toInt = 0
  · rw [if_pos hrem]
    cases hr : ofExact .divide l r (l.toInt.tdiv r.toInt) with
    | ok n =>
      obtain ⟨i, rfl, hi⟩ := ofExact_eq_ok_iff.1 hr
      refine .exact hi fun _ => ⟨?_, ?_, Int.dvd_of_tmod_eq_zero hrem, ?_⟩
      · rintro rfl
        exact hzero rfl
      · -- the one quotient that does not fit
        rintro ⟨rfl, rfl⟩
        cases hr
      · rw [← Int64.toInt_inj, Int64.toInt_div, ← hi]
        exact i.toInt_bmod_size.symm
    | error e =>
      obtain ⟨rfl, hi⟩ := ofExact_eq_error_iff.1 hr
      exact .overflow hi
  · rw [if_neg hrem]
    exact .inexact rfl fun hd => hrem (Int.tmod_eq_zero_of_dvd hd)

/-- **Arithmetic on integers is exact**: no result is wrapped, and no quotient is
    taken where there is none. -/
theorem answers_apply (op : Operator) (l r : Int64) :
    Answers op l r (apply op (.int l) (.int r)) := by
  cases op with
  | divide => exact answers_quotient
  | _ => exact answers_ofExact nofun

end Number

/-! ## Primitives -/

namespace Primitive

theorem yields_arithmeticResult (op : Operator) (first : Value) (others : List Value) :
    Yields (fun _ => True) (arithmeticResult op first others) := by
  have hstep (acc : Number) (v : Value) : Yields (fun _ => True) (arithmeticStep op acc v) := by
    refine (v.yields_asNumber _).bind fun n _ => ?_
    cases acc.apply op n <;> first | rfl | trivial
  exact (first.yields_asNumber _).bind fun n _ => .foldlM (fun acc v _ => hstep acc v) others trivial

theorem yields_comparisonResult (rel : Comparison) (l r : Value) :
    Yields (fun _ => True) (comparisonResult rel l r) :=
  (l.yields_asNumber _).bind fun _ _ => (r.yields_asNumber _).bind fun _ _ => trivial

theorem yields_lengthOf (v : Value) : Yields (fun _ => True) (lengthOf v) := by
  cases v <;> first | rfl | trivial

theorem yields_fieldName (v : Value) : Yields (fun _ => True) (fieldName v) := by
  cases v <;> first | rfl | trivial

theorem yields_asObject (p : Primitive) (v : Value) :
    Yields (fun ref => v = .host ref) (p.asObject v) := by
  cases v <;> rfl

theorem yields_toArguments (vs : List Value) : Yields (fun _ => True) (toArguments vs) := by
  unfold toArguments
  split
  · trivial
  · rfl

theorem yields_ofAnswer (r : Except String HostValue) :
    Yields (fun v => v.callables = []) (ofAnswer r) := by
  cases r with
  | ok h => exact Value.callables_ofHost h
  | error reason => rfl

/-- The callables in a value are among those in the arguments `vs`. -/
abbrev MadeFrom (vs : List Value) (v : Value) : Prop :=
  v.callables ⊆ (Value.list vs).callables

theorem madeFrom_of_mem {vs : List Value} {v : Value} (h : v ∈ vs) : MadeFrom vs v :=
  fun _ hc => Value.mem_callables_list.2 ⟨v, h, hc⟩

/-- A list is made of callables in the arguments if its items are. -/
theorem madeFrom_list {vs items : List Value} (h : ∀ v ∈ items, MadeFrom vs v) : MadeFrom vs (.list items) := by
  intro c hc
  obtain ⟨v, hv, hcv⟩ := Value.mem_callables_list.1 hc
  exact h v hv hcv

theorem madeFrom_item {vs items : List Value} {v : Value} (h : .list items ∈ vs) (hv : v ∈ items) :
    MadeFrom vs v :=
  fun _ hc => madeFrom_of_mem h (Value.mem_callables_list.2 ⟨v, hv, hc⟩)

theorem madeFrom_of_eq_nil {vs : List Value} {v : Value} (h : v.callables = []) :
    MadeFrom vs v := by
  rw [MadeFrom, h]
  exact List.nil_subset _

/-- **A primitive with the arguments that it takes** answers with an ordinary
    error, or with a value whose callables are from the arguments. -/
theorem yields_result (h : Host) {p : Primitive} {vs : List Value}
    (hn : p.arity.accepts vs.length = true) : Yields (MadeFrom vs) (p.result h vs) := by
  cases p with
  | arithmetic op =>
    obtain ⟨v, vs, rfl⟩ := List.exists_cons_of_length_pos (Arity.accepts_atLeast.1 hn)
    exact (yields_arithmeticResult op v vs).bind fun _ _ => madeFrom_of_eq_nil rfl
  | comparison rel =>
    obtain ⟨l, r, rfl⟩ := List.length_eq_two.1 (Arity.accepts_exactly.1 hn)
    exact (yields_comparisonResult rel l r).bind fun _ _ => madeFrom_of_eq_nil rfl
  | isSame =>
    obtain ⟨l, r, rfl⟩ := List.length_eq_two.1 (Arity.accepts_exactly.1 hn)
    exact madeFrom_of_eq_nil rfl
  | list => exact List.Subset.refl _
  | cons =>
    obtain ⟨v, l, rfl⟩ := List.length_eq_two.1 (Arity.accepts_exactly.1 hn)
    refine (l.yields_asList _).bind fun items hl => madeFrom_list fun v' hv' => ?_
    subst hl
    rcases List.mem_cons.1 hv' with rfl | hv'
    · exact madeFrom_of_mem (by simp)
    · exact madeFrom_item (by simp) hv'
  | first =>
    obtain ⟨l, rfl⟩ := List.length_eq_one_iff.1 (Arity.accepts_exactly.1 hn)
    refine (l.yields_asList _).bind fun items hl => ?_
    subst hl
    cases items with
    | nil => rfl
    | cons v items => exact @madeFrom_item _ (v :: items) v (by simp) (by simp)
  | rest =>
    obtain ⟨l, rfl⟩ := List.length_eq_one_iff.1 (Arity.accepts_exactly.1 hn)
    refine (l.yields_asList _).bind fun items hl => madeFrom_list fun v hv => ?_
    subst hl
    exact madeFrom_item (by simp) (List.mem_of_mem_drop hv)
  | isEmpty =>
    obtain ⟨l, rfl⟩ := List.length_eq_one_iff.1 (Arity.accepts_exactly.1 hn)
    exact (l.yields_asList _).bind fun _ _ => madeFrom_of_eq_nil rfl
  | length =>
    obtain ⟨v, rfl⟩ := List.length_eq_one_iff.1 (Arity.accepts_exactly.1 hn)
    exact (yields_lengthOf v).bind fun _ _ => madeFrom_of_eq_nil rfl
  | typeOf =>
    obtain ⟨v, rfl⟩ := List.length_eq_one_iff.1 (Arity.accepts_exactly.1 hn)
    exact madeFrom_of_eq_nil rfl
  | print => exact madeFrom_of_eq_nil rfl
  | access =>
    obtain ⟨object, field, rfl⟩ := List.length_eq_two.1 (Arity.accepts_exactly.1 hn)
    exact (yields_fieldName field).bind fun _ _ => (yields_asObject _ object).bind fun _ _ =>
      (yields_ofAnswer _).mono fun _ => madeFrom_of_eq_nil
  | invoke =>
    obtain ⟨object, args, rfl⟩ := List.exists_cons_of_length_pos (Arity.accepts_atLeast.1 hn)
    exact (yields_asObject _ object).bind fun _ _ => (yields_toArguments args).bind fun _ _ =>
      (yields_ofAnswer _).mono fun _ => madeFrom_of_eq_nil

theorem result_of_not_accepts (h : Host) {p : Primitive} {vs : List Value}
    (hn : p.arity.accepts vs.length = false) : p.result h vs = .error (.defect (.primitive p)) := by
  unfold result
  split <;> first | rfl | simp [arity, Arity.accepts] at hn

/-- **A primitive misses no argument exactly if its arity admits their number.** -/
theorem result_ne_defect_iff {h : Host} {p : Primitive} {vs : List Value} :
    (∀ b, p.result h vs ≠ .error (.defect b)) ↔ p.arity.accepts vs.length = true := by
  constructor
  · intro hr
    refine eq_true_of_ne_false fun hn => ?_
    exact hr _ (result_of_not_accepts h hn)
  · intro hn b hr
    have hy := yields_result h hn
    rw [hr] at hy
    cases hy

end Primitive

end MacroLisp
