/-
  Arithmetic on any number of integers.

  The operations go through their arguments from left to right.  A sum, a
  difference or a product is exact as long as all partial results fit into 64
  bits, and is refused at the first that does not.  A division goes on with the
  exact quotients as long as there is no remainder, and with doubles from the
  first remainder on.

  * `Operator.Step`, `Operator.Refuses`: one argument more;
  * `Operator.PartialResult`: some arguments, and `Operator.Offends`: the first
    that has no result;
  * `Operator.partialResult_ints_iff`: the partial results as a fold over the
    integers;
  * `Primitive.arithmetic_exact`: the main statement.
-/
import MacroLisp.Proofs.Eval.Results
import Mathlib.Data.List.Infix
import Mathlib.Tactic.Linarith

namespace MacroLisp

/-- Does `x` fit into 64 bits? -/
def InRange (x : Int) : Prop := -2 ^ 63 ≤ x ∧ x < 2 ^ 63

instance (x : Int) : Decidable (InRange x) := inferInstanceAs (Decidable (_ ∧ _))

theorem exists_toInt_iff {x : Int} : (∃ i : Int64, i.toInt = x) ↔ InRange x := by
  constructor
  · rintro ⟨i, rfl⟩
    exact ⟨i.le_toInt, i.toInt_lt⟩
  · rintro ⟨hle, hlt⟩
    exact ⟨.ofInt x, Int64.toInt_ofInt_of_le hle hlt⟩

theorem forall_toInt_ne_iff {x : Int} : (∀ i : Int64, i.toInt ≠ x) ↔ ¬ InRange x := by
  rw [← exists_toInt_iff, not_exists]

namespace Operator

/-! ## One argument -/

/-- `result` is the exact result on `l` and `r`.  For a division it is the
    quotient, and there is no remainder. -/
def Exact (op : Operator) (l r result : Int64) : Prop :=
  match op with
  | divide => r ≠ 0 ∧ result.toInt * r.toInt = l.toInt
  | op => result.toInt = op.onInt l.toInt r.toInt

/-- The exact result on `l` and `r` does not fit into 64 bits.  The quotient
    that does not is that of the least integer and `-1`. -/
def Overflows (op : Operator) (l r : Int64) : Prop :=
  match op with
  | divide => l = Int64.minValue ∧ r = -1
  | op => ¬ InRange (op.onInt l.toInt r.toInt)

theorem exact_iff {op : Operator} (hop : op ≠ divide) {l r result : Int64} :
    op.Exact l r result ↔ result.toInt = op.onInt l.toInt r.toInt := by
  cases op with
  | divide => exact absurd rfl hop
  | _ => exact Iff.rfl

theorem overflows_iff {op : Operator} (hop : op ≠ divide) {l r : Int64} :
    op.Overflows l r ↔ ¬ InRange (op.onInt l.toInt r.toInt) := by
  cases op with
  | divide => exact absurd rfl hop
  | _ => exact Iff.rfl

/-- The result `n` of the operation on the result so far and the integer `j`. -/
inductive Step (op : Operator) : Number → Int64 → Number → Prop where
  | exact {acc j r : Int64} (hr : op.Exact acc j r) : Step op (.int acc) j (.int r)
  | inexact {acc j : Int64} (hop : op = divide) (hj : j ≠ 0) (hd : ¬ j.toInt ∣ acc.toInt) :
      Step op (.int acc) j (.float (Float.ofInt acc.toInt / Float.ofInt j.toInt))
  | float {x : Float} {j : Int64} :
      Step op (.float x) j (.float (op.onFloat x (Float.ofInt j.toInt)))

/-- Why the operation has no result on the result so far and an integer. -/
inductive Refuses (op : Operator) : Number → Int64 → ArithmeticError → Prop where
  | overflow {acc j : Int64} (ho : op.Overflows acc j) :
      Refuses op (.int acc) j (.overflow op acc j)
  | divisionByZero {acc : Int64} (hop : op = divide) : Refuses op (.int acc) 0 .divisionByZero

end Operator

namespace Number

variable {op : Operator} {acc n : Number} {l r j : Int64} {e : ArithmeticError}

/-- Where the exact quotient does not fit, the divisor is `-1` and the dividend
    the least integer. -/
theorem overflows_of_mul_eq {q : Int} (hq : q * r.toInt = l.toInt) (hr : r.toInt ≠ 0)
    (hn : ¬ InRange q) : Operator.divide.Overflows l r := by
  have hle := l.le_toInt
  have hlt := l.toInt_lt
  rw [InRange, not_and_or, not_le, not_lt] at hn
  have hr1 : r.toInt = -1 := by
    by_contra hne
    obtain hneg | hpos : r.toInt ≤ -2 ∨ 1 ≤ r.toInt := by omega
    · rcases hn with hn | hn <;> nlinarith
    · rcases hn with hn | hn <;> nlinarith
  have hl : l.toInt = -2 ^ 63 := by
    rw [hr1] at hq
    omega
  exact ⟨Int64.toInt_inj.1 (hl.trans Int64.toInt_minValue.symm), Int64.toInt_inj.1 hr1⟩

theorem apply_of_step (hs : op.Step acc j n) : apply op acc (.int j) = .ok n := by
  cases hs with
  | @exact l _ q hr =>
    cases op with
    | divide =>
      obtain ⟨hj, hq⟩ := hr
      have hj0 : j.toInt ≠ 0 := fun h0 => hj (Int64.toInt_inj.1 h0)
      have hdiv : l.toInt.tdiv j.toInt = q.toInt := by rw [← hq, Int.mul_tdiv_cancel _ hj0]
      have hrem : l.toInt.tmod j.toInt = 0 := by rw [← hq, Int.mul_tmod_left]
      rw [apply, quotient, if_neg hj0, if_pos hrem, hdiv]
      exact ofExact_eq_ok_iff.2 ⟨q, rfl, rfl⟩
    | _ => exact ofExact_eq_ok_iff.2 ⟨q, rfl, hr⟩
  | inexact hop hj hd =>
    subst hop
    have hj0 : j.toInt ≠ 0 := fun h0 => hj (Int64.toInt_inj.1 h0)
    rw [apply, quotient, if_neg hj0, if_neg fun hm => hd (Int.dvd_of_tmod_eq_zero hm)]
  | float => cases op <;> rfl

theorem apply_of_refuses (hs : op.Refuses acc j e) : apply op acc (.int j) = .error e := by
  cases hs with
  | overflow ho =>
    cases op with
    | divide =>
      obtain ⟨rfl, rfl⟩ := ho
      rfl
    | _ => exact ofExact_eq_error_iff.2 ⟨rfl, forall_toInt_ne_iff.2 ho⟩
  | divisionByZero hop =>
    subst hop
    rfl

/-- There is a result, or a reason why there is none. -/
theorem step_or_refuses (op : Operator) (acc : Number) (j : Int64) :
    (∃ n, op.Step acc j n) ∨ ∃ e, op.Refuses acc j e := by
  cases acc with
  | float x => exact .inl ⟨_, .float⟩
  | int l =>
    by_cases hop : op = .divide
    · subst hop
      by_cases hj : j = 0
      · subst hj
        exact .inr ⟨_, .divisionByZero rfl⟩
      by_cases hd : j.toInt ∣ l.toInt
      · obtain ⟨q, hq⟩ := hd
        rw [mul_comm] at hq
        by_cases hr : InRange q
        · obtain ⟨i, rfl⟩ := exists_toInt_iff.2 hr
          exact .inl ⟨_, .exact ⟨hj, hq.symm⟩⟩
        · have hj0 : j.toInt ≠ 0 := fun h0 => hj (Int64.toInt_inj.1 h0)
          exact .inr ⟨_, .overflow (overflows_of_mul_eq hq.symm hj0 hr)⟩
      · exact .inl ⟨_, .inexact rfl hj hd⟩
    · by_cases hr : InRange (op.onInt l.toInt j.toInt)
      · obtain ⟨i, hi⟩ := exists_toInt_iff.2 hr
        exact .inl ⟨_, .exact ((Operator.exact_iff hop).2 hi)⟩
      · exact .inr ⟨_, .overflow ((Operator.overflows_iff hop).2 hr)⟩

/-- **The operation with an integer**, as it is specified. -/
theorem apply_eq_ok_iff : apply op acc (.int j) = .ok n ↔ op.Step acc j n := by
  refine ⟨fun h => ?_, apply_of_step⟩
  rcases step_or_refuses op acc j with ⟨n', hs⟩ | ⟨e, hs⟩
  · rw [apply_of_step hs] at h
    cases h
    exact hs
  · rw [apply_of_refuses hs] at h
    cases h

theorem apply_eq_error_iff : apply op acc (.int j) = .error e ↔ op.Refuses acc j e := by
  refine ⟨fun h => ?_, apply_of_refuses⟩
  rcases step_or_refuses op acc j with ⟨n, hs⟩ | ⟨e', hs⟩
  · rw [apply_of_step hs] at h
    cases h
  · rw [apply_of_refuses hs] at h
    cases h
    exact hs

end Number

/-! ## Any number of arguments -/

namespace Operator

variable {op : Operator} {done : List Value} {v : Value} {acc n : Number} {e : EvalError}

/-- The arguments `done` are integers, and `n` is the result on them, from left
    to right. -/
inductive PartialResult (op : Operator) : List Value → Number → Prop where
  | first (i : Int64) : PartialResult op [.int i] (.int i)
  | next {done : List Value} {acc n : Number} {j : Int64} (h : PartialResult op done acc)
      (hs : op.Step acc j n) : PartialResult op (done ++ [.int j]) n

/-- The arguments `done` have a result, and with `v` there is none. -/
inductive Offends (op : Operator) : List Value → Value → EvalError → Prop where
  | notNumber {done : List Value} {v : Value} (hd : done = [] ∨ ∃ acc, op.PartialResult done acc)
      (hv : ∀ n, v ≠ .number n) : Offends op done v (.type (.expectedNumber op.symbol v))
  | refused {done : List Value} {acc : Number} {j : Int64} {e : ArithmeticError}
      (h : op.PartialResult done acc) (hr : op.Refuses acc j e) :
      Offends op done (.int j) (.arithmetic e)

/-- One of the arguments `vs` is the first that offends. -/
def Fails (op : Operator) (vs : List Value) (e : EvalError) : Prop :=
  ∃ done v later, vs = done ++ v :: later ∧ op.Offends done v e

theorem fails_concat_iff {vs : List Value} :
    op.Fails (vs ++ [v]) e ↔ op.Fails vs e ∨ op.Offends vs v e := by
  constructor
  · rintro ⟨done, u, later, hsplit, ho⟩
    rcases List.eq_nil_or_concat later with rfl | ⟨later, w, rfl⟩
    · obtain ⟨rfl, hu⟩ := List.append_inj' hsplit rfl
      cases hu
      exact .inr ho
    · rw [List.concat_eq_append, ← List.cons_append, ← List.append_assoc] at hsplit
      exact .inl ⟨done, u, later, (List.append_inj' hsplit rfl).1, ho⟩
  · rintro (⟨done, u, later, rfl, ho⟩ | ho)
    · exact ⟨done, u, later ++ [v], by simp, ho⟩
    · exact ⟨vs, v, [], rfl, ho⟩

theorem not_fails_nil : ¬ op.Fails [] e := by
  rintro ⟨done, v, later, hsplit, -⟩
  simp at hsplit

theorem not_partialResult_nil : ¬ op.PartialResult [] n := by
  intro h
  generalize hl : ([] : List Value) = l at h
  cases h <;> simp at hl

theorem PartialResult.ne_nil (h : op.PartialResult done n) : done ≠ [] := by
  rintro rfl
  exact not_partialResult_nil h

theorem partialResult_singleton_iff : op.PartialResult [v] n ↔ ∃ i, v = .int i ∧ n = .int i := by
  constructor
  · intro h
    generalize hl : [v] = l at h
    cases h with
    | first i => exact ⟨i, List.singleton_inj.1 hl, rfl⟩
    | @next done _ _ j h _ =>
      have hl' : [] ++ [v] = done ++ [.int j] := hl
      obtain ⟨rfl, -⟩ := List.append_inj' hl' rfl
      exact absurd h not_partialResult_nil
  · rintro ⟨i, rfl, rfl⟩
    exact .first i

theorem partialResult_concat_iff (hne : done ≠ []) :
    op.PartialResult (done ++ [v]) n ↔
      ∃ acc j, v = .int j ∧ op.PartialResult done acc ∧ op.Step acc j n := by
  constructor
  · intro h
    generalize hl : done ++ [v] = l at h
    cases h with
    | first i =>
      have hl' : done ++ [v] = [] ++ [.int i] := hl
      exact absurd (List.append_inj' hl' rfl).1 hne
    | next h hs =>
      obtain ⟨rfl, hv⟩ := List.append_inj' hl rfl
      exact ⟨_, _, List.singleton_inj.1 hv, h, hs⟩
  · rintro ⟨acc, j, rfl, h, hs⟩
    exact .next h hs

theorem Step.unique {j : Int64} {n' : Number} (h : op.Step acc j n) (h' : op.Step acc j n') :
    n = n' :=
  Except.ok.inj ((Number.apply_of_step h).symm.trans (Number.apply_of_step h'))

theorem PartialResult.unique {n' : Number} (h : op.PartialResult done n)
    (h' : op.PartialResult done n') : n = n' := by
  induction h generalizing n' with
  | first i =>
    obtain ⟨_, ⟨⟩, rfl⟩ := partialResult_singleton_iff.1 h'
    rfl
  | @next done acc n j hd hs ih =>
    obtain ⟨acc', j', ⟨⟩, hd', hs'⟩ := (partialResult_concat_iff hd.ne_nil).1 h'
    obtain rfl := ih hd'
    exact hs.unique hs'

/-- The partial result of one integer more. -/
theorem PartialResult.next_iff (h : op.PartialResult done acc) {j : Int64} :
    op.PartialResult (done ++ [.int j]) n ↔ op.Step acc j n := by
  rw [partialResult_concat_iff h.ne_nil]
  constructor
  · rintro ⟨acc', _, ⟨⟩, h', hs⟩
    obtain rfl := h.unique h'
    exact hs
  · intro hs
    exact ⟨acc, j, rfl, h, hs⟩

/-! ### Divisions -/

/-- **A division goes on with the exact quotient** as long as there is one. -/
theorem PartialResult.divide {q j : Int64} (h : divide.PartialResult done (.int q)) :
    (∀ r : Int64, divide.PartialResult (done ++ [.int j]) (.int r) ↔
      j ≠ 0 ∧ r.toInt * j.toInt = q.toInt) ∧
    ((∃ x, divide.PartialResult (done ++ [.int j]) (.float x)) ↔
      j ≠ 0 ∧ ¬ j.toInt ∣ q.toInt) ∧
    ∀ e, divide.Offends done (.int j) e ↔ (j = 0 ∧ e = .arithmetic .divisionByZero) ∨
      (q = Int64.minValue ∧ j = -1 ∧ e = .arithmetic (.overflow .divide q j)) := by
  simp only [h.next_iff]
  refine ⟨fun r => ⟨?_, fun hr => .exact hr⟩, ⟨?_, fun ⟨hj, hd⟩ => ⟨_, .inexact rfl hj hd⟩⟩,
    fun e => ⟨?_, ?_⟩⟩
  · rintro ⟨hr⟩
    exact hr
  · rintro ⟨x, _ | ⟨-, hj, hd⟩⟩
    exact ⟨hj, hd⟩
  · rintro (⟨-, hv⟩ | ⟨h', hr⟩)
    · exact absurd rfl (hv (.int j))
    · obtain rfl := h'.unique h
      rcases hr with ⟨hq, hj⟩ | -
      · exact .inr ⟨hq, hj, rfl⟩
      · exact .inl ⟨rfl, rfl⟩
  · rintro (⟨rfl, rfl⟩ | ⟨rfl, rfl, rfl⟩)
    · exact .refused h (.divisionByZero rfl)
    · exact .refused h (.overflow ⟨rfl, rfl⟩)

/-- A result that is a double stays one. -/
theorem PartialResult.float_append {x : Float} (h : op.PartialResult done (.float x))
    (later : List Value) (hn : op.PartialResult (done ++ later) n) : ∃ y, n = .float y := by
  induction later using List.reverseRecOn generalizing n with
  | nil =>
    rw [List.append_nil] at hn
    exact ⟨x, hn.unique h⟩
  | append_singleton later v ih =>
    have hne : done ++ later ≠ [] := List.append_ne_nil_of_left_ne_nil h.ne_nil later
    rw [← List.append_assoc, partialResult_concat_iff hne] at hn
    obtain ⟨acc, j, rfl, hacc, hs⟩ := hn
    obtain ⟨y, rfl⟩ := ih hacc
    cases hs
    exact ⟨_, rfl⟩

/-- Only what is no number offends behind a result that is a double. -/
theorem PartialResult.offends_append {x : Float} (h : op.PartialResult done (.float x))
    (later : List Value) (ho : op.Offends (done ++ later) v e) :
    (∀ n, v ≠ .number n) ∧ e = .type (.expectedNumber op.symbol v) := by
  cases ho with
  | notNumber _ hv => exact ⟨hv, rfl⟩
  | refused hacc hr =>
    obtain ⟨y, rfl⟩ := h.float_append later hacc
    cases hr

/-! ### Exact totals -/

/-- The operation on integers, from left to right, without any limit. -/
def total (op : Operator) (i : Int64) (js : List Int64) : Int :=
  js.foldl (fun acc j => op.onInt acc j.toInt) i.toInt

theorem total_concat (op : Operator) (i : Int64) (js : List Int64) (j : Int64) :
    op.total i (js ++ [j]) = op.onInt (op.total i js) j.toInt :=
  List.foldl_concat ..

/-- **Sums, differences and products are exact**: there is a result exactly if all
    partial totals fit, and then it is the total. -/
theorem partialResult_iff_total (hop : op ≠ divide) :
    op.PartialResult done n ↔ ∃ i js, done = (i :: js).map .int ∧
      (∀ ks, ks <+: js → InRange (op.total i ks)) ∧
      ∃ r : Int64, n = .int r ∧ r.toInt = op.total i js := by
  constructor
  · intro h
    induction h with
    | first i =>
      refine ⟨i, [], rfl, fun ks hks => ?_, i, rfl, rfl⟩
      rw [List.prefix_nil.1 hks]
      exact exists_toInt_iff.1 ⟨i, rfl⟩
    | @next done acc n j _ hs ih =>
      obtain ⟨i, js, rfl, hall, r, rfl, hr⟩ := ih
      cases hs with
      | inexact hdivide => exact absurd hdivide hop
      | @exact _ _ r' hexact =>
        have htotal : r'.toInt = op.total i (js ++ [j]) := by
          rw [total_concat, ← hr]
          exact (exact_iff hop).1 hexact
        refine ⟨i, js ++ [j], by simp, fun ks hks => ?_, r', rfl, htotal⟩
        rcases List.prefix_concat_iff.1 hks with rfl | hks
        · exact exists_toInt_iff.1 ⟨r', htotal⟩
        · exact hall ks hks
  · rintro ⟨i, js, rfl, hall, r, rfl, hr⟩
    induction js using List.reverseRecOn generalizing r with
    | nil =>
      obtain rfl := Int64.toInt_inj.1 hr
      exact .first r
    | append_singleton js j ih =>
      obtain ⟨acc, hacc⟩ := exists_toInt_iff.2 (hall js (js.prefix_append [j]))
      have hdone := ih (fun ks hks => hall ks (hks.trans (js.prefix_append [j]))) acc hacc
      rw [total_concat, ← hacc] at hr
      have hnext := PartialResult.next hdone (.exact ((exact_iff hop).2 hr))
      simpa using hnext

end Operator

namespace Value

/-- The value is an integer if it is a number. -/
def NotFloat (v : Value) : Prop := ∀ n, v = .number n → ∃ i, n = .int i

theorem NotFloat.int_or_ne {v : Value} (hv : v.NotFloat) :
    (∃ i, v = .int i) ∨ ∀ n, v ≠ .number n := by
  by_cases h : ∃ n, v = .number n
  · obtain ⟨n, rfl⟩ := h
    obtain ⟨i, rfl⟩ := hv n rfl
    exact .inl ⟨i, rfl⟩
  · exact .inr fun n hn => h ⟨n, hn⟩

theorem asNumber_of_ne {v : Value} (hv : ∀ n, v ≠ .number n) (op : String) :
    v.asNumber op = .error (.type (.expectedNumber op v)) := by
  cases v with
  | number n => exact absurd rfl (hv n)
  | _ => rfl

end Value

namespace Primitive

variable {op : Operator} {v w : Value} {vs : List Value} {acc n : Number} {e : EvalError}

theorem arithmeticStep_int (op : Operator) (acc : Number) (j : Int64) :
    arithmeticStep op acc (.int j) = (acc.apply op (.int j)).mapError .arithmetic := by
  have hj : (Value.int j).asNumber op.symbol = .ok (.int j) := rfl
  simp only [arithmeticStep, hj, bind, Except.bind]
  cases acc.apply op (.int j) <;> rfl

theorem arithmeticStep_of_ne (hw : ∀ n, w ≠ .number n) :
    arithmeticStep op acc w = .error (.type (.expectedNumber op.symbol w)) := by
  rw [arithmeticStep, Value.asNumber_of_ne hw]
  rfl

/-- One argument more has a result exactly if it is an integer with one. -/
theorem arithmeticStep_eq_ok_iff (hw : w.NotFloat) :
    arithmeticStep op acc w = .ok n ↔ ∃ j, w = .int j ∧ op.Step acc j n := by
  rcases hw.int_or_ne with ⟨j, rfl⟩ | hne
  · rw [arithmeticStep_int]
    constructor
    · intro h
      refine ⟨j, rfl, Number.apply_eq_ok_iff.1 ?_⟩
      cases ha : acc.apply op (.int j) <;> rw [ha] at h <;> cases h
      rfl
    · rintro ⟨_, ⟨⟩, hs⟩
      rw [Number.apply_of_step hs]
      rfl
  · rw [arithmeticStep_of_ne hne]
    constructor
    · nofun
    · rintro ⟨j, rfl, -⟩
      exact absurd rfl (hne (.int j))

/-- One argument more that has no result is the first that offends. -/
theorem arithmeticStep_eq_error_iff (hw : w.NotFloat) {done : List Value}
    (hd : ∀ acc', op.PartialResult done acc' ↔ acc' = acc) :
    arithmeticStep op acc w = .error e ↔ op.Offends done w e := by
  rcases hw.int_or_ne with ⟨j, rfl⟩ | hne
  · rw [arithmeticStep_int]
    constructor
    · intro h
      cases ha : acc.apply op (.int j) <;> rw [ha] at h <;> cases h
      exact .refused ((hd acc).2 rfl) (Number.apply_eq_error_iff.1 ha)
    · intro ho
      cases ho with
      | notNumber _ hv => exact absurd rfl (hv (.int j))
      | refused h hr =>
        rw [(hd _).1 h] at hr
        rw [Number.apply_of_refuses hr]
        rfl
  · rw [arithmeticStep_of_ne hne]
    constructor
    · rintro ⟨⟩
      exact .notNumber (.inr ⟨acc, (hd acc).2 rfl⟩) hne
    · rintro (⟨_, _⟩ | ⟨_, _⟩)
      · rfl
      · exact absurd rfl (hne _)

theorem arithmeticResult_concat (op : Operator) (v : Value) (vs : List Value) (w : Value) :
    arithmeticResult op v (vs ++ [w]) =
      arithmeticResult op v vs >>= fun acc => arithmeticStep op acc w := by
  simp [arithmeticResult, List.foldlM_append]

/-- **Some arguments have a result** exactly if it is their partial result. -/
theorem arithmeticResult_eq_ok_iff (hv : v.NotFloat) (hvs : ∀ w ∈ vs, w.NotFloat) :
    arithmeticResult op v vs = .ok n ↔ op.PartialResult (v :: vs) n := by
  induction vs using List.reverseRecOn generalizing n with
  | nil =>
    rw [Operator.partialResult_singleton_iff]
    rcases hv.int_or_ne with ⟨i, rfl⟩ | hne
    · have hone : arithmeticResult op (.int i) [] = .ok (.int i) := rfl
      rw [hone]
      constructor
      · rintro ⟨⟩
        exact ⟨i, rfl, rfl⟩
      · rintro ⟨_, ⟨⟩, rfl⟩
        rfl
    · have hone : arithmeticResult op v [] = .error (.type (.expectedNumber op.symbol v)) := by
        rw [arithmeticResult, Value.asNumber_of_ne hne]
        rfl
      simp only [hone, reduceCtorEq, false_iff]
      rintro ⟨i, rfl, -⟩
      exact hne _ rfl
  | append_singleton vs w ih =>
    have hvs' : ∀ u ∈ vs, u.NotFloat := fun u hu => hvs u (List.mem_append_left _ hu)
    have hw : w.NotFloat := hvs w (by simp)
    rw [arithmeticResult_concat, ← List.cons_append, Operator.partialResult_concat_iff (by simp)]
    rcases hr : arithmeticResult op v vs with e | acc
    · refine ⟨nofun, ?_⟩
      rintro ⟨acc, j, -, h, -⟩
      rw [← ih hvs', hr] at h
      cases h
    · refine (arithmeticStep_eq_ok_iff hw).trans ⟨?_, ?_⟩
      · rintro ⟨j, rfl, hs⟩
        exact ⟨acc, j, rfl, (ih hvs').1 hr, hs⟩
      · rintro ⟨acc', j, rfl, h, hs⟩
        rw [← ih hvs', hr] at h
        cases h
        exact ⟨j, rfl, hs⟩

/-- **Some arguments have none** exactly if one of them offends. -/
theorem arithmeticResult_eq_error_iff (hv : v.NotFloat) (hvs : ∀ w ∈ vs, w.NotFloat) :
    arithmeticResult op v vs = .error e ↔ op.Fails (v :: vs) e := by
  induction vs using List.reverseRecOn with
  | nil =>
    rw [← List.nil_append [v], Operator.fails_concat_iff, or_iff_right Operator.not_fails_nil]
    rcases hv.int_or_ne with ⟨i, rfl⟩ | hne
    · have hone : arithmeticResult op (.int i) [] = .ok (.int i) := rfl
      rw [hone]
      refine ⟨nofun, ?_⟩
      rintro (⟨-, hv⟩ | ⟨h, -⟩)
      · exact absurd rfl (hv (.int i))
      · exact absurd h Operator.not_partialResult_nil
    · have hone : arithmeticResult op v [] = .error (.type (.expectedNumber op.symbol v)) := by
        rw [arithmeticResult, Value.asNumber_of_ne hne]
        rfl
      rw [hone]
      constructor
      · rintro ⟨⟩
        exact .notNumber (.inl rfl) hne
      · rintro (⟨-, -⟩ | ⟨h, -⟩)
        · rfl
        · exact absurd h Operator.not_partialResult_nil
  | append_singleton vs w ih =>
    have hvs' : ∀ u ∈ vs, u.NotFloat := fun u hu => hvs u (List.mem_append_left _ hu)
    have hw : w.NotFloat := hvs w (by simp)
    have hok {acc : Number} : arithmeticResult op v vs = .ok acc ↔ op.PartialResult (v :: vs) acc :=
      arithmeticResult_eq_ok_iff hv hvs'
    rw [arithmeticResult_concat, ← List.cons_append, Operator.fails_concat_iff, ← ih hvs']
    rcases hr : arithmeticResult op v vs with e' | acc
    · -- what follows an offence is not looked at
      have hnone (acc : Number) : ¬ op.PartialResult (v :: vs) acc := by
        rw [← hok, hr]
        nofun
      have hno : ¬ op.Offends (v :: vs) w e := by
        rintro (⟨hd, -⟩ | ⟨h, -⟩)
        · exact (hd.resolve_left nofun).elim hnone
        · exact hnone _ h
      exact (or_iff_left hno).symm
    · have hd (acc' : Number) : op.PartialResult (v :: vs) acc' ↔ acc' = acc := by
        rw [← hok, hr, Except.ok.injEq, eq_comm]
      rw [← arithmeticStep_eq_error_iff hw hd]
      exact (or_iff_right nofun).symm

theorem result_arithmetic (h : Host) (op : Operator) (v : Value) (vs : List Value) :
    (arithmetic op).result h (v :: vs) = (arithmeticResult op v vs).map .number := by
  show (arithmeticResult op v vs >>= fun n => pure (Value.number n)) = _
  cases arithmeticResult op v vs <;> rfl

/-- **Arithmetic on integers is exact or refused, and the first offence counts.**
    Let all numbers among some arguments be integers.  There is a result exactly
    if it is their partial result, and an error exactly if an argument is the first
    that offends: one that is no number, or one that has no result with the partial
    result so far.
    For all operations but the division, some arguments have a partial result
    exactly if they are integers whose totals all fit, and it is their exact total.
    A division goes on with the exact quotient as long as there is no remainder;
    a zero divisor has none, nor has the one quotient that does not fit.  A result
    that is a double stays one, and behind it only what is no number offends. -/
theorem arithmetic_exact (h : Host) (op : Operator) {vs : List Value} (hne : vs ≠ [])
    (hvs : ∀ v ∈ vs, v.NotFloat) :
    (∀ v, (arithmetic op).result h vs = .ok v ↔ ∃ n, v = .number n ∧ op.PartialResult vs n) ∧
    (∀ e, (arithmetic op).result h vs = .error e ↔ op.Fails vs e) ∧
    (op ≠ .divide → ∀ done n, op.PartialResult done n ↔ ∃ i js, done = (i :: js).map .int ∧
      (∀ ks, ks <+: js → InRange (op.total i ks)) ∧
      ∃ r : Int64, n = .int r ∧ r.toInt = op.total i js) ∧
    (op = .divide → ∀ done (q j : Int64), op.PartialResult done (.int q) →
      (∀ r : Int64, op.PartialResult (done ++ [.int j]) (.int r) ↔
        j ≠ 0 ∧ r.toInt * j.toInt = q.toInt) ∧
      ((∃ x, op.PartialResult (done ++ [.int j]) (.float x)) ↔ j ≠ 0 ∧ ¬ j.toInt ∣ q.toInt) ∧
      ∀ e, op.Offends done (.int j) e ↔ (j = 0 ∧ e = .arithmetic .divisionByZero) ∨
        (q = Int64.minValue ∧ j = -1 ∧ e = .arithmetic (.overflow .divide q j))) ∧
    ∀ done x later, op.PartialResult done (.float x) →
      (∀ n, op.PartialResult (done ++ later) n → ∃ y, n = .float y) ∧
      ∀ v e, op.Offends (done ++ later) v e →
        (∀ n, v ≠ .number n) ∧ e = .type (.expectedNumber op.symbol v) := by
  obtain ⟨v, vs, rfl⟩ := List.exists_cons_of_ne_nil hne
  obtain ⟨hv, hvs⟩ := List.forall_mem_cons.1 hvs
  refine ⟨fun u => ?_, fun e => ?_, fun hop done n => Operator.partialResult_iff_total hop,
    fun hop done q j hq => ?_, fun done x later hx => ?_⟩
  · simp only [result_arithmetic, ← arithmeticResult_eq_ok_iff hv hvs]
    cases arithmeticResult op v vs with
    | error e => simp [Except.map]
    | ok n => simp [Except.map, eq_comm]
  · rw [result_arithmetic, ← arithmeticResult_eq_error_iff hv hvs]
    cases arithmeticResult op v vs <;> simp [Except.map]
  · subst hop
    exact hq.divide
  · exact ⟨fun n => hx.float_append later, fun v e => hx.offends_append later⟩

/-- A sum that would fit again, if its first partial total did, and if all its
    arguments were numbers; and a division by zero behind a remainder. -/
theorem arithmetic_exact_offences :
    let greatest := Int64.maxValue
    (arithmetic .add).result .none [.int greatest, .int 1, .int (-1), .symbol "x"] =
        .error (.arithmetic (.overflow .add greatest 1)) ∧
      (arithmetic .divide).result .none [.int 12, .int 3, .int 8, .int 0, .symbol "x"] =
        .error (.type (.expectedNumber "/" (.symbol "x"))) ∧
      (arithmetic .divide).result .none [.int 12, .int 0, .symbol "x"] =
        .error (.arithmetic .divisionByZero) := by
  intro greatest
  have hsum := @arithmetic_exact .none .add [.int greatest, .int 1, .int (-1), .symbol "x"]
    (by simp) (by simp [Value.NotFloat, Value.int])
  have hquotient := @arithmetic_exact .none .divide [.int 12, .int 3, .int 8, .int 0, .symbol "x"]
    (by simp) (by simp [Value.NotFloat, Value.int])
  have hzero := @arithmetic_exact .none .divide [.int 12, .int 0, .symbol "x"]
    (by simp) (by simp [Value.NotFloat, Value.int])
  have hexact : Operator.divide.PartialResult [.int 12, .int 3] (.int 4) :=
    .next (.first 12) (.exact ⟨by decide, by decide⟩)
  have hdouble : Operator.divide.PartialResult [.int 12, .int 3, .int 8, .int 0]
      (.float (Float.ofInt 4 / Float.ofInt 8 / Float.ofInt 0)) :=
    .next (.next hexact (.inexact rfl (by decide) (by decide))) .float
  have hover : Operator.add.Overflows greatest 1 :=
    (Operator.overflows_iff (by decide)).2 (by decide)
  exact ⟨(hsum.2.1 _).2 ⟨[.int greatest], _, _, rfl, .refused (.first _) (.overflow hover)⟩,
    (hquotient.2.1 _).2 ⟨_, _, [], rfl, .notNumber (.inr ⟨_, hdouble⟩) nofun⟩,
    (hzero.2.1 _).2 ⟨[.int 12], _, _, rfl, .refused (.first _) (.divisionByZero rfl)⟩⟩

end Primitive

end MacroLisp
