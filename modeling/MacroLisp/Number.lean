/-
  Numbers: 64-bit integers and doubles.

  Integers stay integers as long as the exact result is one and fits
  (`int64?`); no operation wraps.  What involves a double is a double,
  and so is an inexact quotient of integers.  Two integers are compared
  exactly, any other pair as doubles.
-/
import MacroLisp.Decimal.Layout

namespace MacroLisp

inductive Number where
  | int (i : Int64)
  | float (x : Float)

/-! ## Exact integers -/

/-- The 64-bit integer that equals `i`, if there is one. -/
def int64? (i : Int) : Option Int64 :=
  if Int64.minValue.toInt ≤ i ∧ i ≤ Int64.maxValue.toInt then some (.ofInt i) else none

/-- **A 64-bit integer is the given one exactly**, and there is one iff it
    fits. -/
theorem int64?_eq_some_iff {i : Int} {n : Int64} : int64? i = some n ↔ n.toInt = i := by
  unfold int64?
  split
  · rename_i h
    constructor
    · rintro ⟨rfl⟩
      exact Int64.toInt_ofInt_of_le h.1 (Int.lt_of_le_of_lt h.2 (by decide))
    · rintro rfl
      simp
  · rename_i h
    simp only [reduceCtorEq, false_iff]
    rintro rfl
    exact h ⟨n.minValue_le_toInt, n.toInt_le⟩

theorem int64?_toInt (n : Int64) : int64? n.toInt = some n :=
  int64?_eq_some_iff.2 rfl

/-! ## Arithmetic -/

/-- The four operations. -/
inductive Operator where
  | add
  | subtract
  | multiply
  | divide
deriving DecidableEq, Repr

namespace Operator

/-- How the operation is written. -/
def symbol : Operator → String
  | add => "+"
  | subtract => "-"
  | multiply => "*"
  | divide => "/"

/-- The operation on integers; for a division this is the quotient rounded
    towards zero. -/
def onInt : Operator → Int → Int → Int
  | add, l, r => l + r
  | subtract, l, r => l - r
  | multiply, l, r => l * r
  | divide, l, r => l.tdiv r

/-- The operation on doubles. -/
def onFloat : Operator → Float → Float → Float
  | add, l, r => l + r
  | subtract, l, r => l - r
  | multiply, l, r => l * r
  | divide, l, r => l / r

end Operator

/-- Why an operation on integers has no result. -/
inductive ArithmeticError where
  | overflow (op : Operator) (l r : Int64)
  | divisionByZero
deriving DecidableEq

def ArithmeticError.message : ArithmeticError → String
  | overflow op l r =>
    "integer overflow in (" ++ op.symbol ++ " " ++ toString l.toInt ++ " " ++ toString r.toInt ++ ")"
  | divisionByZero => "division by zero"

namespace Number

/-- The number as a double, the nearest one if it is an integer. -/
def toFloat : Number → Float
  | int i => .ofInt i.toInt
  | float x => x

/-- The integer result `exact` of `op`, or the refusal to wrap it. -/
def ofExact (op : Operator) (l r : Int64) (exact : Int) : Except ArithmeticError Number :=
  match int64? exact with
  | some i => .ok (int i)
  | none => .error (.overflow op l r)

/-- The quotient of two integers: an integer if there is no remainder, else a
    double. -/
def quotient (l r : Int64) : Except ArithmeticError Number :=
  if r.toInt = 0 then .error .divisionByZero
  else if l.toInt.tmod r.toInt = 0 then ofExact .divide l r (l.toInt.tdiv r.toInt)
  else .ok (float (Float.ofInt l.toInt / Float.ofInt r.toInt))

/-- The result of an operation on two numbers. -/
def apply (op : Operator) : Number → Number → Except ArithmeticError Number
  | int l, int r =>
    match op with
    | .divide => quotient l r
    | op => ofExact op l r (op.onInt l.toInt r.toInt)
  | l, r => .ok (float (op.onFloat l.toFloat r.toFloat))

def isZero (n : Number) : Bool :=
  n.toFloat == 0.0

/-! ## Comparison -/

/-- Equality of numbers: exact on integers, of the doubles otherwise. -/
protected def beq : Number → Number → Bool
  | int l, int r => l == r
  | l, r => l.toFloat == r.toFloat

instance : BEq Number := ⟨Number.beq⟩

/-- The order of two numbers; none if one of them is not a number. -/
def compare? : Number → Number → Option Ordering
  | int l, int r => some (compare l.toInt r.toInt)
  | l, r =>
    if l.toFloat < r.toFloat then some .lt
    else if l.toFloat == r.toFloat then some .eq
    else if r.toFloat < l.toFloat then some .gt
    else none

def isLess (l r : Number) : Bool := l.compare? r == some .lt

def isGreater (l r : Number) : Bool := l.compare? r == some .gt

def isAtMost (l r : Number) : Bool := l.isLess r || l.compare? r == some .eq

def isAtLeast (l r : Number) : Bool := l.isGreater r || l.compare? r == some .eq

/-! ## Text -/

/-- Doubles from 0.0001 up to 10^16 are written positionally, with at least
    one digit after the point. -/
def layout : Layout where
  leastPositional := -4
  greatestPositional := 15
  wholeSuffix := ".0"
  exponentMark := "e"
  notANumber := "NaN"
  infinite := "inf"

def text : Number → String
  | int i => toString i.toInt
  | float x => layout.text x

/-! ## Literals -/

/-- The number that `digits`, read in base ten, denote. -/
def natOfDigits (digits : List Char) : Nat :=
  digits.foldl (fun n c => 10 * n + (c.toNat - '0'.toNat)) 0

/-- The number of a natural number: an integer if it fits, else the nearest
    double. -/
def ofNat (n : Nat) : Number :=
  match int64? n with
  | some i => int i
  | none => float (.ofNat n)

/-- The number that a literal denotes; `none` if it is no row of digits. -/
def ofLiteral? (text : String) : Option Number :=
  if text.toList ≠ [] ∧ text.toList.all Char.isDigit then some (ofNat (natOfDigits text.toList))
  else none

end Number

end MacroLisp
