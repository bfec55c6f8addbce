/-
  The operations on evaluated arguments.

  A primitive has a result that depends on its arguments and the host alone
  (`Primitive.result`); besides, `print` writes a line (`Primitive.line`).
  Arguments are checked from left to right, each before it is used.
-/
import MacroLisp.Eval.Machine
import MacroLisp.Host.Basic

namespace MacroLisp

namespace Primitive

/-! ## Numbers -/

/-- The result of `op` on the result so far and the next argument. -/
def arithmeticStep (op : Operator) (acc : Number) (v : Value) : Except EvalError Number := do
  let n ← v.asNumber op.symbol
  match acc.apply op n with
  | .ok r => return r
  | .error e => throw (.arithmetic e)

/-- `op` between the arguments, from left to right. -/
def arithmeticResult (op : Operator) (first : Value) (others : List Value) :
    Except EvalError Number := do
  others.foldlM (arithmeticStep op) (← first.asNumber op.symbol)

def comparisonResult (rel : Comparison) (l r : Value) : Except EvalError Bool := do
  let l ← l.asNumber rel.symbol
  let r ← r.asNumber rel.symbol
  return rel.holds l r

/-! ## Host objects -/

/-- The name of a field, given as a string or a symbol. -/
def fieldName : Value → Except EvalError String
  | .string s | .symbol s => .ok s
  | v => .error (.type (.fieldName v))

/-- The host object that `v` is, for the operation `p`. -/
def asObject (p : Primitive) : Value → Except EvalError ObjectRef
  | .host ref => .ok ref
  | v => .error (.type (.expectedObject p.name v))

/-- The answer of the host, on its way in. -/
def ofAnswer : Except String HostValue → Except EvalError Value
  | .ok v => .ok (.ofHost v)
  | .error reason => .error (.host reason)

/-- The arguments of an invocation, on their way out. -/
def toArguments (vs : List Value) : Except EvalError (List HostValue) :=
  match Value.toHosts vs with
  | .ok hs => .ok hs
  | .error c => .error (.type (.notPassable c))

/-! ## Lists and strings -/

/-- The number of characters of a string, or of items of a list. -/
def lengthOf : Value → Except EvalError Nat
  | .string s => .ok s.length
  | v => do return (← v.asList length.name).length

/-! ## All primitives -/

/-- The result of a primitive. -/
def result (h : Host) : Primitive → List Value → Except EvalError Value
  | arithmetic op, v :: vs => do return .number (← arithmeticResult op v vs)
  | comparison rel, [l, r] => do return .bool (← comparisonResult rel l r)
  | isSame, [l, r] => return .bool (l == r)
  | list, vs => return .list vs
  | cons, [v, l] => do return .list (v :: (← l.asList cons.name))
  | first, [l] => do
    match ← l.asList first.name with
    | v :: _ => return v
    | [] => throw (.type .emptyFirst)
  | rest, [l] => do return .list ((← l.asList rest.name).drop 1)
  | isEmpty, [l] => do return .bool (← l.asList isEmpty.name).isEmpty
  | length, [v] => do return .int (.ofNat (← lengthOf v))
  | typeOf, [v] => return .symbol v.typeName
  | print, _ => return .nil
  | access, [object, field] => do
    let field ← fieldName field
    let ref ← asObject access object
    ofAnswer ((h.object ref).access field)
  | invoke, object :: args => do
    let ref ← asObject invoke object
    let args ← toArguments args
    ofAnswer ((h.object ref).invoke args)
  | p, _ => throw (.defect (.primitive p))

/-- What a primitive prints. -/
def line : Primitive → List Value → String
  | print, vs => " ".intercalate (vs.map Value.text) ++ "\n"
  | _, _ => ""

/-- Calls a primitive. -/
def call (h : Host) (p : Primitive) (vs : List Value) : EvalM Value := do
  EvalM.print (p.line vs)
  EvalM.ofExcept (p.result h vs)

theorem runOn_call (h : Host) (p : Primitive) (vs : List Value) (m : Machine) :
    (p.call h vs).runOn m = (p.result h vs, ⟨m.world.print (p.line vs), m.depth⟩) := by
  simp [call, EvalM.print, EvalM.runOn_bind]

end Primitive

end MacroLisp
