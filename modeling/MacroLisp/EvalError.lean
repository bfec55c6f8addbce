/-
  Why an evaluation fails, and the words for it.
-/
import MacroLisp.Expr

namespace MacroLisp

/-- A value of the wrong type. -/
inductive TypeError where
  /-- The operation `op` takes numbers only. -/
  | expectedNumber (op : String) (got : Value)
  /-- The operation `op` takes a list. -/
  | expectedList (op : String) (got : Value)
  /-- The first item of a list without items is asked for. -/
  | emptyFirst
  /-- A field is named by neither a string nor a symbol. -/
  | fieldName (got : Value)
  /-- The operation `op` takes a host object. -/
  | expectedObject (op : String) (got : Value)
  /-- A callable cannot cross to the host. -/
  | notPassable (c : Callable)

/-- A form whose unevaluated arguments are not of its shape. -/
inductive MalformedForm where
  | expectedSymbol (found : Expr)
  | expectedParameters (found : Expr)

inductive EvalError where
  | unboundSymbol (name : String)
  | notCallable (v : Value)
  | arity (name : String) (expected : Arity) (got : Nat)
  | type (e : TypeError)
  | malformed (form : Form) (e : MalformedForm)
  | stackExhausted (depth : Nat)
  | arithmetic (e : ArithmeticError)
  /-- The host refuses, with its reason. -/
  | host (reason : String)
  /-- A built-in operation is entered with a number of arguments that its arity
      does not admit.  Calls check the arity first, so no evaluation reports
      this. -/
  | defect (b : Builtin)

/-- A value in a message: its type and its text. -/
def Value.described (v : Value) : String :=
  v.typeName ++ " " ++ v.text

def TypeError.message : TypeError → String
  | expectedNumber op got => "'" ++ op ++ "' expects numbers, got " ++ got.described
  | expectedList op got => "'" ++ op ++ "' expects a list, got " ++ got.described
  | emptyFirst => "'first' of an empty list"
  | fieldName got => "'.' field must be a string or symbol, got " ++ got.typeName
  | expectedObject op got => "'" ++ op ++ "' expects a host object, got " ++ got.described
  | notPassable c => c.text ++ " can't be passed to the host"

def MalformedForm.message : MalformedForm → String
  | expectedSymbol found => "expected a symbol, found " ++ found.text
  | expectedParameters found => "expected a parameter list, found " ++ found.text

def EvalError.message : EvalError → String
  | unboundSymbol name => "unbound symbol '" ++ name ++ "'"
  | notCallable v => v.text ++ " is not callable"
  | arity name expected got =>
    name ++ " expects " ++ expected.text ++ " argument(s), got " ++ toString got
  | type e => "type error: " ++ e.message
  | malformed form e => "malformed " ++ form.name ++ ": " ++ e.message
  | stackExhausted depth => "stack exhausted at evaluation depth " ++ toString depth
  | arithmetic e => "arithmetic error: " ++ e.message
  | host reason => "host error: " ++ reason
  | defect b => b.name ++ " was entered past its arity"

/-! ## Checks -/

/-- The number that `v` is, for the operation `op`. -/
def Value.asNumber (op : String) : Value → Except EvalError Number
  | number n => .ok n
  | v => .error (.type (.expectedNumber op v))

/-- The items of the list that `v` is, for the operation `op`. -/
def Value.asList (op : String) : Value → Except EvalError (List Value)
  | list items => .ok items
  | v => .error (.type (.expectedList op v))

/-- The number of arguments is one that the callable `name` admits. -/
def Arity.check (a : Arity) (name : String) (got : Nat) : Except EvalError Unit :=
  if a.accepts got then .ok () else .error (.arity name a got)

end MacroLisp
