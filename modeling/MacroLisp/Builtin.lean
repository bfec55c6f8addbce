/-
  The built-in operations: their names and the arguments they take.

  A form receives its arguments as they are written and evaluates what it
  needs; a primitive receives them evaluated.  What the operations do is in
  `Eval/Form` and `Eval/Primitive`.
-/
import MacroLisp.Arity
import MacroLisp.Number

namespace MacroLisp

/-- The operations on unevaluated arguments. -/
inductive Form where
  | define
  | lambda
  | defineFunction
  | defineMacro
  | conditional
  | quote
  | backquote
  | unquote
  | sequence
deriving DecidableEq, Repr

namespace Form

def name : Form → String
  | define => "define"
  | lambda => "lambda"
  | defineFunction => "fn"
  | defineMacro => "defmacro"
  | conditional => "if"
  | quote => "quote"
  | backquote => "backquote"
  | unquote => "unquote"
  | sequence => "do"

def arity : Form → Arity
  | define | lambda => .exactly 2
  | defineFunction | defineMacro | conditional => .exactly 3
  | quote | backquote | unquote => .between 0 1
  | sequence => .atLeast 0

end Form

/-- The comparisons of two numbers. -/
inductive Comparison where
  | equal
  | less
  | greater
deriving DecidableEq, Repr

namespace Comparison

/-- How the comparison is written. -/
def symbol : Comparison → String
  | equal => "="
  | less => "<"
  | greater => ">"

def holds : Comparison → Number → Number → Bool
  | equal, l, r => l == r
  | less, l, r => l.isLess r
  | greater, l, r => l.isGreater r

end Comparison

/-- The operations on evaluated arguments. -/
inductive Primitive where
  | arithmetic (op : Operator)
  | comparison (rel : Comparison)
  | isSame
  | list
  | cons
  | first
  | rest
  | isEmpty
  | length
  | typeOf
  | print
  | access
  | invoke
deriving DecidableEq, Repr

namespace Primitive

def name : Primitive → String
  | arithmetic op => op.symbol
  | comparison rel => rel.symbol
  | isSame => "eq?"
  | list => "list"
  | cons => "cons"
  | first => "first"
  | rest => "rest"
  | isEmpty => "empty?"
  | length => "len"
  | typeOf => "type"
  | print => "print"
  | access => "."
  | invoke => "!"

def arity : Primitive → Arity
  | arithmetic _ | invoke => .atLeast 1
  | comparison _ | isSame | cons | access => .exactly 2
  | first | rest | isEmpty | length | typeOf => .exactly 1
  | list | print => .atLeast 0

end Primitive

/-- A built-in operation. -/
inductive Builtin where
  | form (f : Form)
  | primitive (p : Primitive)
deriving DecidableEq, Repr

namespace Builtin

def name : Builtin → String
  | form f => f.name
  | primitive p => p.name

def arity : Builtin → Arity
  | form f => f.arity
  | primitive p => p.arity

/-- All built-in operations. -/
def all : List Builtin :=
  [form .define, form .lambda, form .defineFunction, form .defineMacro, form .conditional,
    form .quote, form .backquote, form .unquote, form .sequence,
    primitive (.arithmetic .add), primitive (.arithmetic .subtract),
    primitive (.arithmetic .multiply), primitive (.arithmetic .divide),
    primitive (.comparison .equal), primitive (.comparison .less),
    primitive (.comparison .greater), primitive .isSame,
    primitive .list, primitive .cons, primitive .first, primitive .rest, primitive .isEmpty,
    primitive .length, primitive .typeOf, primitive .print, primitive .access,
    primitive .invoke]

theorem mem_all (b : Builtin) : b ∈ all := by
  rcases b with f | p
  · cases f <;> decide
  · rcases p with op | rel | _ | _ | _ | _ | _ | _ | _ | _ | _ | _ | _
    · cases op <;> decide
    · cases rel <;> decide
    all_goals decide

/-- No two built-in operations share a name. -/
theorem nodup_names : (all.map name).Nodup := by decide

end Builtin

end MacroLisp
