/-
  Runtime values.

  Lists hold values.  Closures and host objects are known by their identity;
  what a closure consists of is kept in the world it was made in (`World`),
  what a host object can do in the host (`Host`).

  * `isTruthy`, `typeName` and `text` are what programs see of a value;
  * `==` compares numbers as numbers do, lists item by item, and callables
    and host objects by identity.
-/
import MacroLisp.Builtin

namespace MacroLisp

/-- A closure, known by its number, under the name it was defined with. -/
structure ClosureRef where
  id : Nat
  name : String
deriving DecidableEq, Repr

/-- A host object, known by its number, with the name of its type. -/
structure ObjectRef where
  id : Nat
  typeName : String
deriving DecidableEq, Repr

/-- What can stand at the head of a call: a function, a macro (an expander of
    syntax), or a built-in operation. -/
inductive Callable where
  | function (closure : ClosureRef)
  | expander (closure : ClosureRef)
  | builtin (b : Builtin)
deriving DecidableEq, Repr

namespace Callable

def name : Callable → String
  | function c | expander c => c.name
  | builtin b => b.name

def typeName : Callable → String
  | function _ => "function"
  | expander _ => "macro"
  | builtin _ => "builtin"

def text (c : Callable) : String :=
  "<" ++ c.typeName ++ " " ++ c.name ++ ">"

end Callable

inductive Value where
  | number (n : Number)
  | string (s : String)
  | bool (b : Bool)
  | list (items : List Value)
  | symbol (name : String)
  | callable (c : Callable)
  | host (object : ObjectRef)

namespace Value

instance : Inhabited Value := ⟨list []⟩

/-- The empty list. -/
def nil : Value := list []

def int (i : Int64) : Value := number (.int i)

def isNil : Value → Bool
  | list items => items.isEmpty
  | _ => false

/-- `#f`, the empty list and zero are false, all else is true. -/
def isTruthy : Value → Bool
  | bool b => b
  | list items => !items.isEmpty
  | number n => !n.isZero
  | _ => true

def typeName : Value → String
  | number _ => "number"
  | string _ => "string"
  | bool _ => "boolean"
  | list _ => "list"
  | symbol _ => "symbol"
  | callable c => c.typeName
  | host _ => "host"

/-! ## Equality -/

mutual

protected def beq : Value → Value → Bool
  | number l, number r => l == r
  | string l, string r => l == r
  | bool l, bool r => l == r
  | list l, list r => Value.beqList l r
  | symbol l, symbol r => l == r
  | callable l, callable r => l == r
  | host l, host r => l == r
  | _, _ => false

/-- Equality item by item. -/
protected def beqList : List Value → List Value → Bool
  | [], [] => true
  | l :: ls, r :: rs => Value.beq l r && Value.beqList ls rs
  | _, _ => false

end

instance : BEq Value := ⟨Value.beq⟩

/-! ## Text -/

/-- The text of a list whose items have the given texts. -/
def listText (items : List String) : String :=
  "(" ++ " ".intercalate items ++ ")"

mutual

/-- The text of a value; strings are written without quotes. -/
def text : Value → String
  | number n => n.text
  | string s => s
  | bool true => "#t"
  | bool false => "#f"
  | list items => listText (texts items)
  | symbol name => name
  | callable c => c.text
  | host object => "<host " ++ object.typeName ++ ">"

/-- The text of each item. -/
def texts : List Value → List String
  | [] => []
  | item :: items => text item :: texts items

end

theorem texts_eq_map (items : List Value) : texts items = items.map text := by
  induction items with
  | nil => rfl
  | cons v vs ih => rw [texts, ih, List.map_cons]

theorem text_list (items : List Value) : text (list items) = listText (items.map text) := by
  rw [text, texts_eq_map]

end Value

end MacroLisp
