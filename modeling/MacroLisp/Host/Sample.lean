/-
  A small embedding program: a record with a field of every kind, functions
  that show what crosses the bridge, and an object that can do nothing.
-/
import MacroLisp.Host.Basic
import MacroLisp.World

namespace MacroLisp

namespace SampleHost

/-- The sum of integers, each added to the sum of those before it. -/
def sum (args : List HostValue) : Except String HostValue :=
  let add (total : Int64) : HostValue → Except String Int64
    | .int i =>
      match int64? (total.toInt + i.toInt) with
      | some total => .ok total
      | none => .error "add overflowed"
    | v => .error ("can't add " ++ v.kind)
  (args.foldlM add 0).map .int

/-- The arguments themselves. -/
def echo (args : List HostValue) : Except String HostValue :=
  .ok (.list args)

/-- The kinds of the arguments. -/
def kinds (args : List HostValue) : Except String HostValue :=
  .ok (.list (args.map fun v => .string v.kind))

/-- The first argument. -/
def identity : List HostValue → Except String HostValue
  | [] => .ok .nil
  | v :: _ => .ok v

/-- A refusal in the words of the first argument. -/
def refuse : List HostValue → Except String HostValue
  | .string reason :: _ => .error reason
  | _ => .error "failed"

def inner : HostObject := .record "inner" [("v", .int 7)]

/-- The record, whose fields `inner` and `add` are these objects. -/
def point (inner add : ObjectRef) : HostObject :=
  .record "point"
    [("x", .int 3), ("label", .string "origin"), ("ratio", .float 2.5), ("flag", .bool false),
      ("none", .nil), ("items", .list [.int 1, .string "two", .nil, .list [.bool true]]),
      ("two words", .int 2), ("inner", .object inner), ("add", .object add)]

/-- The objects that programs can name, with their names. -/
def named (inner add : ObjectRef) : List (String × HostObject) :=
  [("add", .function "add" sum), ("p", point inner add), ("echo", .function "echo" echo),
    ("kinds", .function "kinds" kinds), ("id", .function "id" identity),
    ("fail", .function "fail" refuse), ("bare", .bare "object" (some "Bare"))]

def innerRef : ObjectRef := ⟨0, "inner"⟩

def addRef : ObjectRef := ⟨1, "add"⟩

/-- The objects of the sample: the inner record, and those with names. -/
def host : Host := ⟨inner :: (named innerRef addRef).map (·.2)⟩

/-- The bindings of the sample, beside those that every program has. -/
def bindings : List (String × Value) :=
  ((named innerRef addRef).map (·.1)).zipIdx.map fun (name, i) => (name, .host (host.ref (i + 1)))

/-- The bindings that a program of the sample starts with. -/
def table : Table :=
  Table.default.bindAll bindings

/-- The references inside the record are those of the objects themselves. -/
theorem refs_eq : host.ref 0 = innerRef ∧ host.ref 1 = addRef := by decide

end SampleHost

end MacroLisp
