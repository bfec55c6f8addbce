/-
  The world that programs run in: binding tables, closures, and the text
  printed so far.

  A table is reached through a handle (`Env`).  Copies of a handle share its
  table, which is how a closure and its defining scope see each other's
  definitions, while `extend` copies the table itself, so that neither side
  sees what the other binds from then on.

  * `bind` changes one name in one table: `lookup_bind_self`,
    `lookup_bind_of_ne` and `table_bind_of_ne`;
  * `extend` and `frame` add a table and change none: `table_addTable_of_lt`;
  * a frame holds the bindings of the defining scope under the arguments:
    `table_frame`.
-/
import MacroLisp.Expr
import Std.Data.TreeMap

namespace MacroLisp

/-- The bindings of a scope. -/
abbrev Table := Std.TreeMap String Value

/-- The handle of a table. -/
structure Env where
  id : Nat
deriving DecidableEq, Repr

/-- The parts of a user-defined function or macro. -/
structure Closure where
  params : List String
  body : Expr
  env : Env

instance : Inhabited Closure := ⟨⟨[], .list [], ⟨0⟩⟩⟩

structure World where
  tables : Array Table
  closures : Array Closure
  output : String

namespace Table

/-- The bindings that every program starts with: the built-in operations, the
    empty list, and the two truth values. -/
def default : Table :=
  let constants : List (String × Value) :=
    [("nil", .nil), ("#t", .bool true), ("#f", .bool false)]
  let builtins := Builtin.all.map fun b => (b.name, Value.callable (.builtin b))
  Std.TreeMap.ofList (builtins ++ constants)

/-- Binds names to values, one pair after the other. -/
def bindAll (t : Table) (bindings : List (String × Value)) : Table :=
  bindings.foldl (fun t b => t.insert b.1 b.2) t

theorem bindAll_nil (t : Table) : t.bindAll [] = t := rfl

theorem bindAll_cons (t : Table) (name : String) (v : Value) (bs : List (String × Value)) :
    t.bindAll ((name, v) :: bs) = Table.bindAll (t.insert name v) bs := rfl

/-- **Of several bindings of a name the last counts**, and a name that none of
    them binds keeps its value. -/
theorem getElem?_bindAll (t : Table) (bs : List (String × Value)) (name : String) :
    (t.bindAll bs)[name]? = (bs.reverse.lookup name).or t[name]? := by
  induction bs generalizing t with
  | nil => simp [bindAll_nil]
  | cons b bs ih =>
    obtain ⟨other, v⟩ := b
    rw [bindAll_cons, ih, Std.TreeMap.getElem?_insert, List.reverse_cons, List.lookup_append]
    by_cases h : other = name
    · subst h; cases bs.reverse.lookup other <;> simp
    · have hc : ¬ compare other name = .eq := by simpa using h
      have hb : (name == other) = false := by simpa using Ne.symm h
      cases bs.reverse.lookup name <;> simp [hc, hb, List.lookup_cons]

end Table

namespace World

/-- The world before anything is made. -/
def empty : World := ⟨#[], #[], ""⟩

/-! ## Tables -/

/-- The bindings that `env` reaches. -/
def table (w : World) (env : Env) : Table :=
  w.tables.getD env.id ∅

/-- Does `env` reach a table of this world? -/
def Holds (w : World) (env : Env) : Prop :=
  env.id < w.tables.size

/-- A new table, and its handle. -/
def addTable : World → Table → Env × World
  | ⟨tables, closures, output⟩, t => (⟨tables.size⟩, ⟨tables.push t, closures, output⟩)

def lookup (w : World) (env : Env) (name : String) : Option Value :=
  (w.table env)[name]?

def contains (w : World) (env : Env) (name : String) : Bool :=
  (w.table env).contains name

/-- How many names `env` binds. -/
def size (w : World) (env : Env) : Nat :=
  (w.table env).size

def isEmpty (w : World) (env : Env) : Bool :=
  (w.table env).isEmpty

/-- A scope by the number of its bindings.  Closures in it lead back to it, so
    the bindings themselves are not shown. -/
def summary (w : World) (env : Env) : String :=
  "Environment(" ++ toString (w.size env) ++ " bindings)"

def bind : World → Env → String → Value → World
  | ⟨tables, closures, output⟩, env, name, v =>
    ⟨tables.modify env.id (·.insert name v), closures, output⟩

/-- A copy of the bindings of `env` in a table of its own. -/
def extend (w : World) (env : Env) : Env × World :=
  w.addTable (w.table env)

@[simp] theorem holds_addTable (w : World) (t : Table) : (w.addTable t).2.Holds (w.addTable t).1 := by
  simp [Holds, addTable]

/-- A new table holds what it was made of. -/
@[simp] theorem table_addTable (w : World) (t : Table) : (w.addTable t).2.table (w.addTable t).1 = t := by
  simp [table, addTable]

/-- A new table leaves the others alone. -/
theorem table_addTable_of_holds {w : World} {env : Env} (t : Table) (h : w.Holds env) :
    (w.addTable t).2.table env = w.table env := by
  simp only [Holds] at h
  simp [table, addTable, Array.getElem?_push, Nat.ne_of_lt h]

theorem table_bind_self {w : World} {env : Env} (name : String) (v : Value) (h : w.Holds env) :
    (w.bind env name v).table env = (w.table env).insert name v := by
  simp only [Holds] at h
  simp [table, bind, Array.getElem_modify, h]

theorem table_bind_of_ne {w : World} {env other : Env} (name : String) (v : Value)
    (h : other ≠ env) : (w.bind env name v).table other = w.table other := by
  have hid : env.id ≠ other.id := fun he => h (by cases env; cases other; simp_all)
  simp [table, bind, Array.getElem?_modify, hid]

theorem lookup_bind_self {w : World} {env : Env} (name : String) (v : Value) (h : w.Holds env) :
    (w.bind env name v).lookup env name = some v := by
  simp [lookup, table_bind_self name v h]

theorem lookup_bind_of_ne {w : World} {env : Env} {name other : String} (v : Value)
    (h : other ≠ name) : (w.bind env name v).lookup env other = w.lookup env other := by
  by_cases hw : w.Holds env
  · have hc : ¬ compare name other = .eq := by simpa using Ne.symm h
    simp [lookup, table_bind_self name v hw, Std.TreeMap.getElem?_insert, hc]
  · simp only [Holds, Nat.not_lt] at hw
    simp [lookup, table, bind, hw]

/-! ## Closures -/

/-- A new closure under a name. -/
def addClosure : World → String → Closure → ClosureRef × World
  | ⟨tables, closures, output⟩, name, c =>
    (⟨closures.size, name⟩, ⟨tables, closures.push c, output⟩)

/-- The parts of a closure. -/
def closure (w : World) (ref : ClosureRef) : Closure :=
  w.closures.getD ref.id default

/-- A scope for the body of a closure: a copy of its defining scope with the
    parameters bound to the arguments, as far as there are both. -/
def frame (w : World) (c : Closure) (args : List Value) : Env × World :=
  w.addTable ((w.table c.env).bindAll (c.params.zip args))

/-- **A frame lays the arguments over the defining scope.** -/
theorem table_frame (w : World) (c : Closure) (args : List Value) :
    (w.frame c args).2.table (w.frame c args).1 = (w.table c.env).bindAll (c.params.zip args) :=
  table_addTable _ _

/-- A callable with the parameters and the body of its closure. -/
def describe (w : World) (c : Callable) : String :=
  match c with
  | .builtin _ => c.text
  | .function ref | .expander ref =>
    let closure := w.closure ref
    c.text ++ " (" ++ " ".intercalate closure.params ++ ") " ++ closure.body.text

/-! ## Output -/

/-- Appends to what has been printed. -/
def print : World → String → World
  | ⟨tables, closures, output⟩, s => ⟨tables, closures, output ++ s⟩

/-- What has been printed, and the world with nothing printed. -/
def takeOutput : World → String × World
  | ⟨tables, closures, output⟩ => (output, ⟨tables, closures, ""⟩)

end World

end MacroLisp
