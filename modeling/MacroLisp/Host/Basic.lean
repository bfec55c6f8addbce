/-
  The bridge to objects of an embedding program.

  Programs can ask a host object for a named field, or invoke it on plain
  data; nothing else crosses the bridge.  What crosses is a `HostValue`:
  `Value.toHost` and `Value.ofHost` are the two directions.  Symbols become
  strings on the way out and the host's nil becomes the empty list on the way
  in, and callables do not cross.
-/
import MacroLisp.Value

namespace MacroLisp

/-- What the host sees of a value. -/
inductive HostValue where
  | nil
  | bool (b : Bool)
  | int (i : Int64)
  | float (x : Float)
  | string (s : String)
  | list (items : List HostValue)
  | object (object : ObjectRef)

namespace HostValue

instance : Inhabited HostValue := ⟨nil⟩

/-- The name of the kind of a value, as the host calls it. -/
def kind : HostValue → String
  | nil => "nil"
  | bool _ => "bool"
  | int _ => "int"
  | float _ => "float"
  | string _ => "str"
  | list _ => "list"
  | object _ => "object"

mutual

/-- Equality on the host's side: an integer differs from every double. -/
protected def beq : HostValue → HostValue → Bool
  | nil, nil => true
  | bool l, bool r => l == r
  | int l, int r => l == r
  | float l, float r => l == r
  | string l, string r => l == r
  | list l, list r => HostValue.beqList l r
  | object l, object r => l == r
  | _, _ => false

/-- Equality item by item. -/
protected def beqList : List HostValue → List HostValue → Bool
  | [], [] => true
  | l :: ls, r :: rs => HostValue.beq l r && HostValue.beqList ls rs
  | _, _ => false

end

instance : BEq HostValue := ⟨HostValue.beq⟩

end HostValue

/-! ## Crossing the bridge -/

namespace Value

mutual

/-- A value on its way out, or the first callable in it, which cannot pass. -/
def toHost : Value → Except Callable HostValue
  | number (.int i) => .ok (.int i)
  | number (.float x) => .ok (.float x)
  | string s => .ok (.string s)
  | bool b => .ok (.bool b)
  | symbol name => .ok (.string name)
  | list items => (toHosts items).map .list
  | host object => .ok (.object object)
  | callable c => .error c

/-- The items on their way out, from left to right. -/
def toHosts : List Value → Except Callable (List HostValue)
  | [] => .ok []
  | item :: items => do
    let h ← toHost item
    let hs ← toHosts items
    return h :: hs

end

mutual

/-- A value on its way in. -/
def ofHost : HostValue → Value
  | .nil => nil
  | .bool b => bool b
  | .int i => number (.int i)
  | .float x => number (.float x)
  | .string s => string s
  | .list items => list (ofHosts items)
  | .object object => host object

/-- The items on their way in. -/
def ofHosts : List HostValue → List Value
  | [] => []
  | item :: items => ofHost item :: ofHosts items

end

theorem ofHosts_eq_map (items : List HostValue) : ofHosts items = items.map ofHost := by
  induction items with
  | nil => rfl
  | cons h hs ih => rw [ofHosts, ih, List.map_cons]

end Value

/-! ## Objects -/

/-- What a host object can do.  A field or a call that it refuses has a reason
    in the host's words. -/
structure HostObject where
  typeName : String
  access : String → Except String HostValue
  invoke : List HostValue → Except String HostValue
  /-- How the object presents itself in diagnostics, if it does. -/
  label : Option String

namespace HostObject

/-- The refusal of an object that does not have the field. -/
def noField (typeName field : String) : Except String HostValue :=
  .error (typeName ++ " has no attribute '" ++ field ++ "'")

/-- The refusal of an object that cannot be invoked. -/
def notInvocable (typeName : String) : Except String HostValue :=
  .error (typeName ++ " is not invocable")

/-- An object with neither fields nor an action. -/
def bare (typeName : String) (label : Option String) : HostObject where
  typeName
  access := noField typeName
  invoke _ := notInvocable typeName
  label

/-- An object that is a table of fields. -/
def record (typeName : String) (fields : List (String × HostValue)) : HostObject :=
  { bare typeName none with
    access := fun field => match fields.lookup field with
      | some v => .ok v
      | none => noField typeName field }

/-- An object that is an action. -/
def function (name : String) (run : List HostValue → Except String HostValue) : HostObject :=
  { bare name (some ("HostFn(" ++ name ++ ")")) with invoke := run }

end HostObject

/-- The objects of an embedding program, in the order of their numbers. -/
structure Host where
  objects : List HostObject

namespace Host

/-- An embedding program without objects. -/
def none : Host := ⟨[]⟩

/-- The object of a reference; one that was never handed out can do nothing. -/
def object (h : Host) (ref : ObjectRef) : HostObject :=
  h.objects.getD ref.id (.bare ref.typeName .none)

/-- The reference to the object with number `id`. -/
def ref (h : Host) (id : Nat) : ObjectRef :=
  ⟨id, ((h.objects[id]?).map (·.typeName)).getD ""⟩

end Host

end MacroLisp
