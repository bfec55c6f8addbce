/-
  Handles of binding tables.

  A copy of a handle reaches the same table, and an extension reaches a table
  of its own, which starts with what the table of its origin holds at that
  moment.  The reference keeps a finite map for each table that is made: what
  it was made with, and apart from that what has been bound in it since.

  * `Tables`: what can be done with tables through handles, and sessions of it;
  * `Tables.ofWorld`, `Tables.reference`: the tables of a world, and finite maps;
  * `Represents`: a world and the finite maps that stand for its tables;
  * `Tables.answers_eq_reference`: the main statement.
-/
import MacroLisp.World
import Mathlib.Data.List.Dedup
import Mathlib.Data.List.GetD

namespace MacroLisp

/-! ## Requests -/

/-- A request for tables.  Handles are numbered in the order in which they are
    made. -/
inductive TableRequest where
  | new
  | default
  | clone (h : Nat)
  | extend (h : Nat)
  | bind (h : Nat) (name : String) (v : Value)
  | lookup (h : Nat) (name : String)
  | contains (h : Nat) (name : String)
  | size (h : Nat)
  | isEmpty (h : Nat)

/-- The answer to a request; a new handle answers how many names it binds. -/
inductive TableReply where
  | count (n : Nat)
  | bound (v : Value)
  | found (v : Option Value)
  | truth (b : Bool)
  | noHandle

/-- What can be done with tables: in the states `σ` they are named by `ρ`. -/
structure Tables (σ ρ : Type) where
  new : σ → ρ × σ
  default : σ → ρ × σ
  extend : σ → ρ → ρ × σ
  bind : σ → ρ → String → Value → σ
  lookup : σ → ρ → String → Option Value
  contains : σ → ρ → String → Bool
  size : σ → ρ → Nat
  isEmpty : σ → ρ → Bool

/-- A state, and the tables that its handles reach. -/
structure Held (σ ρ : Type) where
  state : σ
  handles : List ρ

section
variable {σ ρ : Type}

/-- Does something with the table that the handle `h` reaches. -/
def Held.through (s : Held σ ρ) (h : Nat) (act : ρ → TableReply × Held σ ρ) :
    TableReply × Held σ ρ :=
  match s.handles[h]? with
  | some r => act r
  | none => (.noHandle, s)

namespace Tables

variable (T : Tables σ ρ)

/-- Makes a handle of a table. -/
def hold (s : Held σ ρ) (made : ρ × σ) : TableReply × Held σ ρ :=
  (.count (T.size made.2 made.1), ⟨made.2, s.handles ++ [made.1]⟩)

def answer (s : Held σ ρ) : TableRequest → TableReply × Held σ ρ
  | .new => T.hold s (T.new s.state)
  | .default => T.hold s (T.default s.state)
  | .clone h => s.through h fun r => T.hold s (r, s.state)
  | .extend h => s.through h fun r => T.hold s (T.extend s.state r)
  | .bind h name v => s.through h fun r => (.bound v, ⟨T.bind s.state r name v, s.handles⟩)
  | .lookup h name => s.through h fun r => (.found (T.lookup s.state r name), s)
  | .contains h name => s.through h fun r => (.truth (T.contains s.state r name), s)
  | .size h => s.through h fun r => (.count (T.size s.state r), s)
  | .isEmpty h => s.through h fun r => (.truth (T.isEmpty s.state r), s)

/-- The answers to requests in order, and what they lead to. -/
def session (s : Held σ ρ) : List TableRequest → List TableReply × Held σ ρ
  | [] => ([], s)
  | request :: requests =>
    ((T.answer s request).1 :: (session (T.answer s request).2 requests).1,
      (session (T.answer s request).2 requests).2)

end Tables

end

/-! ## Tables and finite maps -/

/-- A finite map: what it was made with, and what has been bound in it since,
    the latest first. -/
structure Snapshot where
  origin : List (String × Value)
  since : List (String × Value)

namespace Snapshot

def empty : Snapshot := ⟨[], []⟩

/-- The latest binding of the name, or else what the map was made with. -/
def lookup (s : Snapshot) (name : String) : Option Value :=
  (s.since.lookup name).or (s.origin.lookup name)

/-- All bindings, the latest first. -/
def bindings (s : Snapshot) : List (String × Value) :=
  s.since ++ s.origin

/-- The names that are bound, each once. -/
def names (s : Snapshot) : List String :=
  (s.bindings.map Prod.fst).dedup

def bind (s : Snapshot) (name : String) (v : Value) : Snapshot :=
  ⟨s.origin, (name, v) :: s.since⟩

/-- The bindings that every program starts with, the latest first. -/
def initial : List (String × Value) :=
  let constants : List (String × Value) :=
    [("nil", .nil), ("#t", .bool true), ("#f", .bool false)]
  let builtins := Builtin.all.map fun b => (b.name, Value.callable (.builtin b))
  (builtins ++ constants).reverse

end Snapshot

namespace Tables

/-- The tables of a world. -/
def ofWorld : Tables World Env where
  new w := w.addTable ∅
  default w := w.addTable .default
  extend := World.extend
  bind := World.bind
  lookup := World.lookup
  contains := World.contains
  size := World.size
  isEmpty := World.isEmpty

/-- Finite maps, in the order in which they are made. -/
def reference : Tables (List Snapshot) Nat where
  new maps := (maps.length, maps ++ [.empty])
  default maps := (maps.length, maps ++ [⟨Snapshot.initial, []⟩])
  extend maps k := (maps.length, maps ++ [⟨(maps.getD k .empty).bindings, []⟩])
  bind maps k name v := maps.modify k (·.bind name v)
  lookup maps k name := (maps.getD k .empty).lookup name
  contains maps k name := ((maps.getD k .empty).lookup name).isSome
  size maps k := (maps.getD k .empty).names.length
  isEmpty maps k := (maps.getD k .empty).names.isEmpty

end Tables

/-- Building a table is binding names one after the other. -/
theorem Table.ofList_eq_bindAll (bs : List (String × Value)) :
    (Std.TreeMap.ofList bs : Table) = Table.bindAll ∅ bs := by
  rw [Std.TreeMap.ofList_eq_insertMany_empty]
  generalize (∅ : Table) = t
  induction bs generalizing t with
  | nil => exact Std.TreeMap.insertMany_nil
  | cons b bs ih => rw [Std.TreeMap.insertMany_cons, ih, bindAll_cons]

theorem Snapshot.lookup_eq_lookup_bindings (s : Snapshot) (name : String) :
    s.lookup name = s.bindings.lookup name := by
  rw [lookup, bindings, List.lookup_append]

theorem Snapshot.mem_names_iff {s : Snapshot} {name : String} :
    name ∈ s.names ↔ (s.lookup name).isSome = true := by
  rw [names, List.mem_dedup, lookup_eq_lookup_bindings, List.lookup_isSome_iff, List.mem_map]
  simp only [beq_iff_eq, @eq_comm _ name]

/-- The table holds what the finite map does. -/
def Table.Holds (t : Table) (s : Snapshot) : Prop :=
  ∀ name, t[name]? = s.lookup name

namespace Table.Holds

variable {t : Table} {s : Snapshot}

theorem empty : Table.Holds ∅ .empty := fun _ => Std.TreeMap.getElem?_emptyc

theorem default : Table.Holds .default ⟨Snapshot.initial, []⟩ := by
  intro name
  rw [Table.default, ofList_eq_bindAll, getElem?_bindAll, Std.TreeMap.getElem?_emptyc,
    Option.or_none]
  rfl

theorem insert (h : Holds t s) (name : String) (v : Value) :
    Table.Holds (t.insert name v) (s.bind name v) := by
  intro other
  by_cases hn : name = other
  · subst hn
    simp [Snapshot.lookup, Snapshot.bind]
  · have hc : ¬ compare name other = .eq := by simpa using hn
    have hb : (other == name) = false := by simpa using Ne.symm hn
    rw [Std.TreeMap.getElem?_insert, if_neg hc, h other, Snapshot.lookup, Snapshot.lookup,
      Snapshot.bind, List.lookup_cons, hb]

/-- A snapshot of a finite map is one of the table. -/
theorem snapshot (h : Holds t s) : t.Holds ⟨s.bindings, []⟩ := by
  intro name
  rw [h name, Snapshot.lookup_eq_lookup_bindings]
  rfl

theorem contains_eq (h : Holds t s) (name : String) : t.contains name = (s.lookup name).isSome := by
  rw [← h name]
  exact Std.TreeMap.contains_eq_isSome_getElem?

theorem mem_keys_iff (h : Holds t s) {name : String} : name ∈ t.keys ↔ name ∈ s.names := by
  rw [Std.TreeMap.mem_keys, Std.TreeMap.mem_iff_isSome_getElem?, h name, Snapshot.mem_names_iff]

/-- **A table binds as many names as there are in the finite map.** -/
theorem size_eq (h : Holds t s) : t.size = s.names.length := by
  have hsame := List.perm_ext_iff_of_nodup t.nodup_keys (List.nodup_dedup (s.bindings.map Prod.fst))
  have hperm : t.keys.Perm s.names := hsame.2 fun _ => h.mem_keys_iff
  rw [← Std.TreeMap.length_keys, hperm.length_eq]

theorem isEmpty_eq (h : Holds t s) : t.isEmpty = s.names.isEmpty := by
  rw [Std.TreeMap.isEmpty_eq_size_eq_zero, h.size_eq]
  cases s.names <;> rfl

end Table.Holds

/-! ## Worlds and finite maps -/

/-- The tables of the world from the number `base` on are the finite maps, and
    the handles reach the tables of these. -/
structure Represents (base : Nat) (w : Held World Env) (s : Held (List Snapshot) Nat) : Prop where
  size_tables : w.state.tables.size = base + s.state.length
  handles : w.handles = s.handles.map fun k => ⟨base + k⟩
  lt_length : ∀ k ∈ s.handles, k < s.state.length
  holds : ∀ k < s.state.length,
    (w.state.table ⟨base + k⟩).Holds (s.state.getD k .empty)

/-- The same answer, and states that still represent one another. -/
def Agree (base : Nat) (l : TableReply × Held World Env)
    (r : TableReply × Held (List Snapshot) Nat) : Prop :=
  l.1 = r.1 ∧ Represents base l.2 r.2

namespace Represents

variable {base : Nat} {w : Held World Env} {s : Held (List Snapshot) Nat}

theorem start (w : World) : Represents w.tables.size ⟨w, []⟩ ⟨[], []⟩ where
  size_tables := rfl
  handles := rfl
  lt_length _ h := nomatch h
  holds _ h := nomatch h

theorem world_holds (hr : Represents base w s) {k : Nat} (hk : k < s.state.length) :
    w.state.Holds ⟨base + k⟩ := by
  have hsize := hr.size_tables
  simp only [World.Holds]
  omega

/-- What is done through a handle is done with a table and its finite map. -/
theorem through (hr : Represents base w s) (h : Nat) {act : Env → TableReply × Held World Env}
    {act' : Nat → TableReply × Held (List Snapshot) Nat}
    (hact : ∀ k < s.state.length, Agree base (act ⟨base + k⟩) (act' k)) :
    Agree base (w.through h act) (s.through h act') := by
  unfold Held.through
  rw [hr.handles, List.getElem?_map]
  rcases hk : s.handles[h]? with _ | k
  · exact ⟨rfl, hr⟩
  · exact hact k (hr.lt_length k (List.mem_of_getElem? hk))

/-- A handle of a table there is. -/
theorem hold (hr : Represents base w s) {k : Nat} (hk : k < s.state.length) :
    Agree base (Tables.ofWorld.hold w (⟨base + k⟩, w.state))
      (Tables.reference.hold s (k, s.state)) := by
  refine ⟨congrArg _ (hr.holds k hk).size_eq, hr.size_tables, ?_, ?_, hr.holds⟩
  · simp [Tables.hold, hr.handles]
  · intro k' hk'
    rcases List.mem_append.1 hk' with hk' | hk'
    · exact hr.lt_length k' hk'
    · obtain rfl := List.mem_singleton.1 hk'
      exact hk

theorem env_addTable (hr : Represents base w s) (t : Table) :
    (w.state.addTable t).1 = ⟨base + s.state.length⟩ :=
  congrArg Env.mk hr.size_tables

/-- A table and a finite map that are added. -/
theorem add (hr : Represents base w s) {t : Table} {m : Snapshot} (ht : t.Holds m) :
    Represents base ⟨(w.state.addTable t).2, w.handles⟩ ⟨s.state ++ [m], s.handles⟩ where
  size_tables := by simp [World.addTable, hr.size_tables, Nat.add_assoc]
  handles := hr.handles
  lt_length k hk := by simpa using Nat.lt_succ_of_lt (hr.lt_length k hk)
  holds k hk := by
    rcases Nat.lt_succ_iff_lt_or_eq.1 (List.length_append ▸ hk) with hk | rfl
    · rw [World.table_addTable_of_holds t (hr.world_holds hk), List.getD_append _ _ _ _ hk]
      exact hr.holds k hk
    · rw [← hr.env_addTable, World.table_addTable, List.getD_append_right _ _ _ _ (Nat.le_refl _),
        Nat.sub_self]
      exact ht

/-- A new table. -/
theorem make (hr : Represents base w s) {t : Table} {m : Snapshot} (ht : t.Holds m) :
    Agree base (Tables.ofWorld.hold w (w.state.addTable t))
      (Tables.reference.hold s (s.state.length, s.state ++ [m])) := by
  have hadd := (hr.add ht).hold (k := s.state.length) (by simp)
  rwa [← hr.env_addTable t] at hadd

theorem bind (hr : Represents base w s) {k : Nat} (hk : k < s.state.length) (name : String)
    (v : Value) :
    Represents base ⟨w.state.bind ⟨base + k⟩ name v, w.handles⟩
      ⟨s.state.modify k (·.bind name v), s.handles⟩ where
  size_tables := by simp [World.bind, hr.size_tables]
  handles := hr.handles
  lt_length k' hk' := by simpa using hr.lt_length k' hk'
  holds k' hk' := by
    rw [List.length_modify] at hk'
    by_cases hkk : k' = k
    · subst hkk
      have hget : (s.state.modify k' (·.bind name v)).getD k' .empty =
          (s.state.getD k' .empty).bind name v := by
        simp [hk]
      rw [World.table_bind_self name v (hr.world_holds hk), hget]
      exact (hr.holds k' hk).insert name v
    · have hget : (s.state.modify k (·.bind name v)).getD k' .empty =
          s.state.getD k' .empty := by
        simp [List.getD_eq_getElem?_getD, Ne.symm hkk]
      rw [World.table_bind_of_ne name v (by simpa using hkk), hget]
      exact hr.holds k' hk'

/-- **One request is answered alike**, and leads to states that represent one
    another. -/
theorem answer (hr : Represents base w s) (request : TableRequest) :
    Agree base (Tables.ofWorld.answer w request) (Tables.reference.answer s request) := by
  cases request with
  | new => exact hr.make .empty
  | default => exact hr.make .default
  | clone h => exact hr.through h fun k hk => hr.hold hk
  | extend h => exact hr.through h fun k hk => hr.make (hr.holds k hk).snapshot
  | bind h name v => exact hr.through h fun k hk => ⟨rfl, hr.bind hk name v⟩
  | lookup h name => exact hr.through h fun k hk => ⟨congrArg _ (hr.holds k hk name), hr⟩
  | contains h name =>
    exact hr.through h fun k hk => ⟨congrArg _ ((hr.holds k hk).contains_eq name), hr⟩
  | size h => exact hr.through h fun k hk => ⟨congrArg _ (hr.holds k hk).size_eq, hr⟩
  | isEmpty h => exact hr.through h fun k hk => ⟨congrArg _ (hr.holds k hk).isEmpty_eq, hr⟩

/-- **So are all requests in order.** -/
theorem session (hr : Represents base w s) (requests : List TableRequest) :
    (Tables.ofWorld.session w requests).1 = (Tables.reference.session s requests).1 ∧
      Represents base (Tables.ofWorld.session w requests).2
        (Tables.reference.session s requests).2 := by
  induction requests generalizing w s with
  | nil => exact ⟨rfl, hr⟩
  | cons request requests ih =>
    obtain ⟨hreply, hr'⟩ := hr.answer request
    obtain ⟨hreplies, hend⟩ := ih hr'
    refine ⟨?_, hend⟩
    rw [Tables.session, Tables.session, hreply, hreplies]

/-- A binding is seen through the handles of the same finite map, and through no
    others. -/
theorem lookup_bind (hr : Represents base w s) {h h' : Nat} {env env' : Env}
    (henv : w.handles[h]? = some env) (henv' : w.handles[h']? = some env') (name other : String)
    (v : Value) :
    (w.state.bind env name v).lookup env' other =
      if s.handles[h]? = s.handles[h']? ∧ other = name then some v
      else w.state.lookup env' other := by
  rw [hr.handles, List.getElem?_map, Option.map_eq_some_iff] at henv henv'
  obtain ⟨k, hk, rfl⟩ := henv
  obtain ⟨k', hk', rfl⟩ := henv'
  rw [hk, hk']
  simp only [Option.some.injEq]
  by_cases hkk : k' = k
  · subst hkk
    by_cases hname : other = name
    · subst hname
      rw [if_pos ⟨rfl, rfl⟩]
      exact World.lookup_bind_self _ v (hr.world_holds (hr.lt_length _ (List.mem_of_getElem? hk)))
    · rw [if_neg fun hs => hname hs.2, World.lookup_bind_of_ne v hname]
  · rw [if_neg fun hs => hkk hs.1.symm, World.lookup,
      World.table_bind_of_ne name v (by simpa using hkk), World.lookup]

end Represents

namespace Tables

/-- **Handles are independent snapshots with aliases.**
    Whatever tables a world has, all requests through handles that are made on the
    way are answered as by the reference.  It keeps one finite map for each table
    that is made anew or by an extension, which starts with what the map of its
    origin holds at that moment; a name has the value that was bound to it last
    through any handle of the same map, or else the one that the map was made with;
    and the size is the number of distinct names.  At any time, what is bound
    through one handle is seen through those of the same map, and changes nothing
    that is seen through others. -/
theorem answers_eq_reference (w : World) (requests : List TableRequest) :
    let real := ofWorld.session ⟨w, []⟩ requests
    let ideal := reference.session ⟨[], []⟩ requests
    real.1 = ideal.1 ∧
      ∀ (h h' : Nat) (env env' : Env), real.2.handles[h]? = some env →
        real.2.handles[h']? = some env' → ∀ (name other : String) (v : Value),
          (real.2.state.bind env name v).lookup env' other =
            if ideal.2.handles[h]? = ideal.2.handles[h']? ∧ other = name then some v
            else real.2.state.lookup env' other := by
  obtain ⟨hreplies, hr⟩ := (Represents.start w).session requests
  exact ⟨hreplies, fun _ _ _ _ henv henv' name other v => hr.lookup_bind henv henv' name other v⟩

/-- An extension does not see what is bound to the name later, and neither does
    the origin see what is bound through a copy of the extension. -/
theorem answers_eq_reference_extension :
    let requests : List TableRequest := [.new, .clone 0, .bind 1 "x" (.bool true), .extend 0,
      .clone 2, .bind 0 "x" (.bool false), .lookup 3 "x", .bind 3 "y" .nil, .size 2, .size 1]
    let s := ofWorld.session ⟨.empty, []⟩ requests
    s.1 = [.count 0, .count 0, .bound (.bool true), .count 1, .count 1, .bound (.bool false),
        .found (some (.bool true)), .bound .nil, .count 2, .count 1] ∧
      s.2.handles = [⟨0⟩, ⟨0⟩, ⟨1⟩, ⟨1⟩] ∧
      (s.2.state.bind ⟨1⟩ "x" .nil).lookup ⟨1⟩ "x" = some .nil ∧
      (s.2.state.bind ⟨1⟩ "x" .nil).lookup ⟨0⟩ "x" = s.2.state.lookup ⟨0⟩ "x" := by
  intro requests s
  have hreal := answers_eq_reference .empty requests
  refine ⟨hreal.1.trans rfl, rfl, ?_, ?_⟩
  · exact hreal.2 3 2 ⟨1⟩ ⟨1⟩ rfl rfl "x" "x" .nil
  · exact hreal.2 3 1 ⟨1⟩ ⟨0⟩ rfl rfl "x" "x" .nil

end Tables

end MacroLisp
