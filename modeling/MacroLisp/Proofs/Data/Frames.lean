/-
  Frames.

  The body of a closure runs in a table of its own.  It starts with what the
  defining scope binds at the moment of the call, and over that the arguments
  are bound to the parameters, position by position, as far as there are both.

  * `World.FrameBinds`: what a name stands for in a frame;
  * `Table.size_bindAll`: how many names a table binds after some bindings;
  * `World.table_bindEach`: what is bound through a handle is seen in its table;
  * `World.frame_overlays`: the main statement.
-/
import MacroLisp.World
import Mathlib.Data.Finset.Card
import Mathlib.Data.Finset.Dedup
import Mathlib.Data.Nat.Find

namespace MacroLisp

/-! ## Bindings one after the other -/

namespace Table

theorem getElem?_insert_of_ne (t : Table) {name other : String} (v : Value) (h : name ≠ other) :
    (t.insert name v)[other]? = t[other]? := by
  have hc : ¬ compare name other = .eq := by simpa using h
  rw [Std.TreeMap.getElem?_insert, if_neg hc]

theorem contains_insert_eq_false_iff {t : Table} {name other : String} {v : Value} :
    (t.insert name v).contains other = false ↔ name ≠ other ∧ t.contains other = false := by
  rw [Std.TreeMap.contains_insert]
  simp

/-- A name that none of the bindings binds keeps its value. -/
theorem getElem?_bindAll_of_ne {bs : List (String × Value)} {name : String}
    (h : ∀ b ∈ bs, b.1 ≠ name) (t : Table) : (t.bindAll bs)[name]? = t[name]? := by
  induction bs generalizing t with
  | nil => rfl
  | cons b bs ih =>
    obtain ⟨hb, hbs⟩ := List.forall_mem_cons.1 h
    rw [bindAll_cons, ih hbs, getElem?_insert_of_ne t _ hb]

/-- The last binding of a name counts. -/
theorem getElem?_bindAll_of_last {bs : List (String × Value)} {i : Nat} {name : String} {v : Value}
    (hi : bs[i]? = some (name, v)) (hlast : ∀ j b, i < j → bs[j]? = some b → b.1 ≠ name)
    (t : Table) : (t.bindAll bs)[name]? = some v := by
  induction bs generalizing t i with
  | nil => cases hi
  | cons b bs ih =>
    rw [bindAll_cons]
    cases i with
    | zero =>
      obtain rfl : b = (name, v) := Option.some.inj hi
      have hrest : ∀ b ∈ bs, b.1 ≠ name := fun b hb => by
        obtain ⟨j, hj⟩ := List.mem_iff_getElem?.1 hb
        exact hlast (j + 1) b (Nat.succ_pos j) hj
      rw [getElem?_bindAll_of_ne hrest, Std.TreeMap.getElem?_insert_self]
    | succ i => exact ih hi (fun j b hij hj => hlast (j + 1) b (Nat.succ_lt_succ hij) hj) _

/-- **A table gains a name for each new one among the bindings**, however often
    they bind it. -/
theorem size_bindAll (t : Table) (bs : List (String × Value)) :
    (t.bindAll bs).size =
      t.size + ((bs.map Prod.fst).toFinset.filter fun name => t.contains name = false).card := by
  induction bs generalizing t with
  | nil => rfl
  | cons b bs ih =>
    obtain ⟨name, v⟩ := b
    rw [bindAll_cons, ih, Std.TreeMap.size_insert, List.map_cons, List.toFinset_cons,
      Finset.filter_insert]
    simp only [contains_insert_eq_false_iff]
    generalize (bs.map Prod.fst).toFinset = names
    cases hname : t.contains name with
    | true =>
      -- the name is not new, whether or not it is bound again
      have hsame : (names.filter fun other => name ≠ other ∧ t.contains other = false) =
          names.filter fun other => t.contains other = false := by
        refine Finset.filter_congr fun other _ => and_iff_right_of_imp fun hother => ?_
        rintro rfl
        simp [hname] at hother
      simp [hsame]
    | false =>
      have hinsert : insert name (names.filter fun other => t.contains other = false) =
          insert name (names.filter fun other => name ≠ other ∧ t.contains other = false) := by
        ext other
        simp only [Finset.mem_insert, Finset.mem_filter]
        tauto
      have hnotMem : name ∉ names.filter fun other => name ≠ other ∧ t.contains other = false := by
        simp
      simp only [↓reduceIte, Bool.false_eq_true]
      rw [hinsert, Finset.card_insert_of_notMem hnotMem]
      omega

end Table

/-! ## Bindings through handles -/

/-- Of some bindings through handles, those through `env`. -/
def Env.bindingsIn (env : Env) (bs : List (Env × String × Value)) : List (String × Value) :=
  (bs.filter (·.1 = env)).map Prod.snd

namespace World

/-- Binds names through handles, one after the other. -/
def bindEach (w : World) (bs : List (Env × String × Value)) : World :=
  bs.foldl (fun w b => w.bind b.1 b.2.1 b.2.2) w

theorem bindEach_cons (w : World) (env : Env) (name : String) (v : Value)
    (bs : List (Env × String × Value)) :
    w.bindEach ((env, name, v) :: bs) = (w.bind env name v).bindEach bs := rfl

theorem holds_addTable_of_holds {w : World} {env : Env} (t : Table) (hw : w.Holds env) :
    (w.addTable t).2.Holds env := by
  simp only [Holds] at hw
  simpa [Holds, addTable] using Nat.lt_succ_of_lt hw

theorem holds_bind {w : World} {env : Env} (hw : w.Holds env) (other : Env) (name : String)
    (v : Value) : (w.bind other name v).Holds env := by
  simpa [Holds, bind] using hw

/-- **A table takes what is bound through its own handle**, and nothing else. -/
theorem table_bindEach {w : World} {env : Env} (hw : w.Holds env)
    (bs : List (Env × String × Value)) :
    (w.bindEach bs).table env = (w.table env).bindAll (env.bindingsIn bs) := by
  induction bs generalizing w with
  | nil => rfl
  | cons b bs ih =>
    obtain ⟨other, name, v⟩ := b
    rw [bindEach_cons, ih (holds_bind hw other name v)]
    by_cases ho : other = env
    · subst ho
      simp [table_bind_self name v hw, Env.bindingsIn, Table.bindAll_cons]
    · simp [table_bind_of_ne name v (Ne.symm ho), Env.bindingsIn, ho]

/-! ## Frames -/

/-- In a frame of the closure `c` for the arguments `args`, the name stands for
    the value. -/
inductive FrameBinds (w : World) (c : Closure) (args : List Value) (name : String) :
    Value → Prop where
  /-- The argument at the last position that has the parameter `name`. -/
  | argument {i : Nat} {v : Value} (hparam : c.params[i]? = some name) (harg : args[i]? = some v)
      (hlast : ∀ j, i < j → j < args.length → c.params[j]? ≠ some name) :
      FrameBinds w c args name v
  /-- No argument is at such a position, and the defining scope binds the name. -/
  | captured {v : Value} (hparam : ∀ i < args.length, c.params[i]? ≠ some name)
      (hv : w.lookup c.env name = some v) : FrameBinds w c args name v

variable {w : World} {c : Closure}

/-- A parameter that has an argument has one at a last position. -/
theorem exists_last_position {n : Nat} {name : String} (h : ∃ i < n, c.params[i]? = some name) :
    ∃ i < n, c.params[i]? = some name ∧ ∀ j, i < j → j < n → c.params[j]? ≠ some name := by
  obtain ⟨i, hi, hparam⟩ := h
  let P : Nat → Prop := fun i => i < n ∧ c.params[i]? = some name
  obtain ⟨hlt, hlast⟩ : P (Nat.findGreatest P n) :=
    Nat.findGreatest_spec (Nat.le_of_lt hi) ⟨hi, hparam⟩
  refine ⟨Nat.findGreatest P n, hlt, hlast, fun j hij hj hjparam => ?_⟩
  exact Nat.findGreatest_is_greatest hij (Nat.le_of_lt hj) ⟨hj, hjparam⟩

/-- The argument at the last position of a parameter is what it stands for. -/
theorem lookup_frame_of_last {args : List Value} {name : String} {i : Nat} {v : Value}
    (hparam : c.params[i]? = some name) (harg : args[i]? = some v)
    (hlast : ∀ j, i < j → j < args.length → c.params[j]? ≠ some name) :
    (w.frame c args).2.lookup (w.frame c args).1 name = some v := by
  have hi : (c.params.zip args)[i]? = some (name, v) := List.getElem?_zip_eq_some.2 ⟨hparam, harg⟩
  rw [lookup, table_frame]
  refine Table.getElem?_bindAll_of_last hi ?_ _
  rintro j ⟨other, u⟩ hij hj rfl
  obtain ⟨hp, ha⟩ := List.getElem?_zip_eq_some.1 hj
  exact hlast j hij (List.getElem?_eq_some_iff.1 ha).1 hp

/-- A name that is no parameter with an argument is seen through to the defining
    scope. -/
theorem lookup_frame_of_ne {args : List Value} {name : String}
    (hparam : ∀ i < args.length, c.params[i]? ≠ some name) :
    (w.frame c args).2.lookup (w.frame c args).1 name = w.lookup c.env name := by
  rw [lookup, table_frame]
  refine Table.getElem?_bindAll_of_ne ?_ _
  rintro ⟨other, u⟩ hb rfl
  obtain ⟨i, hi⟩ := List.mem_iff_getElem?.1 hb
  obtain ⟨hp, ha⟩ := List.getElem?_zip_eq_some.1 hi
  exact hparam i (List.getElem?_eq_some_iff.1 ha).1 hp

/-- **A name stands in a frame for what the relation says**, and for nothing
    else. -/
theorem lookup_frame_eq_some_iff {args : List Value} {name : String} {v : Value} :
    (w.frame c args).2.lookup (w.frame c args).1 name = some v ↔ w.FrameBinds c args name v := by
  constructor
  · intro h
    by_cases hparam : ∃ i < args.length, c.params[i]? = some name
    · obtain ⟨i, hi, hname, hlast⟩ := exists_last_position hparam
      have harg : args[i]? = some args[i] := List.getElem?_eq_getElem hi
      obtain rfl : args[i] = v :=
        Option.some.inj ((lookup_frame_of_last hname harg hlast).symm.trans h)
      exact .argument hname harg hlast
    · push Not at hparam
      exact .captured hparam ((lookup_frame_of_ne hparam).symm.trans h)
  · intro h
    cases h with
    | argument hparam harg hlast => exact lookup_frame_of_last hparam harg hlast
    | captured hparam hv => exact (lookup_frame_of_ne hparam).trans hv

theorem size_frame (w : World) (c : Closure) (args : List Value) :
    (w.frame c args).2.size (w.frame c args).1 = w.size c.env +
      ((c.params.take args.length).toFinset.filter fun name =>
        w.contains c.env name = false).card := by
  have hnames : (c.params.zip args).map Prod.fst = c.params.take args.length := by
    rw [List.zip_eq_zip_take_min, List.map_fst_zip (by simp), List.take_eq_take_iff]
    omega
  rw [size, table_frame, Table.size_bindAll, hnames]
  rfl

/-- **A frame lays the arguments over the defining scope.**
    The frame is a new table.  A name stands in it for the argument at the last
    position that has this parameter, and if there is none, for what the defining
    scope binds it to.  The frame binds one name more than the defining scope for
    each parameter that has an argument and is not bound there.  All tables that
    there were are as before, and so is everything else.  From then on the frame
    and the defining scope take what is bound through their own handles, and none
    of what is bound through any other. -/
theorem frame_overlays (hc : w.Holds c.env) (args : List Value) :
    let env := (w.frame c args).1
    let w' := (w.frame c args).2
    (∀ name v, w'.lookup env name = some v ↔ w.FrameBinds c args name v) ∧
    w'.size env = w.size c.env + ((c.params.take args.length).toFinset.filter fun name =>
      w.contains c.env name = false).card ∧
    (w'.Holds env ∧ ∀ other, w.Holds other →
      other ≠ env ∧ w'.Holds other ∧ w'.table other = w.table other) ∧
    (w'.closures = w.closures ∧ w'.output = w.output) ∧
    ∀ bs : List (Env × String × Value),
      (w'.bindEach bs).table env = (w'.table env).bindAll (env.bindingsIn bs) ∧
      (w'.bindEach bs).table c.env = (w.table c.env).bindAll (c.env.bindingsIn bs) := by
  intro env w'
  have hnew : w'.Holds env := holds_addTable w _
  have hold (other : Env) (ho : w.Holds other) :
      other ≠ env ∧ w'.Holds other ∧ w'.table other = w.table other := by
    refine ⟨?_, ?_, table_addTable_of_holds _ ho⟩
    · rintro rfl
      exact Nat.lt_irrefl _ ho
    · exact holds_addTable_of_holds _ ho
  refine ⟨fun _ _ => lookup_frame_eq_some_iff, size_frame w c args, ⟨hnew, hold⟩, ⟨rfl, rfl⟩,
    fun bs => ⟨table_bindEach hnew bs, ?_⟩⟩
  obtain ⟨-, hholds, htable⟩ := hold c.env hc
  rw [table_bindEach hholds, htable]

/-- A parameter that is there twice and is bound outside, one argument too few
    for the parameters, and a definition in the outer scope that comes too late. -/
theorem frame_overlays_shadowing :
    let w : World := ⟨#[.bindAll ∅ [("x", .bool true), ("z", .bool false)]], #[], ""⟩
    let c : Closure := ⟨["x", "y", "x", "u"], .symbol "x", ⟨0⟩⟩
    let args : List Value := [.string "first", .string "second", .string "third"]
    let w' := (w.frame c args).2
    w.Holds c.env ∧
      w'.lookup ⟨1⟩ "x" = some (.string "third") ∧
      w'.lookup ⟨1⟩ "z" = some (.bool false) ∧
      w'.size ⟨1⟩ = 3 ∧
      w'.table ⟨0⟩ = w.table ⟨0⟩ ∧
      (w'.bindEach [(⟨0⟩, "u", .nil)]).table ⟨1⟩ = w'.table ⟨1⟩ := by
  intro w c args w'
  have hc : w.Holds c.env := Nat.zero_lt_one
  have hframe := frame_overlays hc args
  have hlast : ∀ j, 2 < j → j < args.length → c.params[j]? ≠ some "x" := by
    intro j hj hlt
    simp only [args, List.length_cons, List.length_nil] at hlt
    omega
  have hnone : ∀ i < args.length, c.params[i]? ≠ some "z" := by
    intro i hi
    have hmem : ("z" : String) ∉ c.params := by decide
    exact fun hz => hmem (List.mem_of_getElem? hz)
  refine ⟨hc, ?_, ?_, ?_, ?_, ?_⟩
  · exact (hframe.1 "x" _).2 (.argument (i := 2) rfl rfl hlast)
  · exact (hframe.1 "z" _).2 (.captured hnone ((Table.getElem?_bindAll ∅ _ "z").trans rfl))
  · exact hframe.2.1.trans (by decide)
  · exact (hframe.2.2.1.2 ⟨0⟩ hc).2.2
  · exact (hframe.2.2.2.2 [(⟨0⟩, "u", .nil)]).1

end World

end MacroLisp
