/-
  Code and data are the same trees.

  A tree is canonical if the only constants in it are truth values, callables
  and host objects, which have no other form in code.  These are the trees that
  come back as they are when they are taken as data and read as code again, and
  no run meets any other: not in what it evaluates, not in the bodies of
  closures, and not in what macros return.

  * `Expr.canonical_iff`: the trees that come back unchanged;
  * `canonicity`: evaluations of canonical trees, as a discipline;
  * `Evaluator.screened`: an evaluator that looks at every tree it is given;
  * `Session.code_is_data`: the main statement.
-/
import MacroLisp.Proofs.Eval.Calls
import MacroLisp.Proofs.Eval.Discipline
import MacroLisp.Proofs.Reader.Printable

namespace MacroLisp

/-! ## Canonical trees -/

/-- The values that code can hold as constants only. -/
def Value.isOpaque : Value → Bool
  | bool _ | callable _ | host _ => true
  | number _ | string _ | list _ | symbol _ => false

namespace Expr

/-- Constants stand only for values that have no other form in code. -/
def Canonical (e : Expr) : Prop :=
  ∀ v, (const v).Occurs e → v.isOpaque = true

theorem canonical_list {items : List Expr} :
    (list items).Canonical ↔ ∀ e ∈ items, e.Canonical := by
  constructor
  · intro h e he v hv
    exact h v (.item he hv)
  · rintro h v (_ | ⟨he, hv⟩)
    exact h _ he v hv

theorem canonical_const {v : Value} : (const v).Canonical ↔ v.isOpaque = true := by
  constructor
  · intro h
    exact h v .self
  · rintro h _ ⟨⟩
    exact h

theorem canonical_ofValue (v : Value) : (ofValue v).Canonical := by
  induction v using Value.induction with
  | list items ih =>
    rw [ofValue, ofValues_eq_map, canonical_list]
    intro e he
    obtain ⟨v, hv, rfl⟩ := List.mem_map.1 he
    exact ih v hv
  | bool _ | callable _ | host _ => exact canonical_const.2 rfl
  | _ => rintro _ ⟨⟩

theorem ofValue_ofExpr {e : Expr} (h : e.Canonical) : ofValue (Value.ofExpr e) = e := by
  induction e using Expr.induction with
  | list items ih =>
    rw [Value.ofExpr, ofValue, ofValues_eq_map, Value.ofExprs_eq_map, List.map_map]
    congr 1
    refine (List.map_congr_left fun e he => ?_).trans (List.map_id items)
    exact ih e he (canonical_list.1 h e he)
  | const v =>
    have hv := canonical_const.1 h
    cases v with
    | bool _ | callable _ | host _ => rfl
    | _ => cases hv
  | _ => rfl

/-- **The canonical trees are those that data gives back**: taken as a value and
    read as code, they are what they were. -/
theorem canonical_iff {e : Expr} : e.Canonical ↔ ofValue (Value.ofExpr e) = e := by
  constructor
  · exact ofValue_ofExpr
  · intro h
    rw [← h]
    exact canonical_ofValue _

mutual

/-- `Canonical`, computed. -/
def isCanonical : Expr → Bool
  | const v => v.isOpaque
  | list items => areCanonical items
  | _ => true

/-- All trees are canonical. -/
def areCanonical : List Expr → Bool
  | [] => true
  | e :: es => isCanonical e && areCanonical es

end

theorem areCanonical_eq_all (es : List Expr) : areCanonical es = es.all isCanonical := by
  induction es with
  | nil => rfl
  | cons e es ih => rw [areCanonical, ih, List.all_cons]

theorem isCanonical_iff {e : Expr} : e.isCanonical = true ↔ e.Canonical := by
  induction e using Expr.induction with
  | list items ih =>
    rw [isCanonical, areCanonical_eq_all, List.all_eq_true, canonical_list]
    exact forall₂_congr ih
  | const v => exact canonical_const.symm
  | _ => exact iff_of_true rfl (by rintro _ ⟨⟩)

instance : DecidablePred Canonical := fun _ => decidable_of_iff _ isCanonical_iff

end Expr

/-- What is read is canonical, for it holds no constants at all. -/
theorem canonical_of_read {source : String} {fs : List Expr} (h : read source = .ok fs) {e : Expr}
    (he : e ∈ fs) : e.Canonical :=
  fun v hv => absurd hv (not_occurs_const_of_read h he v)

/-! ## Evaluations of canonical trees -/

/-- The bodies of all closures are canonical. -/
def World.Canonical (w : World) : Prop :=
  ∀ c ∈ w.closures, c.body.Canonical

namespace World

variable {w : World}

theorem canonical_addClosure (hw : w.Canonical) (name : String) {c : Closure}
    (hc : c.body.Canonical) : (w.addClosure name c).2.Canonical := by
  intro c' hc'
  rcases Array.mem_push.1 hc' with hc' | rfl
  · exact hw c' hc'
  · exact hc

theorem canonical_body (hw : w.Canonical) (ref : ClosureRef) : (w.closure ref).body.Canonical := by
  unfold closure
  rw [Array.getD_eq_getD_getElem?]
  cases hc : w.closures[ref.id]? with
  | some c => exact hw c (Array.mem_of_getElem? hc)
  | none => exact Expr.canonical_list.2 nofun

end World

/-- **Canonical trees make canonical trees**, whatever is bound to the names in
    them. -/
def canonicity : Discipline where
  code _ := Expr.Canonical
  scope _ := True
  world := World.Canonical
  error _ := True
  closures := True
  item h he := Expr.canonical_list.1 h _ he
  mono _ h := h
  data _ _ _ := .inl trivial
  lookup _ _ _ _ _ := .inl trivial
  bind _ _ hw _ _ := hw
  print _ hw := hw
  ordinary _ := trivial
  exhausted _ _ := trivial
  close name _ _ hw hb := World.canonical_addClosure hw name hb
  body _ ref _ hw := World.canonical_body hw ref
  frame _ _ _ hw _ := ⟨hw, trivial⟩
  expansion _ _ _ := Expr.canonical_ofValue _

namespace Evaluator

/-- The evaluator that looks at every tree before it evaluates it, and leaves
    those that are not canonical to `alarm`. -/
def screened (h : Host) (alarm : Evaluator) : Nat → Evaluator
  | 0, e, env => if e.Canonical then EvalM.exhausted else alarm e env
  | room + 1, e, env =>
    if e.Canonical then EvalM.nested ((screened h alarm room).step h e env) else alarm e env

theorem follows_screened (h : Host) (alarm : Evaluator) :
    canonicity.Follows h (screened h alarm) where
  zero he := if_pos he
  succ he := if_pos he

end Evaluator

/-! ## Sessions -/

/-- The trees that a call is made with. -/
def Call.trees : Call → List Expr
  | eval e _ => [e]
  | evaluate es _ | arguments es _ | apply _ es _ | expand _ es => es

/-- The trees that a call answers with. -/
def Outcome.trees (o : Outcome EvalError Answer) : List Expr :=
  match o.result with
  | .ok (.code e) => [e]
  | _ => []

/-- In some session with a host, `w` is the world and the trees `code` are at
    hand.  There is no code at first but what is read. -/
inductive Session (h : Host) : World → List Expr → Prop where
  | start : Session h .empty []
  /-- Anything can be bound and printed, in the scopes that there are and in new ones. -/
  | rebind {w w' : World} {code : List Expr} (hs : Session h w code)
      (hc : w'.closures = w.closures) : Session h w' code
  | read {w : World} {code fs : List Expr} (hs : Session h w code) {source : String}
      (hr : MacroLisp.read source = .ok fs) : Session h w (fs ++ code)
  | item {w : World} {code items : List Expr} (hs : Session h w code) (hi : .list items ∈ code) :
      Session h w (items ++ code)
  /-- A value is read as code. -/
  | data {w : World} {code : List Expr} (hs : Session h w code) (v : Value) :
      Session h w (.ofValue v :: code)
  | body {w : World} {code : List Expr} (hs : Session h w code) (ref : ClosureRef) :
      Session h w ((w.closure ref).body :: code)
  /-- A call of an interpreter, with code that is at hand. -/
  | call {w : World} {code : List Expr} (hs : Session h w code) (i : Interpreter) {c : Call}
      (hc : c.trees ⊆ code) :
      Session h (i.answer h w c).world ((i.answer h w c).trees ++ code)

theorem canonicity_mayCall {c : Call} {n : Nat} (hc : ∀ e ∈ c.trees, e.Canonical) :
    canonicity.MayCall n c := by
  cases c with
  | eval e env => exact ⟨hc e (by simp [Call.trees]), trivial⟩
  | evaluate es env | arguments es env => exact ⟨hc, trivial⟩
  | apply c args env => exact ⟨Value.within_callable_iff.2 (.inl trivial), hc, trivial⟩
  | expand ref args => exact ⟨trivial, hc⟩

namespace Session

variable {h : Host} {w : World} {code : List Expr}

/-- All that a session has at hand is canonical. -/
theorem canonical (hs : Session h w code) : (∀ e ∈ code, e.Canonical) ∧ w.Canonical := by
  induction hs with
  | start => exact ⟨nofun, nofun⟩
  | rebind _ hc ih => exact ⟨ih.1, fun c hm => ih.2 c (hc ▸ hm)⟩
  | read _ hr ih => exact ⟨List.forall_mem_append.2 ⟨fun _ => canonical_of_read hr, ih.1⟩, ih.2⟩
  | item _ hi ih =>
    exact ⟨List.forall_mem_append.2 ⟨Expr.canonical_list.1 (ih.1 _ hi), ih.1⟩, ih.2⟩
  | data _ v ih => exact ⟨List.forall_mem_cons.2 ⟨Expr.canonical_ofValue v, ih.1⟩, ih.2⟩
  | body _ ref ih => exact ⟨List.forall_mem_cons.2 ⟨World.canonical_body ih.2 ref, ih.1⟩, ih.2⟩
  | @call w code _ i c hc ih =>
    have hlands := canonicity.lands_answer i ih.2
      (canonicity_mayCall (n := i.room) fun e he => ih.1 e (hc he)) h
    refine ⟨List.forall_mem_append.2 ⟨fun e he => ?_, ih.1⟩, hlands.world⟩
    unfold Outcome.trees at he
    split at he
    · rename_i e' hr
      obtain rfl := List.mem_singleton.1 he
      exact hlands.value hr 0
    · cases he

end Session

/-! ## Macros that answer with an argument -/

/-- If no name is bound twice, each has the value that it is bound to. -/
theorem Table.getElem?_bindAll_of_mem (t : Table) {bs : List (String × Value)}
    (hd : (bs.map Prod.fst).Nodup) {name : String} {v : Value} (hm : (name, v) ∈ bs) :
    (t.bindAll bs)[name]? = some v := by
  obtain ⟨before, after, rfl⟩ := List.append_of_mem hm
  have hfresh : after.reverse.lookup name = none := by
    rw [List.lookup_eq_none_iff]
    intro b hb
    have hne : name ≠ b.1 := by
      rintro rfl
      simp [List.nodup_append, List.mem_map_of_mem (List.mem_reverse.1 hb)] at hd
    simpa using hne
  simp [Table.getElem?_bindAll, List.lookup_append, hfresh]

/-- A macro whose body is one of its parameters answers with the argument for
    that, taken as data and read as code. -/
theorem runOn_expand_parameter (h : Host) (n : Nat) {m : Machine} {ref : ClosureRef}
    {args : List Expr} {name : String} {e : Expr}
    (hd : (m.world.closure ref).params.Nodup)
    (hl : args.length = (m.world.closure ref).params.length)
    (hb : (m.world.closure ref).body = .symbol name)
    (he : (name, e) ∈ (m.world.closure ref).params.zip args) :
    (((eval h (n + 1)).expand ref args).runOn m).1 = .ok (.ofValue (.ofExpr e)) := by
  generalize hc : m.world.closure ref = c at *
  have hmem : (name, Value.ofExpr e) ∈ c.params.zip (Value.ofExprs args) := by
    rw [Value.ofExprs_eq_map, List.zip_map_right]
    exact List.mem_map.2 ⟨_, he, rfl⟩
  have hkeys : (c.params.zip (Value.ofExprs args)).map Prod.fst = c.params :=
    List.map_fst_zip (by rw [Value.ofExprs_eq_map, List.length_map, hl])
  have hlookup : (m.world.frame c (Value.ofExprs args)).2.lookup
      (m.world.frame c (Value.ofExprs args)).1 name = some (Value.ofExpr e) := by
    rw [World.lookup, World.table_frame]
    exact Table.getElem?_bindAll_of_mem _ (by rwa [hkeys]) hmem
  have hbody := runOn_eval_symbol h n
    (m := ⟨(m.world.frame c (Value.ofExprs args)).2, m.depth⟩) hlookup
  simp [Evaluator.expand, EvalM.runOn_bind, Arity.check, hc, hl, hb, hbody, -bind_pure_comp]

namespace Session

variable {h : Host} {w : World} {code : List Expr}

/-- **Code and data are the same trees.**
    All code that a session has at hand, what its macros returned included, and
    all bodies of its closures are canonical, which means that they are still
    the same after they have been data.  No call evaluates any other tree: it
    makes no difference if the trees that are not canonical are left to
    something else.  And a macro whose body is one of its parameters, all
    different, gives back the argument for that parameter as it is. -/
theorem code_is_data (hs : Session h w code) :
    (∀ e ∈ code, e.Canonical) ∧ (∀ c ∈ w.closures, c.body.Canonical) ∧
      (∀ e : Expr, e.Canonical ↔ Expr.ofValue (Value.ofExpr e) = e) ∧
      (∀ (i : Interpreter) (c : Call), c.trees ⊆ code → ∀ alarm : Evaluator,
        i.perform w (c.act h (Evaluator.screened h alarm i.room)) = i.answer h w c) ∧
      ∀ (i : Interpreter) (ref : ClosureRef) (args : List Expr) (name : String) (e : Expr),
        0 < i.room → (w.closure ref).params.Nodup →
        args.length = (w.closure ref).params.length → (w.closure ref).body = .symbol name →
        (name, e) ∈ (w.closure ref).params.zip args → e.Canonical →
        (i.expand h w ref args).result = .ok e := by
  obtain ⟨hcode, hw⟩ := hs.canonical
  refine ⟨hcode, hw, fun _ => Expr.canonical_iff, fun i c hc alarm => ?_,
    fun i ref args name e hroom hd hl hb he hcan => ?_⟩
  · have hmay : canonicity.MayCall i.room c := canonicity_mayCall fun e he => hcode e (hc he)
    exact canonicity.perform_eq_answer i hw hmay (Evaluator.follows_screened h alarm)
  · obtain ⟨n, hn⟩ := Nat.exists_eq_succ_of_ne_zero hroom.ne'
    have hexpand := runOn_expand_parameter h n (m := ⟨w, i.depth⟩) hd hl hb he
    rw [Interpreter.expand, Interpreter.result_perform, hn, Nat.succ_eq_add_one, hexpand,
      Expr.ofValue_ofExpr hcan]

/-- A macro that gives back what it is given, and a nested argument for it. -/
theorem code_is_data_same :
    let forms : List Expr :=
      [.list [.symbol "defmacro", .symbol "same", .list [.symbol "x"], .symbol "x"]]
    let arg : Expr := .list [.symbol "f", .list [.number (.int 1), .const (.bool true)]]
    let alarm : Evaluator := fun _ _ => throw (.unboundSymbol "alarm")
    let w : World := ⟨#[.default], #[], ""⟩
    let o := (Interpreter.idle 2).answer .none w (.evaluate forms ⟨0⟩)
    Session .none w forms ∧ Session .none o.world (arg :: forms) ∧
      (Interpreter.idle 2).perform w
        ((Call.evaluate forms ⟨0⟩).act .none (Evaluator.screened .none alarm 2)) = o ∧
      ((Interpreter.idle 2).expand .none o.world ⟨0, "same"⟩ [arg]).result = .ok arg := by
  intro forms arg alarm w o
  have hread : MacroLisp.read "(defmacro same (x) x)" = .ok forms := by cbv
  have hstart : Session .none w [] := Session.start.rebind rfl
  have hw : Session .none w forms := hstart.read hread
  have ho : Session .none o.world (arg :: forms) :=
    (hw.call (.idle 2) (c := .evaluate forms ⟨0⟩) (List.Subset.refl _)).data (.ofExpr arg)
  have hc : o.world.closure ⟨0, "same"⟩ = ⟨["x"], .symbol "x", ⟨0⟩⟩ := rfl
  exact ⟨hw, ho, hw.code_is_data.2.2.2.1 _ _ (List.Subset.refl _) alarm,
    ho.code_is_data.2.2.2.2 _ _ _ "x" arg (by decide) (by rw [hc]; decide) rfl rfl (.head _)
      (by decide)⟩

end Session

end MacroLisp
