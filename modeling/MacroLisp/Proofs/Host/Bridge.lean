/-
  What the bridge to the host keeps.

  On the way out a symbol becomes the string of its text, on the way in the
  host's nil becomes the empty list, and nothing else changes.  Only callables
  do not pass; of several, the leftmost is reported.

  * `Value.spelled`, `HostValue.withoutNil`: what is left of a value, on either
    side, when it comes back;
  * `Value.departs_toHost`, `Value.toHost_ofHost`: the two ways over the bridge;
  * `Value.crosses_bridge`: the main statement.
-/
import MacroLisp.Eval.Primitive
import MacroLisp.Proofs.Data.Parts

namespace MacroLisp

/-! ## What comes back -/

namespace Value

mutual

/-- The value with the string of its text for every symbol. -/
def spelled : Value → Value
  | symbol name => string name
  | list items => list (spelledItems items)
  | v => v

/-- The items with the string of its text for every symbol. -/
def spelledItems : List Value → List Value
  | [] => []
  | item :: items => spelled item :: spelledItems items

end

theorem spelledItems_eq_map (items : List Value) : spelledItems items = items.map spelled := by
  induction items with
  | nil => rfl
  | cons v vs ih => rw [spelledItems, ih, List.map_cons]

end Value

namespace HostValue

mutual

/-- What the host sees, with the empty list for every nil. -/
def withoutNil : HostValue → HostValue
  | nil => list []
  | list items => list (withoutNilItems items)
  | h => h

/-- The items with the empty list for every nil. -/
def withoutNilItems : List HostValue → List HostValue
  | [] => []
  | item :: items => withoutNil item :: withoutNilItems items

end

theorem withoutNilItems_eq_map (items : List HostValue) :
    withoutNilItems items = items.map withoutNil := by
  induction items with
  | nil => rfl
  | cons h hs ih => rw [withoutNilItems, ih, List.map_cons]

end HostValue

namespace Value

/-! ## Out of the language -/

/-- What becomes of a value on its way out.  The first callable in it is refused;
    or there is none, and the host gets something without nil that stands for the
    spelled value. -/
inductive Departs (v : Value) : Except Callable HostValue → Prop where
  | refused {c : Callable} (hc : v.callables.head? = some c) : Departs v (.error c)
  | sent {h : HostValue} (hnone : v.callables = []) (hin : ofHost h = v.spelled)
      (hnil : h.withoutNil = h) : Departs v (.ok h)

/-- The same for the items of a list. -/
inductive DepartAll (vs : List Value) : Except Callable (List HostValue) → Prop where
  | refused {c : Callable} (hc : (callablesIn vs).head? = some c) : DepartAll vs (.error c)
  | sent {hs : List HostValue} (hnone : callablesIn vs = []) (hin : ofHosts hs = spelledItems vs)
      (hnil : HostValue.withoutNilItems hs = hs) : DepartAll vs (.ok hs)

theorem departAll_toHosts {vs : List Value} (hvs : ∀ v ∈ vs, v.Departs v.toHost) :
    DepartAll vs (toHosts vs) := by
  induction vs with
  | nil => exact .sent rfl rfl rfl
  | cons v vs ih =>
    have hv := hvs v (by simp)
    have hrest := ih fun v' hv' => hvs v' (by simp [hv'])
    rw [toHosts]
    generalize v.toHost = r at hv
    generalize toHosts vs = rs at hrest
    cases hv with
    | refused hc =>
      -- the first item is refused, and the others are not looked at
      refine .refused ?_
      rw [callablesIn, List.head?_append, hc]
      rfl
    | sent hnone hin hnil =>
      cases hrest with
      | refused hc => exact .refused (by rwa [callablesIn, hnone, List.nil_append])
      | sent hnones hins hnils =>
        refine .sent ?_ ?_ ?_
        · rw [callablesIn, hnone, hnones, List.nil_append]
        · rw [ofHosts, spelledItems, hin, hins]
        · rw [HostValue.withoutNilItems, hnil, hnils]

/-- **Out of the language.** -/
theorem departs_toHost (v : Value) : v.Departs v.toHost := by
  induction v using induction with
  | number n => cases n <;> exact .sent rfl rfl rfl
  | list items ih =>
    have hall := departAll_toHosts ih
    rw [toHost]
    generalize toHosts items = r at hall
    cases hall with
    | refused hc => exact .refused hc
    | sent hnone hin hnil =>
      exact .sent hnone (congrArg list hin) (congrArg HostValue.list hnil)
  | callable c => exact .refused rfl
  | string | bool | symbol | host => exact .sent rfl rfl rfl

theorem map_ofHost_toHost (v : Value) :
    v.toHost.map ofHost =
      match v.callables.head? with
      | some c => .error c
      | none => .ok v.spelled := by
  have hv := v.departs_toHost
  generalize v.toHost = r at hv
  cases hv with
  | refused hc => rw [hc]; rfl
  | sent hnone hin _ => rw [hnone, ← hin]; rfl

/-- The arguments of an invocation go out like the items of a list. -/
theorem map_ofHosts_toArguments (vs : List Value) :
    (Primitive.toArguments vs).map ofHosts =
      match (list vs).callables.head? with
      | some c => .error (.type (.notPassable c))
      | none => .ok (vs.map spelled) := by
  have hvs := departAll_toHosts fun v (_ : v ∈ vs) => v.departs_toHost
  unfold Primitive.toArguments
  generalize toHosts vs = rs at hvs
  cases hvs with
  | refused hc => rw [callables, hc]; rfl
  | sent hnone hin _ => rw [callables, hnone, ← spelledItems_eq_map, ← hin]; rfl

/-- A value without callables passes, and one with a callable does not. -/
theorem isOk_toHost_iff {v : Value} :
    v.toHost.isOk = true ↔ ∀ c, ¬ (callable c).Occurs v := by
  simp only [← mem_callables_iff, ← List.eq_nil_iff_forall_not_mem]
  have hv := v.departs_toHost
  generalize v.toHost = r at hv
  cases hv with
  | refused hc =>
    refine ⟨nofun, fun hnone => ?_⟩
    rw [hnone] at hc
    cases hc
  | sent hnone _ _ => exact ⟨fun _ => hnone, fun _ => rfl⟩

/-! ## Into the language -/

theorem toHosts_ofHosts {hs : List HostValue}
    (hhs : ∀ h ∈ hs, (ofHost h).toHost = .ok h.withoutNil) :
    toHosts (ofHosts hs) = .ok (HostValue.withoutNilItems hs) := by
  induction hs with
  | nil => rfl
  | cons h hs ih =>
    rw [ofHosts, toHosts, hhs h (by simp), ih fun h' hh' => hhs h' (by simp [hh'])]
    rfl

/-- **Into the language**, and out again. -/
theorem toHost_ofHost (h : HostValue) : (ofHost h).toHost = .ok h.withoutNil := by
  induction h using HostValue.induction with
  | list items ih =>
    rw [ofHost, toHost, toHosts_ofHosts ih]
    rfl
  | _ => rfl

/-- The empty list is all that the language sees of a nil. -/
theorem ofHost_withoutNil (h : HostValue) : ofHost h.withoutNil = ofHost h := by
  induction h using HostValue.induction with
  | list items ih =>
    rw [HostValue.withoutNil, HostValue.withoutNilItems_eq_map, ofHost, ofHost, ofHosts_eq_map,
      ofHosts_eq_map, List.map_map]
    exact congrArg list (List.map_congr_left ih)
  | _ => rfl

/-! ## There and back -/

/-- What has crossed the bridge once, crosses it again as it is. -/
theorem toHost_bind_toHost (v : Value) :
    (v.toHost >>= fun h => (ofHost h).toHost) = v.toHost := by
  have hv := v.departs_toHost
  generalize v.toHost = r at hv
  cases hv with
  | refused hc => rfl
  | sent _ _ hnil => exact (toHost_ofHost _).trans (congrArg Except.ok hnil)

/-- **The bridge keeps all but symbols, nils and callables.**
    A value passes iff no callable occurs in it; if one does, the leftmost is
    reported.  What passes comes back with the strings of their texts for its
    symbols, and as it was besides; the arguments of an invocation pass like the
    items of a list.  What comes in goes out again with the empty list for its
    nils, and as it was besides.  A second crossing changes nothing more, in
    either direction. -/
theorem crosses_bridge :
    (∀ v : Value, v.toHost.isOk = true ↔ ∀ c, ¬ (callable c).Occurs v) ∧
    (∀ v : Value, v.toHost.map ofHost =
      match v.callables.head? with
      | some c => .error c
      | none => .ok v.spelled) ∧
    (∀ vs : List Value, (Primitive.toArguments vs).map ofHosts =
      match (list vs).callables.head? with
      | some c => .error (.type (.notPassable c))
      | none => .ok (vs.map spelled)) ∧
    (∀ c : Callable, (EvalError.type (.notPassable c)).message =
      "type error: " ++ (c.text ++ " can't be passed to the host")) ∧
    (∀ h : HostValue, (ofHost h).toHost = .ok h.withoutNil) ∧
    (∀ v : Value, (v.toHost >>= fun h => (ofHost h).toHost) = v.toHost) ∧
    ∀ h : HostValue, ofHost h.withoutNil = ofHost h :=
  ⟨fun _ => isOk_toHost_iff, map_ofHost_toHost, map_ofHosts_toArguments, fun _ => rfl,
    toHost_ofHost, toHost_bind_toHost, ofHost_withoutNil⟩

end Value

end MacroLisp
