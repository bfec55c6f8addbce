/-
  What values and trees consist of.

  Lists are the only values and trees with parts, so whatever holds of a list
  as soon as it holds of its items holds of everything with a list in it.

  * `Value.induction`, `HostValue.induction`, `Expr.induction`: proofs by the
    items of lists;
  * `Value.callables`: the callables in a value, depth first and from left to
    right; they are what occurs in it (`Value.mem_callables_iff`).
-/
import MacroLisp.Host.Basic
import MacroLisp.Proofs.Reader.Derivation

namespace MacroLisp

/-! ## Proofs by the items of lists -/

/-- To prove something of all values, it may be assumed of the items of a list. -/
@[elab_as_elim]
theorem Value.induction {motive : Value → Prop} (number : ∀ n, motive (.number n))
    (string : ∀ s, motive (.string s)) (bool : ∀ b, motive (.bool b))
    (list : ∀ items, (∀ v ∈ items, motive v) → motive (.list items))
    (symbol : ∀ name, motive (.symbol name)) (callable : ∀ c, motive (.callable c))
    (host : ∀ object, motive (.host object)) (v : Value) : motive v := by
  refine @Value.rec motive (fun vs => ∀ v ∈ vs, motive v) number string bool list symbol callable
    host ?_ ?_ v
  · intro v hv; cases hv
  · rintro v vs hv hvs v' (_ | ⟨_, hv'⟩)
    · exact hv
    · exact hvs v' hv'

/-- To prove something of all that the host sees, it may be assumed of the items
    of a list. -/
@[elab_as_elim]
theorem HostValue.induction {motive : HostValue → Prop} (nil : motive .nil)
    (bool : ∀ b, motive (.bool b)) (int : ∀ i, motive (.int i)) (float : ∀ x, motive (.float x))
    (string : ∀ s, motive (.string s))
    (list : ∀ items, (∀ h ∈ items, motive h) → motive (.list items))
    (object : ∀ object, motive (.object object)) (h : HostValue) : motive h := by
  refine @HostValue.rec motive (fun hs => ∀ h ∈ hs, motive h) nil bool int float string list object
    ?_ ?_ h
  · intro h hh; cases hh
  · rintro h hs hh hhs h' (_ | ⟨_, hh'⟩)
    · exact hh
    · exact hhs h' hh'

/-- To prove something of all trees, it may be assumed of the items of a list. -/
@[elab_as_elim]
theorem Expr.induction {motive : Expr → Prop} (number : ∀ n, motive (.number n))
    (string : ∀ s, motive (.string s)) (symbol : ∀ name, motive (.symbol name))
    (list : ∀ items, (∀ e ∈ items, motive e) → motive (.list items))
    (const : ∀ v, motive (.const v)) (e : Expr) : motive e := by
  refine @Expr.rec motive (fun es => ∀ e ∈ es, motive e) number string symbol list const ?_ ?_ e
  · intro e he; cases he
  · rintro e es he hes e' (_ | ⟨_, he'⟩)
    · exact he
    · exact hes e' he'

/-- What occurs in a list is the list itself, or occurs in an item. -/
theorem Expr.occurs_list_iff {e : Expr} {items : List Expr} :
    e.Occurs (.list items) ↔ e = .list items ∨ ∃ i ∈ items, e.Occurs i := by
  constructor
  · rintro (_ | ⟨hi, h⟩)
    · exact .inl rfl
    · exact .inr ⟨_, hi, h⟩
  · rintro (rfl | ⟨i, hi, h⟩)
    · exact .self
    · exact .item hi h

/-! ## Callables in a value -/

namespace Value

/-- The value `v` is the given one, or occurs in an item of it. -/
inductive Occurs (v : Value) : Value → Prop where
  | self : Occurs v v
  | item {items : List Value} {i : Value} (hi : i ∈ items) (h : Occurs v i) : Occurs v (.list items)

mutual

/-- The callables in a value, depth first and from left to right. -/
def callables : Value → List Callable
  | callable c => [c]
  | list items => callablesIn items
  | _ => []

/-- The callables in the items of a list. -/
def callablesIn : List Value → List Callable
  | [] => []
  | item :: items => callables item ++ callablesIn items

end

theorem callablesIn_eq_flatMap (items : List Value) : callablesIn items = items.flatMap callables := by
  induction items with
  | nil => rfl
  | cons v vs ih => rw [callablesIn, ih, List.flatMap_cons]

theorem mem_callables_list {c : Callable} {items : List Value} :
    c ∈ (list items).callables ↔ ∃ v ∈ items, c ∈ v.callables := by
  rw [callables, callablesIn_eq_flatMap, List.mem_flatMap]

/-- **The callables in a value are those that occur in it.** -/
theorem mem_callables_iff {c : Callable} {v : Value} : c ∈ v.callables ↔ (callable c).Occurs v := by
  induction v using induction with
  | list items ih =>
    rw [mem_callables_list]
    constructor
    · rintro ⟨v, hv, hc⟩
      exact .item hv ((ih v hv).1 hc)
    · rintro (_ | ⟨hv, hc⟩)
      exact ⟨_, hv, (ih _ hv).2 hc⟩
  | callable c' =>
    rw [callables, List.mem_singleton]
    constructor
    · rintro rfl
      exact .self
    · rintro ⟨⟩
      rfl
  | _ => exact ⟨nofun, nofun⟩

/-- No callable comes in from the host. -/
theorem callables_ofHost (h : HostValue) : (ofHost h).callables = [] := by
  induction h using HostValue.induction with
  | list items ih =>
    rw [ofHost, callables, callablesIn_eq_flatMap, ofHosts_eq_map, List.flatMap_eq_nil_iff]
    intro v hv
    obtain ⟨h, hh, rfl⟩ := List.mem_map.1 hv
    exact ih h hh
  | _ => rfl

/-- A callable in quoted syntax comes from a value that stands in it. -/
theorem exists_const_of_mem_callables {c : Callable} {e : Expr} (h : c ∈ (ofExpr e).callables) :
    ∃ v, (Expr.const v).Occurs e ∧ c ∈ v.callables := by
  induction e using Expr.induction with
  | list items ih =>
    rw [ofExpr, mem_callables_list, ofExprs_eq_map] at h
    obtain ⟨w, hw, hc⟩ := h
    obtain ⟨e, he, rfl⟩ := List.mem_map.1 hw
    obtain ⟨v, hv, hcv⟩ := ih e he hc
    exact ⟨v, .item he hv, hcv⟩
  | const v => exact ⟨v, .self, h⟩
  | _ => cases h

end Value

end MacroLisp
