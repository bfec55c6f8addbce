/-
  Equality of values.

  Values are equal by structure: numbers as numbers are, lists item by item,
  all else as what it is.  Numbers of different kinds are compared as doubles,
  so an integer equals the double that is nearest to it, and so does every
  other integer with the same nearest double.

  * `Number.beq_trans_iff`: which numbers break the chain;
  * `Value.Equal`: equality as a relation, which `==` decides
    (`Value.beq_iff_equal`);
  * `Value.Bridges`: a value with a double where the two others have different
    integers;
  * `Value.beq_laws`: the main statement.
-/
import Mathlib
import MacroLisp.Proofs.Data.Parts

namespace MacroLisp

/-! ## Numbers -/

namespace Number

variable {a b c : Number}

/-- A number equals itself unless it is the double that is not a number. -/
theorem beq_self_iff : (a == a) = true ↔ ∀ x, a = float x → x.isNaN = false := by
  cases a with
  | int i => exact ⟨nofun, fun _ => beq_self_eq_true i⟩
  | float x =>
    have hx : (x == x) = true ↔ x.isNaN = false := by simp
    constructor
    · rintro h _ ⟨⟩
      exact hx.1 h
    · exact fun h => hx.2 (h x rfl)

theorem beq_symm (h : (a == b) = true) : (b == a) = true := by
  cases a with
  | int i =>
    cases b with
    | int j => exact BEq.symm (α := Int64) h
    | float y => exact BEq.symm (α := Float) h
  | float x => cases b <;> exact BEq.symm (α := Float) h

/-- **Two numbers that equal a third are equal**, unless it is a double and they
    are different integers. -/
theorem beq_trans_iff (hab : (a == b) = true) (hbc : (b == c) = true) :
    (a == c) = true ↔ ¬ ∃ i j x, i ≠ j ∧ a = int i ∧ b = float x ∧ c = int j := by
  have hfloat (x y z : Float) (hxy : (x == y) = true) (hyz : (y == z) = true) : (x == z) = true :=
    BEq.trans hxy hyz
  cases b with
  | int j =>
    -- the integer in the middle is the one at either side
    refine iff_of_true ?_ (by simp)
    cases a with
    | int i =>
      obtain rfl : i = j := eq_of_beq hab
      exact hbc
    | float x =>
      cases c with
      | int k =>
        obtain rfl : j = k := eq_of_beq hbc
        exact hab
      | float z => exact hfloat _ _ _ hab hbc
  | float y =>
    cases a with
    | float x => exact iff_of_true (by cases c <;> exact hfloat _ _ _ hab hbc) (by simp)
    | int i =>
      cases c with
      | float z => exact iff_of_true (hfloat _ _ _ hab hbc) (by simp)
      | int k =>
        have hik : ((int i : Number) == int k) = true ↔ i = k := beq_iff_eq (α := Int64)
        simp [hik]

end Number

/-! ## Values -/

namespace Value

/-- Equality by structure. -/
inductive Equal : Value → Value → Prop where
  | number {l r : Number} (h : (l == r) = true) : Equal (number l) (number r)
  | list {ls rs : List Value} (hlen : ls.length = rs.length)
      (hitems : ∀ (k : Nat) a b, ls[k]? = some a → rs[k]? = some b → Equal a b) :
      Equal (list ls) (list rs)
  | other {v : Value} (hn : ∀ n, v ≠ number n) (hl : ∀ items, v ≠ list items) : Equal v v

/-- Nowhere in the value, at any depth, is there a double that is not a number. -/
def NaNFree (v : Value) : Prop :=
  ∀ x, (number (.float x)).Occurs v → x.isNaN = false

/-- Somewhere in the three values, at the same place, the outer two have different
    integers and the middle one has a double. -/
inductive Bridges : Value → Value → Value → Prop where
  | number {i j : Int64} {x : Float} (h : i ≠ j) :
      Bridges (int i) (number (.float x)) (int j)
  | item {as bs cs : List Value} {k : Nat} {a b c : Value} (ha : as[k]? = some a)
      (hb : bs[k]? = some b) (hc : cs[k]? = some c) (h : Bridges a b c) :
      Bridges (list as) (list bs) (list cs)

variable {a b c : Value}

/-- Lists are equal if they have as many items, and equal ones. -/
theorem beqList_iff {ls rs : List Value} : Value.beqList ls rs = true ↔
    ls.length = rs.length ∧
      ∀ (k : Nat) a b, ls[k]? = some a → rs[k]? = some b → (a == b) = true := by
  induction ls generalizing rs with
  | nil => cases rs <;> simp [Value.beqList]
  | cons l ls ih =>
    cases rs with
    | nil => simp [Value.beqList]
    | cons r rs =>
      rw [Value.beqList, Bool.and_eq_true, ih, List.length_cons, List.length_cons,
        Nat.add_right_cancel_iff]
      constructor
      · rintro ⟨hhead, hlen, htail⟩
        refine ⟨hlen, fun k a b ha hb => ?_⟩
        cases k with
        | zero =>
          obtain rfl := Option.some.inj ha
          obtain rfl := Option.some.inj hb
          exact hhead
        | succ k => exact htail k a b ha hb
      · rintro ⟨hlen, hitems⟩
        exact ⟨hitems 0 l r rfl rfl, hlen, fun k a b ha hb => hitems (k + 1) a b ha hb⟩

/-- A value that is no number and no list equals itself and nothing else. -/
theorem beq_other_iff (hn : ∀ n, a ≠ number n) (hl : ∀ items, a ≠ list items) :
    (a == b) = true ↔ a = b := by
  have hbeq : (a == b) = a.beq b := rfl
  rw [hbeq]
  cases a with
  | number n => exact absurd rfl (hn n)
  | list items => exact absurd rfl (hl items)
  | _ => cases b <;> simp [Value.beq]

/-- **The equality of values is equality by structure.** -/
theorem beq_iff_equal : (a == b) = true ↔ Equal a b := by
  constructor
  · intro h
    induction a using Value.induction generalizing b with
    | number l =>
      cases b with
      | number r => exact .number h
      | _ => cases h
    | list ls ih =>
      cases b with
      | list rs =>
        obtain ⟨hlen, hitems⟩ := beqList_iff.1 h
        exact .list hlen fun k a b ha hb =>
          ih a (List.mem_of_getElem? ha) (hitems k a b ha hb)
      | _ => cases h
    | _ =>
      obtain rfl := (beq_other_iff (by simp) (by simp)).1 h
      exact .other nofun nofun
  · intro h
    induction h with
    | number h => exact h
    | list hlen _ ih => exact beqList_iff.2 ⟨hlen, ih⟩
    | other hn hl => exact (beq_other_iff hn hl).2 rfl

theorem nanFree_list_iff {items : List Value} :
    (list items).NaNFree ↔ ∀ v ∈ items, v.NaNFree := by
  constructor
  · exact fun h v hv x hx => h x (.item hv hx)
  · rintro h x (_ | ⟨hv, hx⟩)
    exact h _ hv x hx

/-- **A value equals itself exactly if there is nothing in it that is not a
    number.** -/
theorem equal_self_iff : Equal a a ↔ a.NaNFree := by
  induction a using Value.induction with
  | number n =>
    have hfree : (number n).NaNFree ↔ ∀ x, n = .float x → x.isNaN = false := by
      constructor
      · rintro h x rfl
        exact h x .self
      · rintro h x ⟨⟩
        exact h x rfl
    rw [hfree, ← Number.beq_self_iff]
    exact beq_iff_equal.symm
  | list items ih =>
    rw [nanFree_list_iff]
    constructor
    · rintro (_ | ⟨_, hitems⟩ | ⟨_, hl⟩) v hv
      · obtain ⟨k, hk⟩ := List.mem_iff_getElem?.1 hv
        exact (ih v hv).1 (hitems k v v hk hk)
      · exact absurd rfl (hl items)
    · refine fun h => .list rfl fun k v w hv hw => ?_
      obtain rfl := Option.some.inj (hv.symm.trans hw)
      have hmem := List.mem_of_getElem? hv
      exact (ih v hmem).2 (h v hmem)
  | _ => exact iff_of_true (.other nofun nofun) (by rintro x ⟨⟩)

theorem Equal.symm (h : Equal a b) : Equal b a := by
  induction h with
  | number h => exact .number (Number.beq_symm h)
  | list hlen _ ih => exact .list hlen.symm fun k b a hb ha => ih k a b ha hb
  | other hn hl => exact .other hn hl

theorem bridges_list_iff {as bs cs : List Value} : Bridges (list as) (list bs) (list cs) ↔
    ∃ (k : Nat) (a b c : Value), as[k]? = some a ∧ bs[k]? = some b ∧ cs[k]? = some c ∧
      Bridges a b c := by
  constructor
  · rintro (_ | ⟨ha, hb, hc, h⟩)
    exact ⟨_, _, _, _, ha, hb, hc, h⟩
  · rintro ⟨k, a, b, c, ha, hb, hc, h⟩
    exact .item ha hb hc h

/-- **Two values that equal a third are equal**, unless it bridges a difference
    between them. -/
theorem Equal.trans_iff (hab : Equal a b) (hbc : Equal b c) : Equal a c ↔ ¬ Bridges a b c := by
  induction hab generalizing c with
  | @number l m hlm =>
    cases hbc with
    | @number _ r hmr =>
      have hbridges : Bridges (.number l) (.number m) (.number r) ↔
          ∃ i j x, i ≠ j ∧ l = .int i ∧ m = .float x ∧ r = .int j := by
        constructor
        · rintro ⟨h⟩
          exact ⟨_, _, _, h, rfl, rfl, rfl⟩
        · rintro ⟨i, j, x, h, rfl, rfl, rfl⟩
          exact .number h
      rw [hbridges, ← Number.beq_trans_iff hlm hmr]
      exact beq_iff_equal.symm
    | other hn _ => exact absurd rfl (hn _)
  | @list ls ms hlen hitems ih =>
    cases hbc with
    | @list _ rs hlen' hitems' =>
      rw [bridges_list_iff]
      push Not
      constructor
      · rintro (_ | ⟨_, hlr⟩ | ⟨_, hl⟩) k a b c ha hb hc
        · exact (ih k a b ha hb (hitems' k b c hb hc)).1 (hlr k a c ha hc)
        · exact absurd rfl (hl _)
      · refine fun h => .list (hlen.trans hlen') fun k a c ha hc => ?_
        -- there is an item between the two, since the lists are of one length
        have hk : k < ms.length := hlen ▸ (List.getElem?_eq_some_iff.1 ha).1
        have hb := List.getElem?_eq_getElem hk
        exact (ih k a _ ha hb (hitems' k _ c hb hc)).2 (h k a _ c ha hb hc)
    | other _ hl => exact absurd rfl (hl _)
  | other hn hl =>
    refine iff_of_true hbc ?_
    -- the same value in two places is in neither case of the relation
    rintro ⟨⟩
    exact hl _ rfl

/-- **Equality is reflexive where there is nothing that is not a number, it is
    symmetric, and it is transitive but for integers with the same nearest
    double.**
    A value equals itself exactly if no double in it, at any depth, is not a
    number.  Two values that equal a third equal each other exactly if the third
    has nowhere a double where they have different integers. -/
theorem beq_laws (a b c : Value) :
    ((a == a) = true ↔ a.NaNFree) ∧ ((a == b) = true → (b == a) = true) ∧
      ((a == b) = true → (b == c) = true → ((a == c) = true ↔ ¬ Bridges a b c)) := by
  simp only [beq_iff_equal]
  exact ⟨equal_self_iff, .symm, Equal.trans_iff⟩

/-- The two greatest integers have the same nearest double, which is what the
    literal after them denotes.  Both equal it, and they differ. -/
theorem beq_not_transitive :
    let a := int 9223372036854775807
    let b := number (.ofNat 9223372036854775808)
    let c := int 9223372036854775806
    (a.NaNFree ∧ b.NaNFree ∧ c.NaNFree) ∧ (a == b) = true ∧ (b == c) = true ∧ (a == c) = false := by
  intro a b c
  have hfree {v : Value} (hv : (v == v) = true) : v.NaNFree := equal_self_iff.1 (beq_iff_equal.1 hv)
  have hab : (a == b) = true := by decide +kernel
  have hbb : (b == b) = true := by decide +kernel
  have hbc : (b == c) = true := by decide +kernel
  exact ⟨⟨hfree rfl, hfree hbb, hfree rfl⟩, hab, hbc, by decide⟩

end Value

end MacroLisp
