/-
  Tables whose order is of no consequence.

  A table is exclusive if no text is matched by two of its rules.  Then the
  first rule that matches is the only one (`firstMatch_eq_some_iff`), whatever
  the order:

  * `firstMatch_of_perm`, `tokenAt_of_perm`: one token;
  * `Tiling.scan_of_perm`: the table in another order cuts every text into the
    same tokens, and stops with the same error.
-/
import MacroLisp.Proofs.Lexing.Tiles

namespace MacroLisp

variable {κ : Type}

namespace Rule

/-- The rule takes at least one character from the start of the text. -/
def Matches (r : Rule κ) (rest : List Char) : Prop :=
  ∃ n, 0 < n ∧ r.pattern rest = some n

/-- At most one rule of the table matches, whatever the text. -/
def Exclusive (table : List (Rule κ)) : Prop :=
  ∀ rest, table.Pairwise fun r r' => ¬ (r.Matches rest ∧ r'.Matches rest)

variable {table table' : List (Rule κ)} {r r' : Rule κ} {rest : List Char}

theorem matches_of_length? {n : Nat} (h : r.length? rest = some n) : r.Matches rest := by
  obtain ⟨hp, hn⟩ := length?_eq_some_iff.1 h
  exact ⟨n, hn, hp⟩

theorem not_matches_iff : ¬ r.Matches rest ↔ r.length? rest = none := by
  rw [length?_eq_none_iff, Matches]
  constructor
  · intro h n hn
    exact Nat.eq_zero_of_not_pos fun hpos => h ⟨n, hpos, hn⟩
  · rintro h ⟨n, hpos, hn⟩
    exact Nat.ne_of_gt hpos (h n hn)

theorem firstMatch_eq_none_iff_not_matches :
    firstMatch table rest = none ↔ ∀ r ∈ table, ¬ r.Matches rest := by
  simp only [firstMatch, List.findSome?_eq_none_iff, Option.map_eq_none_iff, not_matches_iff]

theorem firstMatch_eq_some_iff
    (h : table.Pairwise fun r r' => ¬ (r.Matches rest ∧ r'.Matches rest)) {m : κ × Nat} :
    firstMatch table rest = some m ↔ ∃ r ∈ table, r.kind = m.1 ∧ r.length? rest = some m.2 := by
  obtain ⟨kind, n⟩ := m
  induction table with
  | nil => simp [firstMatch]
  | cons r table ih =>
    obtain ⟨hr, htable⟩ := List.pairwise_cons.1 h
    rw [firstMatch, List.findSome?_cons]
    cases hm : r.length? rest with
    | none => simpa [hm, firstMatch] using ih htable
    | some k =>
      -- the others have no match, as this one has
      have hothers : ∀ r' ∈ table, r'.length? rest = none := fun r' hr' =>
        not_matches_iff.1 fun hmatch => hr r' hr' ⟨matches_of_length? hm, hmatch⟩
      constructor
      · rintro ⟨⟩
        exact ⟨r, List.mem_cons_self, rfl, hm⟩
      · rintro ⟨r', hr', rfl, hn⟩
        rcases List.mem_cons.1 hr' with rfl | hr'
        · cases hm.symm.trans hn
          rfl
        · cases (hothers r' hr').symm.trans hn

theorem Exclusive.of_perm (h : Exclusive table) (hp : table'.Perm table) : Exclusive table' :=
  fun rest => (hp.pairwise_iff fun hne hboth => hne ⟨hboth.2, hboth.1⟩).2 (h rest)

/-- **Which rule matches first does not depend on the order** of an exclusive
    table. -/
theorem firstMatch_of_perm (h : Exclusive table) (hp : table'.Perm table) (rest : List Char) :
    firstMatch table' rest = firstMatch table rest := by
  ext m
  rw [firstMatch_eq_some_iff (h.of_perm hp rest), firstMatch_eq_some_iff (h rest)]
  simp only [hp.mem_iff]

theorem tokenAt_of_perm (h : Exclusive table) (hp : table'.Perm table) (rest : List Char)
    (pos : Nat) : tokenAt table' rest pos = tokenAt table rest pos := by
  rw [tokenAt, tokenAt, firstMatch_of_perm h hp]

end Rule

/-- **The order of an exclusive table does not change a tiling.** -/
theorem Tiling.scan_of_perm {table table' : List (Rule κ)} (h : Rule.Exclusive table)
    (hp : table'.Perm table) (rest : List Char) (pos : Nat) :
    scan table' rest pos = scan table rest pos := by
  fun_induction scan table rest pos with
  | case1 rest pos e he => exact scan_of_error ((Rule.tokenAt_of_perm h hp rest pos).trans he)
  | case2 rest pos hn => exact scan_of_none ((Rule.tokenAt_of_perm h hp rest pos).trans hn)
  | case3 rest pos t ht others ih =>
    rw [scan_of_some ((Rule.tokenAt_of_perm h hp rest pos).trans ht), ih]

end MacroLisp
