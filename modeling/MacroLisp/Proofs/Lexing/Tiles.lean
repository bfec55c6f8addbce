/-
  The tiling of a text tiles it.

  Every token stands right behind those before it, at the offset that it
  carries, and is what the first rule with a match takes there
  (`Token.Stands`).  Together they are the text up to its end, or up to a place
  where no rule matches.

  * `tokenAt_eq_none_iff`, `tokenAt_eq_error_iff`: why there is no token;
  * `Tiling.Tiles`: what a tiling has to do with its text;
  * `Tiling.tiles_ofString`: the main statement.
-/
import MacroLisp.Lexing.Tiling

namespace MacroLisp

variable {κ : Type} {rules : List (Rule κ)} {rest : List Char} {source : String}

/-! ## The first rule that matches -/

/-- `r` is the first rule of the table with a match at the start of `rest` that
    is not empty, and takes `n` characters. -/
def Rule.IsFirst (rules : List (Rule κ)) (rest : List Char) (r : Rule κ) (n : Nat) : Prop :=
  r.pattern rest = some n ∧ 0 < n ∧ ∃ earlier later, rules = earlier ++ r :: later ∧
    ∀ r' ∈ earlier, ∀ m ∈ r'.pattern rest, m = 0

theorem Rule.length?_eq_none_iff {r : Rule κ} :
    r.length? rest = none ↔ ∀ m ∈ r.pattern rest, m = 0 := by
  simp [Rule.length?, Option.filter_eq_none_iff]

theorem firstMatch_eq_none_iff :
    firstMatch rules rest = none ↔ ∀ r ∈ rules, ∀ m ∈ r.pattern rest, m = 0 := by
  simp only [firstMatch, List.findSome?_eq_none_iff, Option.map_eq_none_iff,
    Rule.length?_eq_none_iff]

theorem exists_isFirst_of_firstMatch {kind : κ} {n : Nat}
    (h : firstMatch rules rest = some (kind, n)) :
    ∃ r, Rule.IsFirst rules rest r n ∧ r.kind = kind := by
  obtain ⟨earlier, r, later, hrules, hr, hearlier⟩ := List.findSome?_eq_some_iff.1 h
  obtain ⟨m, hm, he⟩ := Option.map_eq_some_iff.1 hr
  cases he
  obtain ⟨hp, hpos⟩ := Rule.length?_eq_some_iff.1 hm
  refine ⟨r, ⟨hp, hpos, earlier, later, hrules, fun r' hr' => ?_⟩, rfl⟩
  exact Rule.length?_eq_none_iff.1 (Option.map_eq_none_iff.1 (hearlier r' hr'))

theorem tokenAt_eq_none_iff {pos : Nat} : tokenAt rules rest pos = .ok none ↔ rest = [] := by
  cases rest with
  | nil => simp [tokenAt]
  | cons c cs =>
    rw [tokenAt]
    cases firstMatch rules (c :: cs) <;> simp

theorem tokenAt_eq_error_iff {pos : Nat} {e : LexError} :
    tokenAt rules rest pos = .error e ↔
      rest ≠ [] ∧ firstMatch rules rest = none ∧ e = ⟨pos, LexError.shown rest⟩ := by
  cases rest with
  | nil => simp [tokenAt]
  | cons c cs =>
    rw [tokenAt]
    cases firstMatch rules (c :: cs) <;> simp [eq_comm]

/-! ## The tokens of a tiling -/

namespace Token

/-- The text of some tokens, one after the other. -/
def textOf (ts : List (Token κ)) : String :=
  String.ofList (ts.flatMap (·.text.toList))

@[simp] theorem textOf_nil : textOf ([] : List (Token κ)) = "" := rfl

theorem textOf_append (ts us : List (Token κ)) : textOf (ts ++ us) = textOf ts ++ textOf us := by
  simp [textOf]

@[simp] theorem textOf_singleton (t : Token κ) : textOf [t] = t.text := by
  simp [textOf]

/-- Behind the tokens `passed`, which are the start of the text `source`, `rest`
    remains, at offset `pos`. -/
structure Remains (source : String) (passed : List (Token κ)) (rest : List Char) (pos : Nat) :
    Prop where
  text_eq : textOf passed ++ String.ofList rest = source
  pos_eq : pos = (textOf passed).utf8ByteSize

/-- In the text `source` the token `t` stands right behind the tokens `before`,
    with its offset, and is what the first rule that matches takes there. -/
structure Stands (rules : List (Rule κ)) (source : String) (before : List (Token κ))
    (t : Token κ) : Prop where
  text_ne : t.text ≠ ""
  first : ∃ rest, Remains source before rest t.pos ∧
    ∃ r n, Rule.IsFirst rules rest r n ∧ t.kind = r.kind ∧ t.text = String.ofList (rest.take n)

theorem remains_start (source : String) : Remains source ([] : List (Token κ)) source.toList 0 :=
  ⟨by simp, rfl⟩

variable {passed : List (Token κ)} {t : Token κ} {pos : Nat}

theorem Remains.stands (h : Remains source passed rest pos)
    (ht : tokenAt rules rest pos = .ok (some t)) : t.Stands rules source passed := by
  obtain ⟨-, n, hm, htext, hpos⟩ := tokenAt_eq_some_iff.1 ht
  obtain ⟨r, hr, hk⟩ := exists_isFirst_of_firstMatch hm
  refine ⟨?_, rest, hpos ▸ h, r, n, hr, hk.symm, htext⟩
  intro he
  simpa [he] using length_text_of_tokenAt ht

theorem Remains.advance (h : Remains source passed rest pos)
    (ht : tokenAt rules rest pos = .ok (some t)) :
    Remains source (passed ++ [t]) (rest.drop t.text.length) (pos + t.text.utf8ByteSize) := by
  constructor
  · rw [textOf_append, textOf_singleton, String.append_assoc, ← h.text_eq]
    congr 1
    rw [← String.toList_inj]
    simpa using append_drop_of_tokenAt ht
  · simp [textOf_append, h.pos_eq]

end Token

namespace Tiling

/-- The tiling lays the text `source` out from its start to its end, or to where
    no rule matches. -/
structure Tiles (rules : List (Rule κ)) (source : String) (tiling : Tiling κ) : Prop where
  stands {before : List (Token κ)} {t : Token κ} {after : List (Token κ)} :
    tiling.tokens = before ++ t :: after → t.Stands rules source before
  covered {pos : Nat} : tiling.ending = .covered pos → Token.Remains source tiling.tokens [] pos
  stuck {e : LexError} : tiling.ending = .stuck e → ∃ rest ≠ [],
    Token.Remains source tiling.tokens rest e.pos ∧ e.found = LexError.shown rest ∧
      ∀ r ∈ rules, ∀ m ∈ r.pattern rest, m = 0

/-- A scan continues a tiling whose first tokens are `passed`. -/
theorem tiles_append (passed : List (Token κ)) (rest : List Char) (pos : Nat)
    (h : Token.Remains source passed rest pos)
    (hp : ∀ before t after, passed = before ++ t :: after → t.Stands rules source before) :
    Tiles rules source ⟨passed ++ (scan rules rest pos).tokens, (scan rules rest pos).ending⟩ := by
  induction rest, pos using scan.induct rules generalizing passed with
  | case1 rest pos e he =>
    rw [scan_of_error he, List.append_nil]
    obtain ⟨hne, hm, rfl⟩ := tokenAt_eq_error_iff.1 he
    refine ⟨hp _ _ _, nofun, fun hs => ?_⟩
    cases hs
    exact ⟨rest, hne, h, rfl, firstMatch_eq_none_iff.1 hm⟩
  | case2 rest pos hn =>
    rw [scan_of_none hn, List.append_nil]
    obtain rfl := tokenAt_eq_none_iff.1 hn
    refine ⟨hp _ _ _, fun hc => ?_, nofun⟩
    cases hc
    exact h
  | case3 rest pos t ht ih =>
    have hall : ∀ before u after, passed ++ [t] = before ++ u :: after →
        u.Stands rules source before := by
      intro before u after hsplit
      rcases List.eq_nil_or_concat after with rfl | ⟨after, v, rfl⟩
      · obtain ⟨rfl, hu⟩ := List.append_inj' hsplit rfl
        cases hu
        exact h.stands ht
      · rw [List.concat_eq_append, ← List.cons_append, ← List.append_assoc] at hsplit
        exact hp _ _ _ (List.append_inj' hsplit rfl).1
    have hrest := ih _ (h.advance ht) hall
    rw [scan_of_some ht]
    rwa [List.append_assoc] at hrest

/-- **The tiling of a text tiles it.** -/
theorem tiles_ofString (rules : List (Rule κ)) (source : String) :
    Tiles rules source (ofString rules source) :=
  tiles_append [] source.toList 0 (Token.remains_start source) (by simp)

end Tiling

end MacroLisp
