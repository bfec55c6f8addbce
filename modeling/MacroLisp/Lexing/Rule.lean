/-
  Token rules.  A pattern looks at the text from the cursor on and says how
  many characters it takes, if it matches at all; a rule gives a pattern its
  kind of token.  Rules are tried in order, and the first that takes at least
  one character wins, however much a later one would take.

  * `Pattern.one`, `run`, `headed` and `enclosed` are the shapes that the
    token tables are made of;
  * `tokenAt` is the token at the cursor, with the error if there is none;
    it is never empty (`length_text_of_tokenAt`) and stands at the cursor
    (`append_drop_of_tokenAt`).
-/
import MacroLisp.Lexing.Token

namespace MacroLisp

/-- How many characters of the text are taken, `none` without a match. -/
abbrev Pattern := List Char → Option Nat

namespace Pattern

/-- One character of `p`. -/
def one (p : Char → Bool) : Pattern
  | [] => none
  | c :: _ => if p c then some 1 else none

/-- All characters of `p` from the cursor on, at least one. -/
def run (p : Char → Bool) : Pattern
  | [] => none
  | c :: rest => if p c then some (1 + (rest.takeWhile p).length) else none

/-- One character of `p` and then all characters of `q`. -/
def headed (p q : Char → Bool) : Pattern
  | [] => none
  | c :: rest => if p c then some (1 + (rest.takeWhile q).length) else none

/-- The text from one `delimiter` to the next, both included. -/
def enclosed (delimiter : Char) : Pattern
  | [] => none
  | c :: rest =>
    if c = delimiter ∧ delimiter ∈ rest then
      some (2 + (rest.takeWhile (· != delimiter)).length)
    else none

end Pattern

/-- A kind of token with its pattern. -/
structure Rule (κ : Type) where
  kind : κ
  pattern : Pattern

variable {κ : Type}

/-- The length of the match, if it is not empty.  Empty matches would leave
    the cursor where it is. -/
def Rule.length? (r : Rule κ) (rest : List Char) : Option Nat :=
  (r.pattern rest).filter (0 < ·)

theorem Rule.length?_eq_some_iff {r : Rule κ} {rest : List Char} {n : Nat} :
    r.length? rest = some n ↔ r.pattern rest = some n ∧ 0 < n := by
  simp [Rule.length?, Option.filter_eq_some_iff]

/-- The kind and the length of the first rule that matches. -/
def firstMatch (rules : List (Rule κ)) (rest : List Char) : Option (κ × Nat) :=
  rules.findSome? fun r => (r.length? rest).map (r.kind, ·)

theorem pos_of_firstMatch {rules : List (Rule κ)} {rest : List Char} {kind : κ} {n : Nat}
    (h : firstMatch rules rest = some (kind, n)) : 0 < n := by
  obtain ⟨r, _, hr⟩ := List.exists_of_findSome?_eq_some h
  obtain ⟨m, hm, he⟩ := Option.map_eq_some_iff.1 hr
  cases he
  exact (Rule.length?_eq_some_iff.1 hm).2

/-! ## The token at the cursor -/

/-- The token at the start of `rest`, which stands at offset `pos`: `none` at
    the end of the text. -/
def tokenAt (rules : List (Rule κ)) (rest : List Char) (pos : Nat) :
    Except LexError (Option (Token κ)) :=
  if rest.isEmpty then .ok none
  else match firstMatch rules rest with
    | some (kind, n) => .ok (some ⟨kind, String.ofList (rest.take n), pos⟩)
    | none => .error ⟨pos, LexError.shown rest⟩

theorem tokenAt_nil (rules : List (Rule κ)) (pos : Nat) : tokenAt rules [] pos = .ok none := rfl

/-- When there is a token, the first rule that matches says what it is. -/
theorem tokenAt_eq_some_iff {rules : List (Rule κ)} {rest : List Char} {pos : Nat} {t : Token κ} :
    tokenAt rules rest pos = .ok (some t) ↔
      rest ≠ [] ∧ ∃ n, firstMatch rules rest = some (t.kind, n) ∧
        t.text = String.ofList (rest.take n) ∧ t.pos = pos := by
  cases rest with
  | nil => simp [tokenAt]
  | cons c cs =>
    rw [tokenAt]
    cases hm : firstMatch rules (c :: cs) with
    | none => simp
    | some m => rcases t with ⟨k, s, q⟩; rcases m with ⟨k', n⟩; simp; grind

/-- A token holds at least one character. -/
theorem length_text_of_tokenAt {rules : List (Rule κ)} {rest : List Char} {pos : Nat} {t : Token κ}
    (h : tokenAt rules rest pos = .ok (some t)) : 0 < t.text.length := by
  obtain ⟨hne, n, hm, ht, _⟩ := tokenAt_eq_some_iff.1 h
  have hn := pos_of_firstMatch hm
  have hl := List.length_pos_iff.2 hne
  simp [ht]
  omega

/-- A token is the text from the cursor on. -/
theorem append_drop_of_tokenAt {rules : List (Rule κ)} {rest : List Char} {pos : Nat} {t : Token κ}
    (h : tokenAt rules rest pos = .ok (some t)) :
    t.text.toList ++ rest.drop t.text.length = rest := by
  obtain ⟨_, n, _, ht, _⟩ := tokenAt_eq_some_iff.1 h
  rw [ht]
  rcases Nat.le_total n rest.length with hn | hn
  · simp [Nat.min_eq_left hn]
  · simp [List.take_of_length_le hn]

/-- What follows a token is shorter than what it stood in. -/
theorem length_drop_of_tokenAt {rules : List (Rule κ)} {rest : List Char} {pos : Nat} {t : Token κ}
    (h : tokenAt rules rest pos = .ok (some t)) :
    (rest.drop t.text.length).length < rest.length := by
  have hpos := length_text_of_tokenAt h
  have hlen := congrArg List.length (append_drop_of_tokenAt h)
  simp only [List.length_append, String.length_toList] at hlen
  omega

end MacroLisp
