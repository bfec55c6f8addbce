/-
  A cursor over a text, for readers that take tokens one at a time.

  * `peek` looks at the token under the cursor and leaves the cursor there;
  * `consume keep` moves over the tokens that `keep` rejects and returns the
    first that it accepts, the cursor just behind it;
  * `nextWhere keep` does the same for a stream: it reports an error once and
    is at its end from then on, while `peek` and `consume` go on reporting;
  * `skipWhile p` moves over the tokens of `p`.

  No operation moves over a place where no rule matches.
-/
import MacroLisp.Lexing.Rule

namespace MacroLisp

/-- The rest of a text, its offset, and whether the stream has reported its
    error. -/
structure Tokenizer (κ : Type) where
  rules : List (Rule κ)
  rest : List Char
  pos : Nat
  failed : Bool

namespace Tokenizer

variable {κ : Type}

/-- The cursor at the start of a text. -/
def ofString (rules : List (Rule κ)) (source : String) : Tokenizer κ :=
  { rules, rest := source.toList, pos := 0, failed := false }

/-- The token under the cursor, `none` at the end of the text. -/
def peek (t : Tokenizer κ) : Except LexError (Option (Token κ)) :=
  tokenAt t.rules t.rest t.pos

/-- The cursor behind the token under it. -/
def advance (t : Tokenizer κ) (token : Token κ) : Tokenizer κ :=
  { t with rest := t.rest.drop token.text.length, pos := t.pos + token.text.utf8ByteSize }

theorem length_rest_advance {t : Tokenizer κ} {token : Token κ} (h : t.peek = .ok (some token)) :
    (t.advance token).rest.length < t.rest.length :=
  length_drop_of_tokenAt h

/-- Moves over tokens until `keep` accepts one, and answers it. -/
def consume (keep : Token κ → Bool) (t : Tokenizer κ) :
    Except LexError (Option (Token κ)) × Tokenizer κ :=
  match _ : t.peek with
  | .error e => (.error e, t)
  | .ok none => (.ok none, t)
  | .ok (some token) =>
    if keep token then (.ok (some token), t.advance token)
    else (t.advance token).consume keep
termination_by t.rest.length
decreasing_by exact length_rest_advance ‹_›

/-- Moves over the tokens of `p` from the cursor on. -/
def skipWhile (p : Token κ → Bool) (t : Tokenizer κ) : Tokenizer κ :=
  match _ : t.peek with
  | .ok (some token) => if p token then (t.advance token).skipWhile p else t
  | _ => t
termination_by t.rest.length
decreasing_by exact length_rest_advance ‹_›

/-- The next element of the stream of the tokens that `keep` accepts: a token,
    or the error that ends the stream, or `none` at its end. -/
def nextWhere (keep : Token κ → Bool) (t : Tokenizer κ) :
    Option (Except LexError (Token κ)) × Tokenizer κ :=
  if t.failed then (none, t)
  else match t.consume keep with
    | (.ok none, t') => (none, t')
    | (.ok (some token), t') => (some (.ok token), t')
    | (.error e, t') => (some (.error e), { t' with failed := true })

/-- The next element of the stream of all tokens. -/
def next (t : Tokenizer κ) : Option (Except LexError (Token κ)) × Tokenizer κ :=
  t.nextWhere fun _ => true

/-! ## The cases of `consume` -/

theorem consume_of_error {keep : Token κ → Bool} {t : Tokenizer κ} {e : LexError}
    (h : t.peek = .error e) : t.consume keep = (.error e, t) := by
  rw [consume]; split <;> simp_all

theorem consume_of_none {keep : Token κ → Bool} {t : Tokenizer κ}
    (h : t.peek = .ok none) : t.consume keep = (.ok none, t) := by
  rw [consume]; split <;> simp_all

theorem consume_of_some {keep : Token κ → Bool} {t : Tokenizer κ} {token : Token κ}
    (h : t.peek = .ok (some token)) :
    t.consume keep =
      if keep token then (.ok (some token), t.advance token)
      else (t.advance token).consume keep := by
  rw [consume]
  split
  · simp_all
  · simp_all
  · rename_i u hu
    obtain rfl : token = u := by simpa [h] using hu
    rfl

/-! ## Progress -/

theorem length_rest_consume_le (keep : Token κ → Bool) (t : Tokenizer κ) :
    (t.consume keep).2.rest.length ≤ t.rest.length := by
  fun_induction consume keep t with
  | case1 | case2 => exact Nat.le_refl _
  | case3 t token h hk => exact Nat.le_of_lt (length_rest_advance h)
  | case4 t token h hk ih => exact Nat.le_trans ih (Nat.le_of_lt (length_rest_advance h))

/-- A cursor that has a token under it goes on. -/
theorem length_rest_consume_lt (keep : Token κ → Bool) {t : Tokenizer κ} {token : Token κ}
    (h : t.peek = .ok (some token)) : (t.consume keep).2.rest.length < t.rest.length := by
  rw [consume_of_some h]
  split
  · exact length_rest_advance h
  · exact Nat.lt_of_le_of_lt (length_rest_consume_le keep _) (length_rest_advance h)

/-- A cursor that answers a token had one under it. -/
theorem exists_peek_of_consume {keep : Token κ → Bool} {t : Tokenizer κ} {token : Token κ}
    (h : (t.consume keep).1 = .ok (some token)) : ∃ token, t.peek = .ok (some token) := by
  rcases hp : t.peek with e | _ | u
  · rw [consume_of_error hp] at h
    cases h
  · rw [consume_of_none hp] at h
    cases h
  · exact ⟨u, rfl⟩

theorem length_rest_skipWhile_le (p : Token κ → Bool) (t : Tokenizer κ) :
    (t.skipWhile p).rest.length ≤ t.rest.length := by
  fun_induction skipWhile p t with
  | case1 t token h hp ih => exact Nat.le_trans ih (Nat.le_of_lt (length_rest_advance h))
  | case2 | case3 => exact Nat.le_refl _

end Tokenizer

end MacroLisp
