/-
  The tiling of a text: the tokens that a rule table cuts it into, one after
  the other from the start, and how that ends.

  **Nothing is lost**: the texts of the tokens, one after the other, are the
  text up to where the tiling ends (`text_append_remainder`).
-/
import MacroLisp.Lexing.Rule

namespace MacroLisp

/-- How a tiling ends. -/
inductive Ending where
  /-- All of the text is covered, `pos` bytes of it. -/
  | covered (pos : Nat)
  /-- No rule takes the text at the place of the error. -/
  | stuck (e : LexError)
deriving DecidableEq, Repr

/-- Where the tiling ends. -/
def Ending.pos : Ending → Nat
  | .covered pos => pos
  | .stuck e => e.pos

/-- The error, if there is one. -/
def Ending.error? : Ending → Option LexError
  | .covered _ => none
  | .stuck e => some e

/-- The tokens of a text and the end of the tiling. -/
structure Tiling (κ : Type) where
  tokens : List (Token κ)
  ending : Ending
deriving DecidableEq, Repr

variable {κ : Type}

/-- The tiling of `rest`, which stands at offset `pos`. -/
def Tiling.scan (rules : List (Rule κ)) (rest : List Char) (pos : Nat) : Tiling κ :=
  match _ : tokenAt rules rest pos with
  | .error e => ⟨[], .stuck e⟩
  | .ok none => ⟨[], .covered pos⟩
  | .ok (some t) =>
    let others := scan rules (rest.drop t.text.length) (pos + t.text.utf8ByteSize)
    ⟨t :: others.tokens, others.ending⟩
termination_by rest.length
decreasing_by exact length_drop_of_tokenAt ‹_›

/-- The tiling of a whole text. -/
def Tiling.ofString (rules : List (Rule κ)) (source : String) : Tiling κ :=
  scan rules source.toList 0

/-- The text of the tokens, one after the other. -/
def Tiling.text (t : Tiling κ) : List Char :=
  t.tokens.flatMap (·.text.toList)

/-! ## The three cases of a scan -/

theorem Tiling.scan_of_error {rules : List (Rule κ)} {rest : List Char} {pos : Nat} {e : LexError}
    (h : tokenAt rules rest pos = .error e) : scan rules rest pos = ⟨[], .stuck e⟩ := by
  rw [scan]; split <;> simp_all

theorem Tiling.scan_of_none {rules : List (Rule κ)} {rest : List Char} {pos : Nat}
    (h : tokenAt rules rest pos = .ok none) : scan rules rest pos = ⟨[], .covered pos⟩ := by
  rw [scan]; split <;> simp_all

theorem Tiling.scan_of_some {rules : List (Rule κ)} {rest : List Char} {pos : Nat} {t : Token κ}
    (h : tokenAt rules rest pos = .ok (some t)) :
    scan rules rest pos =
      ⟨t :: (scan rules (rest.drop t.text.length) (pos + t.text.utf8ByteSize)).tokens,
        (scan rules (rest.drop t.text.length) (pos + t.text.utf8ByteSize)).ending⟩ := by
  rw [scan]
  split
  · simp_all
  · simp_all
  · rename_i u hu
    obtain rfl : t = u := by simpa [h] using hu
    rfl

/-- **The tokens are the text, up to where the tiling ends.** -/
theorem Tiling.text_append_remainder (rules : List (Rule κ)) (rest : List Char) (pos : Nat) :
    ∃ remainder, (scan rules rest pos).text ++ remainder = rest := by
  fun_induction scan rules rest pos with
  | case1 rest pos e h => exact ⟨rest, rfl⟩
  | case2 rest pos h => exact ⟨rest, rfl⟩
  | case3 rest pos t h others ih =>
    obtain ⟨remainder, hr⟩ := ih
    refine ⟨remainder, ?_⟩
    rw [← append_drop_of_tokenAt h, ← hr]
    simp [Tiling.text, others]

end MacroLisp
