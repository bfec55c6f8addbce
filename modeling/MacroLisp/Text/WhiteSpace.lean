/-
  White space: the characters with the Unicode property `White_Space`.

  The property is closed under no simple rule, so its ten ranges are listed.
  It contains the ASCII blanks (`isWhiteSpace_of_isWhitespace`), and neither
  the zero-width space nor the byte-order mark.
-/

namespace MacroLisp.Text

/-- The ranges of `White_Space`, both ends included. -/
def whiteSpaceRanges : List (Nat × Nat) :=
  [(0x9, 0xd), (0x20, 0x20), (0x85, 0x85), (0xa0, 0xa0), (0x1680, 0x1680), (0x2000, 0x200a),
    (0x2028, 0x2029), (0x202f, 0x202f), (0x205f, 0x205f), (0x3000, 0x3000)]

/-- Is `c` in one of the ranges `rs`? -/
def inRanges (rs : List (Nat × Nat)) (c : Char) : Bool :=
  rs.any fun r => decide (r.1 ≤ c.toNat) && decide (c.toNat ≤ r.2)

/-- Is `c` white space? -/
def isWhiteSpace (c : Char) : Bool :=
  inRanges whiteSpaceRanges c

/-- A text with nothing but white space in it. -/
def isBlank (s : String) : Bool :=
  s.toList.all isWhiteSpace

theorem inRanges_eq_true_iff {rs : List (Nat × Nat)} {c : Char} :
    inRanges rs c = true ↔ ∃ r ∈ rs, r.1 ≤ c.toNat ∧ c.toNat ≤ r.2 := by
  simp [inRanges]

/-- The blanks that core knows are white space. -/
theorem isWhiteSpace_of_isWhitespace {c : Char} (h : c.isWhitespace = true) :
    isWhiteSpace c = true := by
  simp only [Char.isWhitespace, Bool.or_eq_true, decide_eq_true_eq] at h
  rcases h with ((rfl | rfl) | rfl) | rfl <;> decide

end MacroLisp.Text
