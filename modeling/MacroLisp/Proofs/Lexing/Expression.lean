/-
  The rules of the language, as regular expressions.

  Four shapes of patterns make up the table: one character, a run, a head with
  a tail, and a text between two delimiters.  Each is what a sequence of
  character sets takes (`sequenceLength?_once`, `_oneOrMore`, `_headed`,
  `_enclosed`), where only the last shape ever has to give characters back.

  * `TokenKind.ofPattern?_expression`: every rule is the rule of the expression
    that describes its tokens.
-/
import MacroLisp.Lexing.Regex
import MacroLisp.Proofs.Lexing.Shape
import Mathlib.Data.Char
import Mathlib.Tactic.Tauto

namespace MacroLisp

namespace Regex

variable {s q : CharSet} {p : Char → Bool} {pieces : List Piece} {c : Char} {cs rest : List Char}

/-! ## Sequences -/

/-- A set that is taken once leaves the rest to the pieces after it. -/
theorem sequenceLength?_once_cons :
    sequenceLength? (⟨s, .once⟩ :: pieces) (c :: cs) =
      if s.contains c then (sequenceLength? pieces cs).map (1 + ·) else none := by
  rw [sequenceLength?]
  cases hc : s.contains c with
  | false => simp [hc, Repetition.least, Repetition.greatest]
  | true => simp [hc, Repetition.least, Repetition.greatest, List.range_succ]

/-- The last piece takes as much as it can. -/
theorem sequenceLength?_last (piece : Piece) :
    sequenceLength? [piece] rest =
      if piece.times.least ≤ piece.times.greatest (rest.takeWhile piece.set.contains).length then
        some (piece.times.greatest (rest.takeWhile piece.set.contains).length)
      else none := by
  rw [sequenceLength?]
  generalize piece.times.greatest (rest.takeWhile piece.set.contains).length = most
  split
  · obtain ⟨n, hn⟩ : ∃ n, most + 1 - piece.times.least = n + 1 :=
      ⟨most - piece.times.least, by omega⟩
    simp [hn, List.range_succ_eq_map, sequenceLength?]
  · simp [show most + 1 - piece.times.least = 0 by omega]

theorem sequenceLength?_once : sequenceLength? [⟨s, .once⟩] rest = Pattern.one s.contains rest := by
  cases rest with
  | nil => rfl
  | cons c cs =>
    rw [sequenceLength?_once_cons]
    simp [sequenceLength?, Pattern.one]

theorem sequenceLength?_oneOrMore :
    sequenceLength? [⟨s, .oneOrMore⟩] rest = Pattern.run s.contains rest := by
  rw [sequenceLength?_last]
  cases rest with
  | nil => rfl
  | cons c cs =>
    cases hc : s.contains c <;>
      simp [hc, Pattern.run, Repetition.least, Repetition.greatest, Nat.add_comm]

theorem sequenceLength?_headed :
    sequenceLength? [⟨s, .once⟩, ⟨q, .zeroOrMore⟩] rest =
      Pattern.headed s.contains q.contains rest := by
  cases rest with
  | nil => rfl
  | cons c cs =>
    rw [sequenceLength?_once_cons, sequenceLength?_last]
    simp [Pattern.headed, Repetition.least, Repetition.greatest]

/-- All characters but `d`, and then `d`: what has been taken is given back
    only where there is no `d` at all, and then in vain. -/
theorem sequenceLength?_until {d : Char} (hs : s.contains = (· == d)) (hq : q.contains = (· != d)) :
    sequenceLength? [⟨q, .zeroOrMore⟩, ⟨s, .once⟩] rest =
      if d ∈ rest then some ((rest.takeWhile (· != d)).length + 1) else none := by
  rw [sequenceLength?]
  simp only [Repetition.least, Repetition.greatest, hq, Nat.sub_zero]
  generalize hmost : (rest.takeWhile (· != d)).length = most
  split
  next hd =>
    obtain ⟨before, after, rfl, hbefore⟩ := List.eq_append_cons_of_mem hd
    have hlen : before.length = most := by rw [← hmost, TokenKind.takeWhile_ne_append hbefore]
    rw [List.range_succ_eq_map, List.findSome?_cons]
    simp [← hlen, sequenceLength?_once, hs, Pattern.one]
  next hd =>
    rw [List.findSome?_eq_none_iff]
    intro fewer _
    rw [sequenceLength?_once, hs]
    rcases hrest : rest.drop (most - fewer) with _ | ⟨c, cs⟩
    · rfl
    · have hc : c ∈ rest := List.mem_of_mem_drop (hrest ▸ List.mem_cons_self)
      have hne : c ≠ d := by rintro rfl; exact hd hc
      simp [Pattern.one, hne]

theorem sequenceLength?_enclosed {d : Char} (hs : s.contains = (· == d))
    (hq : q.contains = (· != d)) :
    sequenceLength? [⟨s, .once⟩, ⟨q, .zeroOrMore⟩, ⟨s, .once⟩] rest = Pattern.enclosed d rest := by
  cases rest with
  | nil => rfl
  | cons c cs =>
    rw [sequenceLength?_once_cons, sequenceLength?_until hs hq, hs]
    by_cases hc : c = d <;> by_cases hd : d ∈ cs <;> simp [Pattern.enclosed, hc, hd]
    omega

end Regex

/-! ## Character sets -/

namespace CharSet

theorem le_and_le_iff {a c : Char} : a ≤ c ∧ c ≤ a ↔ c = a :=
  ⟨fun h => le_antisymm h.2 h.1, fun h => h ▸ ⟨le_rfl, le_rfl⟩⟩

/-- The characters of a set without `^`. -/
theorem contains_iff {ranges : List (Char × Char)} {blanks : Bool} {c : Char} :
    (⟨ranges, blanks, false⟩ : CharSet).contains c = true ↔
      (∃ r ∈ ranges, r.1 ≤ c ∧ c ≤ r.2) ∨ (blanks = true ∧ Text.isWhiteSpace c = true) := by
  simp [contains]

theorem contains_single (d : Char) : (Regex.single d).contains = (· == d) := by
  funext c
  rw [Bool.eq_iff_iff, Regex.single, contains_iff]
  simp [le_and_le_iff]

theorem contains_blanks : (⟨[], true, false⟩ : CharSet).contains = Text.isWhiteSpace := by
  funext c
  simp [contains]

theorem contains_except (d : Char) : (⟨[(d, d)], false, true⟩ : CharSet).contains = (· != d) := by
  funext c
  have h := congrFun (contains_single d) c
  simp only [contains, Regex.single, Bool.bne_false, Bool.bne_true] at h ⊢
  rw [h]
  rfl

theorem isDigit_iff {c : Char} : c.isDigit = true ↔ '0' ≤ c ∧ c ≤ '9' :=
  Char.isDigit_iff_toNat

theorem isAlpha_iff {c : Char} : c.isAlpha = true ↔ ('A' ≤ c ∧ c ≤ 'Z') ∨ ('a' ≤ c ∧ c ≤ 'z') :=
  TokenKind.isAlpha_iff_toNat

end CharSet

namespace TokenKind

/-- The regular expression of a kind. -/
def expression : TokenKind → String
  | whiteSpace => "\\s+"
  | comment => ";[^\\n]*"
  | openParen => "\\("
  | closeParen => "\\)"
  | number => "[0-9]+"
  | quote => "\x27"
  | backquote => "\x60"
  | unquote => ","
  | operator => "[<>=+\\-*/]"
  | symbol => "[A-Za-z!.#][A-Za-z0-9_?]*"
  | string => "\"[^\"]*\""

/-- The pieces of the expression. -/
def pieces : TokenKind → List Piece
  | whiteSpace => [⟨⟨[], true, false⟩, .oneOrMore⟩]
  | comment => [⟨Regex.single ';', .once⟩, ⟨⟨[('\n', '\n')], false, true⟩, .zeroOrMore⟩]
  | openParen => [⟨Regex.single '(', .once⟩]
  | closeParen => [⟨Regex.single ')', .once⟩]
  | number => [⟨⟨[('0', '9')], false, false⟩, .oneOrMore⟩]
  | quote => [⟨Regex.single '\x27', .once⟩]
  | backquote => [⟨Regex.single '\x60', .once⟩]
  | unquote => [⟨Regex.single ',', .once⟩]
  | operator => [⟨⟨['/', '*', '-', '+', '=', '>', '<'].map fun c => (c, c), false, false⟩, .once⟩]
  | symbol =>
    [⟨⟨[('#', '#'), ('.', '.'), ('!', '!'), ('a', 'z'), ('A', 'Z')], false, false⟩, .once⟩,
      ⟨⟨[('?', '?'), ('_', '_'), ('0', '9'), ('a', 'z'), ('A', 'Z')], false, false⟩, .zeroOrMore⟩]
  | string =>
    [⟨Regex.single '"', .once⟩, ⟨⟨[('"', '"')], false, true⟩, .zeroOrMore⟩,
      ⟨Regex.single '"', .once⟩]

theorem ofText?_expression (kind : TokenKind) :
    Regex.ofText? kind.expression = some ⟨[kind.pieces]⟩ := by
  cases kind <;> decide

theorem contains_digits : (⟨[('0', '9')], false, false⟩ : CharSet).contains = Char.isDigit := by
  funext c
  rw [Bool.eq_iff_iff, CharSet.contains_iff, CharSet.isDigit_iff]
  simp

theorem contains_operators :
    (⟨['/', '*', '-', '+', '=', '>', '<'].map fun c => (c, c), false, false⟩ : CharSet).contains =
      isOperator := by
  funext c
  rw [Bool.eq_iff_iff, CharSet.contains_iff]
  simp only [List.mem_map, exists_exists_and_eq_and, CharSet.le_and_le_iff, Bool.false_eq_true,
    false_and, or_false, isOperator, decide_eq_true_eq]
  simp only [List.mem_cons, List.not_mem_nil, or_false, exists_eq_or_imp, exists_eq_left]
  tauto

theorem contains_symbolStart :
    (⟨[('#', '#'), ('.', '.'), ('!', '!'), ('a', 'z'), ('A', 'Z')], false, false⟩ :
      CharSet).contains = isSymbolStart := by
  funext c
  rw [Bool.eq_iff_iff, CharSet.contains_iff, isSymbolStart, Bool.or_eq_true, CharSet.isAlpha_iff]
  simp only [List.mem_cons, List.not_mem_nil, or_false, exists_eq_or_imp, exists_eq_left,
    CharSet.le_and_le_iff, Bool.false_eq_true, false_and, decide_eq_true_eq]
  tauto

theorem contains_symbolRest :
    (⟨[('?', '?'), ('_', '_'), ('0', '9'), ('a', 'z'), ('A', 'Z')], false, false⟩ :
      CharSet).contains = isSymbolRest := by
  funext c
  rw [Bool.eq_iff_iff, CharSet.contains_iff, isSymbolRest, Char.isAlphanum, Bool.or_eq_true,
    Bool.or_eq_true, CharSet.isAlpha_iff, CharSet.isDigit_iff]
  simp only [List.mem_cons, List.not_mem_nil, or_false, exists_eq_or_imp, exists_eq_left,
    CharSet.le_and_le_iff, Bool.false_eq_true, false_and, decide_eq_true_eq]
  tauto

/-- The pieces take what the pattern takes. -/
theorem sequenceLength?_pieces (kind : TokenKind) (rest : List Char) :
    Regex.sequenceLength? kind.pieces rest = kind.pattern rest := by
  cases kind with
  | whiteSpace => rw [pieces, Regex.sequenceLength?_oneOrMore, CharSet.contains_blanks, pattern]
  | comment =>
    rw [pieces, Regex.sequenceLength?_headed, CharSet.contains_single, CharSet.contains_except,
      pattern]
  | openParen | closeParen | quote | backquote | unquote =>
    rw [pieces, Regex.sequenceLength?_once, CharSet.contains_single, pattern]
  | number => rw [pieces, Regex.sequenceLength?_oneOrMore, contains_digits, pattern]
  | operator => rw [pieces, Regex.sequenceLength?_once, contains_operators, pattern]
  | symbol =>
    rw [pieces, Regex.sequenceLength?_headed, contains_symbolStart, contains_symbolRest, pattern]
  | string =>
    rw [pieces, pattern]
    exact Regex.sequenceLength?_enclosed (CharSet.contains_single _) (CharSet.contains_except _)

/-- **Every rule is the rule of its expression.** -/
theorem ofPattern?_expression (kind : TokenKind) :
    Rule.ofPattern? kind kind.expression = some ⟨kind, kind.pattern⟩ := by
  have hpattern : (⟨[kind.pieces]⟩ : Regex).pattern = kind.pattern := by
    funext rest
    simp [Regex.pattern, sequenceLength?_pieces]
  rw [Rule.ofPattern?, ofText?_expression, Option.map_some, hpattern]

end TokenKind

end MacroLisp
