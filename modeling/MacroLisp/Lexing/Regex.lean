/-
  Patterns written as text, without groups: alternatives of sequences of
  character sets, each set taken once or repeated.

  A set is a character, `.` (all but the line feed), `\s` (white space) or a
  class in brackets, with ranges, `\s`, and `^` for all other characters; it
  may be followed by `?`, `*` or `+`.  A backslash takes the meaning from the
  character after it, and `\n`, `\r` and `\t` are the control characters.
  The first alternative that matches wins, and a repetition takes as much as
  the sequence after it allows.
-/
import MacroLisp.Lexing.Rule

namespace MacroLisp

/-- A set of characters: those in the ranges, the white space if `blanks`, or
    all others if `complement`. -/
structure CharSet where
  ranges : List (Char × Char)
  blanks : Bool
  complement : Bool
deriving DecidableEq, Repr

def CharSet.contains (s : CharSet) (c : Char) : Bool :=
  (s.ranges.any (fun r => decide (r.1 ≤ c) && decide (c ≤ r.2)) || (s.blanks && Text.isWhiteSpace c))
    != s.complement

/-- How often a set is taken. -/
inductive Repetition where
  | once
  | optional
  | zeroOrMore
  | oneOrMore
deriving DecidableEq, Repr

/-- The least number of characters to take. -/
def Repetition.least : Repetition → Nat
  | once | oneOrMore => 1
  | optional | zeroOrMore => 0

/-- The greatest number of characters to take where `run` are available. -/
def Repetition.greatest : Repetition → Nat → Nat
  | once, run | optional, run => min 1 run
  | zeroOrMore, run | oneOrMore, run => run

/-- A set with its repetition. -/
structure Piece where
  set : CharSet
  times : Repetition
deriving DecidableEq, Repr

/-- The alternatives of a pattern, each a sequence of pieces. -/
structure Regex where
  alternatives : List (List Piece)
deriving DecidableEq, Repr

namespace Regex

/-- The length that a sequence of pieces takes: each piece as much as possible,
    and less where the pieces after it would fail. -/
def sequenceLength? : List Piece → Pattern
  | [], _ => some 0
  | piece :: pieces, rest =>
    let run := (rest.takeWhile piece.set.contains).length
    let most := piece.times.greatest run
    (List.range (most + 1 - piece.times.least)).findSome? fun fewer =>
      (sequenceLength? pieces (rest.drop (most - fewer))).map (most - fewer + ·)

/-- The length that the first matching alternative takes. -/
def pattern (r : Regex) : Pattern := fun rest =>
  r.alternatives.findSome? (sequenceLength? · rest)

/-! ## Reading patterns -/

/-- The set of one character. -/
def single (c : Char) : CharSet := ⟨[(c, c)], false, false⟩

/-- The characters that stand for themselves only after a backslash. -/
def isSpecial (c : Char) : Bool :=
  c ∈ ['\\', '.', '+', '*', '?', '(', ')', '|', '[', ']', '\x7b', '\x7d', '^', '$', '-', '&', '~', '#']

/-- The character that a backslash before `c` denotes. -/
def unescape? (c : Char) : Option Char :=
  if c = 'n' then some '\n'
  else if c = 'r' then some '\r'
  else if c = 't' then some '\t'
  else if isSpecial c then some c
  else none

/-- The inside of a class up to its bracket, and what follows it.  `none` where
    the class has no end, or holds a character that needs a backslash there. -/
def readClass (s : CharSet) : List Char → Option (CharSet × List Char)
  | [] => none
  | ']' :: rest => some (s, rest)
  | '\\' :: 's' :: rest => readClass { s with blanks := true } rest
  | '\\' :: c :: rest => do
    let c ← unescape? c
    readClass { s with ranges := (c, c) :: s.ranges } rest
  | low :: '-' :: high :: rest =>
    if isSpecial low || isSpecial high || high < low then none
    else readClass { s with ranges := (low, high) :: s.ranges } rest
  | c :: rest =>
    if c ∈ ['[', '\\', '-', '&', '~'] then none
    else readClass { s with ranges := (c, c) :: s.ranges } rest

/-- The first set of the text, and what follows it. -/
def readSet : List Char → Option (CharSet × List Char)
  | [] => none
  | '.' :: rest => some ({ single '\n' with complement := true }, rest)
  | '\\' :: 's' :: rest => some (⟨[], true, false⟩, rest)
  | '\\' :: c :: rest => (unescape? c).map (single ·, rest)
  | '[' :: ']' :: _ | '[' :: '^' :: ']' :: _ => none
  | '[' :: '^' :: rest => readClass ⟨[], false, true⟩ rest
  | '[' :: rest => readClass ⟨[], false, false⟩ rest
  | c :: rest =>
    if c ∈ ['+', '*', '?', '(', ')', '\x7b', '^', '$', '\\'] then none
    else some (single c, rest)

/-- The repetition at the start of the text, and what follows it. -/
def readRepetition : List Char → Repetition × List Char
  | '?' :: rest => (.optional, rest)
  | '*' :: rest => (.zeroOrMore, rest)
  | '+' :: rest => (.oneOrMore, rest)
  | rest => (.once, rest)

/-- Reads the alternatives; `pieces` are those of the current one so far, the
    last first.  Each round takes a character at least, so `fuel` rounds are
    enough for a text of that length. -/
def readAlternatives : Nat → List Piece → List Char → Option (List (List Piece))
  | _, pieces, [] => some [pieces.reverse]
  | 0, _, _ => none
  | fuel + 1, pieces, '|' :: rest =>
    (readAlternatives fuel [] rest).map (pieces.reverse :: ·)
  | fuel + 1, pieces, rest => do
    let (set, rest) ← readSet rest
    let (times, rest) := readRepetition rest
    readAlternatives fuel (⟨set, times⟩ :: pieces) rest

/-- The pattern that a text describes, `none` if it describes none or has
    groups. -/
def ofText? (text : String) : Option Regex :=
  (readAlternatives text.length [] text.toList).map Regex.mk

end Regex

/-- A rule from the text of its pattern. -/
def Rule.ofPattern? {κ : Type} (kind : κ) (text : String) : Option (Rule κ) :=
  (Regex.ofText? text).map fun r => ⟨kind, r.pattern⟩

end MacroLisp
