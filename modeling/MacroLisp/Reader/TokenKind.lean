/-
  The tokens of the language, and the cursor that its reader uses.

  Eleven kinds of token, one rule each.  White space and comments are trivia:
  they separate tokens and mean nothing.  The operations on a `Tokenizer` of
  these kinds come in a second form here, which passes over trivia.
-/
import MacroLisp.Lexing.Tiling
import MacroLisp.Lexing.Tokenizer

namespace MacroLisp

inductive TokenKind where
  | whiteSpace
  | comment
  | openParen
  | closeParen
  | number
  | quote
  | backquote
  | unquote
  | operator
  | symbol
  | string
deriving DecidableEq, Repr

namespace TokenKind

/-- White space and comments. -/
def isTrivia : TokenKind → Bool
  | whiteSpace | comment => true
  | _ => false

/-! ## Character classes -/

/-- The operators, each a token of its own. -/
def isOperator (c : Char) : Bool :=
  c ∈ ['<', '>', '=', '+', '-', '*', '/']

/-- The first characters of symbols: letters, and the marks of host access and
    of the boolean constants. -/
def isSymbolStart (c : Char) : Bool :=
  c.isAlpha || c ∈ ['!', '.', '#']

/-- The characters that continue a symbol. -/
def isSymbolRest (c : Char) : Bool :=
  c.isAlphanum || c ∈ ['_', '?']

/-! ## Rules -/

/-- What a token of each kind looks like. -/
def pattern : TokenKind → Pattern
  | whiteSpace => .run Text.isWhiteSpace
  | comment => .headed (· == ';') (· != '\n')
  | openParen => .one (· == '(')
  | closeParen => .one (· == ')')
  | number => .run Char.isDigit
  | quote => .one (· == '\x27')
  | backquote => .one (· == '\x60')
  | unquote => .one (· == ',')
  | operator => .one isOperator
  | symbol => .headed isSymbolStart isSymbolRest
  | string => .enclosed '"'

/-- All kinds, in the order in which their rules are tried. -/
def all : List TokenKind :=
  [whiteSpace, comment, openParen, closeParen, number, quote, backquote, unquote, operator,
    symbol, string]

/-- The rule table of the language. -/
def rules : List (Rule TokenKind) :=
  all.map fun kind => ⟨kind, kind.pattern⟩

end TokenKind

/-- A token that means something. -/
def Token.isSignificant (t : Token TokenKind) : Bool :=
  !t.kind.isTrivia

/-! ## The reader's cursor -/

/-- The cursor at the start of a source text. -/
def Tokenizer.ofSource (source : String) : Tokenizer TokenKind :=
  .ofString TokenKind.rules source

/-- Moves over trivia, and looks at the token behind it. -/
def Tokenizer.peekSignificant (t : Tokenizer TokenKind) :
    Except LexError (Option (Token TokenKind)) × Tokenizer TokenKind :=
  let t' := t.skipWhile (·.kind.isTrivia)
  (t'.peek, t')

/-- Moves over trivia and the token behind it, and answers that token. -/
def Tokenizer.consumeSignificant (t : Tokenizer TokenKind) :
    Except LexError (Option (Token TokenKind)) × Tokenizer TokenKind :=
  t.consume Token.isSignificant

theorem Tokenizer.length_rest_peekSignificant {t t' : Tokenizer TokenKind}
    {r : Except LexError (Option (Token TokenKind))} (h : t.peekSignificant = (r, t')) :
    t'.rest.length ≤ t.rest.length := by
  cases h
  exact length_rest_skipWhile_le _ t

/-- A significant token that is answered has been passed. -/
theorem Tokenizer.length_rest_consumeSignificant {t t' : Tokenizer TokenKind}
    {token : Token TokenKind} (h : t.consumeSignificant = (.ok (some token), t')) :
    t'.rest.length < t.rest.length := by
  obtain ⟨u, hu⟩ := exists_peek_of_consume (congrArg Prod.fst h)
  have hlt := length_rest_consume_lt Token.isSignificant hu
  rwa [← consumeSignificant, h] at hlt

/-- A token that has been looked at is passed by the next `consumeSignificant`. -/
theorem Tokenizer.length_rest_consume_peeked {t t₁ t₂ : Tokenizer TokenKind}
    {token : Token TokenKind} {r : Except LexError (Option (Token TokenKind))}
    (h : t.peekSignificant = (.ok (some token), t₁)) (h' : t₁.consumeSignificant = (r, t₂)) :
    t₂.rest.length < t.rest.length := by
  have hle := length_rest_peekSignificant h
  obtain ⟨hpeek, rfl⟩ := Prod.mk.inj h
  have hlt := length_rest_consume_lt Token.isSignificant hpeek
  rw [← consumeSignificant, h'] at hlt
  exact Nat.lt_of_lt_of_le hlt hle

/-- The next element of the stream of significant tokens. -/
def Tokenizer.nextSignificant (t : Tokenizer TokenKind) :
    Option (Except LexError (Token TokenKind)) × Tokenizer TokenKind :=
  t.nextWhere Token.isSignificant

/-- The tiling of a source text. -/
def Tiling.ofSource (source : String) : Tiling TokenKind :=
  .ofString TokenKind.rules source

/-- The tokens of a tiling that mean something. -/
def Tiling.significant (t : Tiling TokenKind) : List (Token TokenKind) :=
  t.tokens.filter Token.isSignificant

end MacroLisp
