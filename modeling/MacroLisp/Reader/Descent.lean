/-
  Reading by recursion.

  The grammar as functions that call each other and move one cursor over the
  text.  A form begins with a token that has been taken; a list takes tokens
  until its parenthesis; a quote mark looks at the token behind it and takes it
  only if a form can begin there.  A lexical error shows when the cursor gets
  to it, in the middle of a form or between forms.

  This is `read` without the stack of what is open: the calls that are under
  way are the stack, and `depth` is how many they are.
-/
import MacroLisp.Reader.Basic

namespace MacroLisp

namespace Reader

/-- A cursor that is at `t` or behind it. -/
abbrev Onward (t : Tokenizer TokenKind) : Type :=
  { t' : Tokenizer TokenKind // t'.rest.length ≤ t.rest.length }

namespace Descent

mutual

/-- The form that begins with `token`, which the cursor has just passed. -/
def form (depth : Nat) (token : Token TokenKind) (t : Tokenizer TokenKind) :
    Except ReadError (Expr × Onward t) :=
  if maxNesting ≤ depth then .error (.tooDeep token.pos maxNesting)
  else if token.kind = .closeParen then .error (.unexpectedClose token.pos)
  else if token.kind = .openParen then do
    let (es, t') ← items (depth + 1) token.pos t
    return (.list es, t')
  else match markName? token.kind with
    | some name => do
      let (e, t') ← quoted (depth + 1) token.pos t
      return (.list [.symbol name, e], t')
    | none =>
      match atom? token with
      | some e => .ok (e, ⟨t, Nat.le_refl _⟩)
      | none => .error (.malformedAtom token.pos token.text)
termination_by (t.rest.length, 1)

/-- The items of the list that was opened at `opening`, up to its parenthesis. -/
def items (depth opening : Nat) (t : Tokenizer TokenKind) :
    Except ReadError (List Expr × Onward t) :=
  match h : t.consumeSignificant with
  | (.error e, _) => .error (.lexical e)
  | (.ok none, _) => .error (.unterminatedList opening)
  | (.ok (some token), t₁) =>
    have h₁ := Tokenizer.length_rest_consumeSignificant h
    if token.kind = .closeParen then .ok ([], ⟨t₁, Nat.le_of_lt h₁⟩)
    else do
      let (e, ⟨t₂, h₂⟩) ← form depth token t₁
      let (es, ⟨t₃, h₃⟩) ← items depth opening t₂
      return (e :: es, ⟨t₃, by omega⟩)
termination_by (t.rest.length, 0)

/-- The form behind the quote mark at `mark`. -/
def quoted (depth mark : Nat) (t : Tokenizer TokenKind) : Except ReadError (Expr × Onward t) :=
  match h : t.peekSignificant with
  | (.error e, _) => .error (.lexical e)
  | (.ok none, _) => .error (.danglingQuote mark)
  | (.ok (some token), t₁) =>
    if token.kind = .closeParen then .error (.danglingQuote mark)
    else match h' : t₁.consumeSignificant with
      | (.error e, _) => .error (.lexical e)
      | (.ok _, t₂) =>
        have h₂ := Tokenizer.length_rest_consume_peeked h h'
        do
        let (e, ⟨t₃, h₃⟩) ← form depth token t₂
        return (e, ⟨t₃, by omega⟩)
termination_by (t.rest.length, 0)

end

/-- All forms from the cursor on. -/
def forms (t : Tokenizer TokenKind) : Except ReadError (List Expr) :=
  match h : t.consumeSignificant with
  | (.error e, _) => .error (.lexical e)
  | (.ok none, _) => .ok []
  | (.ok (some token), t₁) =>
    have _ := Tokenizer.length_rest_consumeSignificant h
    do
    let (e, ⟨t₂, _⟩) ← form 0 token t₁
    let es ← forms t₂
    return e :: es
termination_by t.rest.length

end Descent

/-- The forms of a source text, by recursion. -/
def descend (source : String) : Except ReadError (List Expr) :=
  Descent.forms (.ofSource source)

end Reader

end MacroLisp
