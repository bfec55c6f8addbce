/-
  Reading: from tokens to syntax trees.

  The reader takes the tokens from left to right and keeps a stack of what is
  still open: lists that wait for their parenthesis, and quote marks that wait
  for the form they quote.  A form that is complete goes to the innermost of
  these, or to the forms read so far if nothing is open.

  * `'x`, `` `x `` and `,x` are read as the lists `(quote x)`, `(backquote x)`
    and `(unquote x)`;
  * at most `maxNesting` lists and quote marks are open at any point where a
    form starts;
  * the first token that does not fit decides the error.
-/
import MacroLisp.Expr
import MacroLisp.Reader.ReadError
import MacroLisp.Reader.TokenKind

namespace MacroLisp

namespace Reader

/-- How many lists and quote marks may be open where a form starts. -/
def maxNesting : Nat := 512

/-- What is still open, with its offset. -/
inductive Pending where
  /-- A list with its items so far, the last first. -/
  | list (pos : Nat) (items : List Expr)
  /-- A quote mark that stands for the form `name`. -/
  | mark (pos : Nat) (name : String)

/-- What has been read: the complete forms, the last first, and the stack of
    what is open, the innermost first. -/
structure State where
  forms : List Expr
  stack : List Pending

def State.initial : State := ⟨[], []⟩

/-- Adds a complete form.  A quote mark takes it and is complete itself. -/
def State.add (forms : List Expr) : List Pending → Expr → State
  | [], e => ⟨e :: forms, []⟩
  | .list pos items :: stack, e => ⟨forms, .list pos (e :: items) :: stack⟩
  | .mark _ name :: stack, e => State.add forms stack (.list [.symbol name, e])

/-! ## Atoms -/

/-- The text between the quotes of a string literal. -/
def unquoted? (text : String) : Option String :=
  match text.toList with
  | '"' :: rest => if rest.getLast? = some '"' then some (String.ofList rest.dropLast) else none
  | _ => none

/-- The form that a single token is, if it is one. -/
def atom? (t : Token TokenKind) : Option Expr :=
  match t.kind with
  | .number => (Number.ofLiteral? t.text).map .number
  | .string => (unquoted? t.text).map .string
  | .symbol | .operator => some (.symbol t.text)
  | _ => none

/-- The form that a quote mark stands for. -/
def markName? : TokenKind → Option String
  | .quote => some "quote"
  | .backquote => some "backquote"
  | .unquote => some "unquote"
  | _ => none

/-! ## The run over the tokens -/

/-- A closing parenthesis ends the innermost list. -/
def close (s : State) (pos : Nat) : Except ReadError State :=
  match s.stack with
  | [] => .error (.unexpectedClose pos)
  | .mark markPos _ :: _ => .error (.danglingQuote markPos)
  | .list _ items :: stack => .ok (State.add s.forms stack (.list items.reverse))

/-- Any other significant token starts a form. -/
def start (s : State) (t : Token TokenKind) : Except ReadError State :=
  if maxNesting ≤ s.stack.length then .error (.tooDeep t.pos maxNesting)
  else if t.kind = .openParen then .ok { s with stack := .list t.pos [] :: s.stack }
  else match markName? t.kind with
    | some name => .ok { s with stack := .mark t.pos name :: s.stack }
    | none =>
      match atom? t with
      | some e => .ok (State.add s.forms s.stack e)
      | none => .error (.malformedAtom t.pos t.text)

/-- One significant token. -/
def step (s : State) (t : Token TokenKind) : Except ReadError State :=
  if t.kind = .closeParen then close s t.pos else start s t

theorem step_of_close {s : State} {t : Token TokenKind} (h : t.kind = .closeParen) :
    step s t = close s t.pos := if_pos h

theorem step_of_ne {s : State} {t : Token TokenKind} (h : t.kind ≠ .closeParen) :
    step s t = start s t := if_neg h

/-- The forms at the end of the text, where nothing may be open. -/
def finish (s : State) : Ending → Except ReadError (List Expr)
  | .stuck e => .error (.lexical e)
  | .covered _ =>
    match s.stack with
    | [] => .ok s.forms.reverse
    | .mark pos _ :: _ => .error (.danglingQuote pos)
    | .list pos _ :: _ => .error (.unterminatedList pos)

/-- The forms of a sequence of significant tokens with the given end. -/
def readTokens (tokens : List (Token TokenKind)) (ending : Ending) :
    Except ReadError (List Expr) := do
  finish (← tokens.foldlM step .initial) ending

end Reader

/-- The forms of a source text. -/
def read (source : String) : Except ReadError (List Expr) :=
  let tiling := Tiling.ofSource source
  Reader.readTokens tiling.significant tiling.ending

end MacroLisp
