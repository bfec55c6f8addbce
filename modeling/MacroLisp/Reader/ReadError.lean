/-
  Why a source text has no reading, and the words for it.

  Offsets are those of the token at fault: the one that is in the wrong place,
  or the opening one that is left without its end.
-/
import MacroLisp.Lexing.Token

namespace MacroLisp

inductive ReadError where
  | lexical (e : LexError)
  | unexpectedClose (pos : Nat)
  | unterminatedList (pos : Nat)
  | danglingQuote (pos : Nat)
  | malformedAtom (pos : Nat) (text : String)
  | tooDeep (pos : Nat) (depth : Nat)
deriving DecidableEq, Repr

def ReadError.message : ReadError → String
  | lexical e => e.message
  | unexpectedClose pos => "unexpected ')' at offset " ++ toString pos
  | unterminatedList pos => "list opened at offset " ++ toString pos ++ " is never closed"
  | danglingQuote pos => "quote at offset " ++ toString pos ++ " has nothing to quote"
  | malformedAtom pos text =>
    "malformed atom " ++ Text.quoted text ++ " at offset " ++ toString pos
  | tooDeep pos depth =>
    "form at offset " ++ toString pos ++ " is nested deeper than " ++ toString depth

end MacroLisp
