/-
  Tokens, and the error that reports a place where there is none.

  Offsets count the bytes of the text in UTF-8.
-/
import MacroLisp.Text.Quoted

namespace MacroLisp

/-- A piece of source text with its kind and its offset. -/
structure Token (κ : Type) where
  kind : κ
  text : String
  pos : Nat
deriving DecidableEq, Repr

/-- The source cannot be cut into tokens beyond `pos`, where `found` stands. -/
structure LexError where
  pos : Nat
  found : String
deriving DecidableEq, Repr

/-- The most characters that an error shows of what it found. -/
def LexError.shownLength : Nat := 16

/-- What an error shows of the text at the cursor: its first characters, up to
    white space. -/
def LexError.shown (rest : List Char) : String :=
  String.ofList ((rest.takeWhile (!Text.isWhiteSpace ·)).take LexError.shownLength)

def LexError.message (e : LexError) : String :=
  "unrecognized input " ++ Text.quoted e.found ++ " at offset " ++ toString e.pos

end MacroLisp
