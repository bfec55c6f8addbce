/-
  The text of a double.  Which digits are shown is settled in
  `Decimal/Shortest`; a `Layout` says how: which exponents are written
  positionally, what marks a whole number and an exponent, and what the two
  values without digits are called.
-/
import MacroLisp.Decimal.Shortest

namespace MacroLisp

/-- How doubles are written. -/
structure Layout where
  /-- The least power of ten of the first digit that is written positionally. -/
  leastPositional : Int
  /-- The greatest power of ten of the first digit that is written
      positionally. -/
  greatestPositional : Int
  /-- What follows a positional text without fraction. -/
  wholeSuffix : String
  /-- What stands between digits and exponent otherwise. -/
  exponentMark : String
  notANumber : String
  infinite : String

namespace Layout

/-- `n` zeros. -/
def zeros (n : Nat) : List Char :=
  List.replicate n '0'

/-- The digits with the point among them; `point` is the number of digits
    before it, which may be negative or exceed the digits there are. -/
def positional (l : Layout) (digits : List Char) (point : Int) : String :=
  if point ≤ 0 then String.ofList ('0' :: '.' :: zeros (-point).toNat ++ digits)
  else if digits.length ≤ point then
    String.ofList (digits ++ zeros (point.toNat - digits.length)) ++ l.wholeSuffix
  else String.ofList (digits.take point.toNat ++ '.' :: digits.drop point.toNat)

/-- One digit before the point, the others after it, and the power of ten. -/
def scientific (l : Layout) (digits : List Char) (point : Int) : String :=
  let fraction := digits.drop 1
  String.ofList (digits.take 1 ++ if fraction.isEmpty then [] else '.' :: fraction)
    ++ l.exponentMark ++ toString (point - 1)

/-- The text of a decimal. -/
def decimal (l : Layout) (d : Decimal) : String :=
  let digits := Nat.toDigits 10 d.digits
  let point := digits.length + d.exponent
  if l.leastPositional ≤ point - 1 ∧ point - 1 ≤ l.greatestPositional then
    l.positional digits point
  else l.scientific digits point

/-- The text of a double without its sign, from its bits. -/
def magnitude (l : Layout) (bits : Nat) : String :=
  if bits = 0 then l.positional ['0'] 1
  else l.decimal (Decimal.Around.ofBits bits).shortest

/-- The bit that a double has iff it is negative. -/
def signBit : Nat := 1 <<< 63

/-- The bits of positive infinity. -/
def infinityBits : Nat := 0x7ff <<< 52

/-- The text of a double. -/
def text (l : Layout) (x : Float) : String :=
  if x.isNaN then l.notANumber
  else
    let bits := x.toBits.toNat
    let sign := if signBit ≤ bits then "-" else ""
    let unsigned := bits % signBit
    sign ++ if unsigned = infinityBits then l.infinite else l.magnitude unsigned

end Layout

end MacroLisp
