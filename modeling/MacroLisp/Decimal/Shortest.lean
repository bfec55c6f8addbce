/-
  The shortest decimal that reads back as a given binary number.

  A positive double stands for every real that rounds to it: an interval
  around its exact value (`Around`), which contains its ends when the
  mantissa is even, because ties go to even.  Among the decimals in the
  interval the fewest digits win, and among those the nearest to the exact
  value; of two that are equally near, the greater.

  All arithmetic is on natural numbers: an interval is kept as numerators
  over a common denominator, and a decimal grid (the multiples of a power of
  ten) is compared with it after clearing denominators.
-/

namespace MacroLisp

/-- The number `digits * 10 ^ exponent`. -/
structure Decimal where
  digits : Nat
  exponent : Int
deriving DecidableEq, Repr

namespace Decimal

/-- The interval from `low / den` to `high / den` around `mid / den`; its ends
    belong to it iff `closed`. -/
structure Around where
  low : Nat
  mid : Nat
  high : Nat
  den : Nat
  closed : Bool

/-- The reals that round to `mantissa * 2 ^ exponent`.  Neighbours are one
    unit of the mantissa away; below the first mantissa of a binade
    (`atBinade`) they are half as far. -/
def Around.ofBinary (mantissa : Nat) (exponent : Int) (atBinade : Bool) : Around :=
  let scale := 1 <<< (exponent - 2).toNat
  { low := (4 * mantissa - if atBinade then 1 else 2) * scale
    mid := 4 * mantissa * scale
    high := (4 * mantissa + 2) * scale
    den := 1 <<< (2 - exponent).toNat
    closed := mantissa % 2 == 0 }

/-- The least mantissa of 53 bits; a double stores the 52 bits below it. -/
def leadingBit : Nat := 1 <<< 52

/-- The interval of the positive finite double with these bits. -/
def Around.ofBits (bits : Nat) : Around :=
  let fraction : Nat := bits % leadingBit
  let biased : Nat := bits / leadingBit
  if biased = 0 then .ofBinary fraction (-1074) false
  else .ofBinary (leadingBit + fraction) ((biased : Int) - 1075) (fraction == 0 && biased != 1)

/-- The number of decimal digits of `n`, one for `0`. -/
def digitCount (n : Nat) : Nat :=
  (Nat.toDigits 10 n).length

/-- The power `p` of ten with `10 ^ (p - 1) ≤ mid / den < 10 ^ p`. -/
def Around.magnitude (a : Around) : Int :=
  if a.den ≤ a.mid then digitCount (a.mid / a.den)
  else 1 - (digitCount ((a.den + a.mid - 1) / a.mid - 1) : Int)

/-- Is `point / unit` in the interval, where `unit` is the size of the
    denominators once `a` is multiplied by `scale`? -/
def Around.contains (a : Around) (scale point : Nat) : Bool :=
  if a.closed then decide (a.low * scale ≤ point) && decide (point ≤ a.high * scale)
  else decide (a.low * scale < point) && decide (point < a.high * scale)

/-- The multiple of `10 ^ exponent` in the interval that is nearest to the
    middle, if there is one.  Only the two neighbours of the middle matter:
    if any multiple is in the interval, so is one of them. -/
def Around.onGrid? (a : Around) (exponent : Int) : Option Decimal :=
  let scale := Nat.pow 10 (-exponent).toNat
  let unit := a.den * Nat.pow 10 exponent.toNat
  let exact := a.mid * scale
  let below := exact / unit
  let above := below + 1
  match a.contains scale (below * unit), a.contains scale (above * unit) with
  | true, true =>
    if exact - below * unit < above * unit - exact then some ⟨below, exponent⟩
    else some ⟨above, exponent⟩
  | true, false => some ⟨below, exponent⟩
  | false, true => some ⟨above, exponent⟩
  | false, false => none

/-- Moves up to `fuel` trailing zeros of the digits into the exponent. -/
def dropZeros : Nat → Decimal → Decimal
  | 0, d => d
  | fuel + 1, d =>
    if d.digits % 10 = 0 then dropZeros fuel ⟨d.digits / 10, d.exponent + 1⟩ else d

/-- The most digits that a double needs. -/
def maxDigits : Nat := 17

/-- The shortest decimal of the interval: the first grid, from coarse to fine,
    that has a point in it. -/
def Around.shortest (a : Around) : Decimal :=
  let p := a.magnitude
  let hit := (List.range maxDigits).findSome? fun (n : Nat) => a.onGrid? (p - (n + 1))
  dropZeros (maxDigits + 1) (hit.getD ⟨a.mid / a.den, 0⟩)

end Decimal

end MacroLisp
