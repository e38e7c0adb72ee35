/-! Doubles as exact fractions, and fractions on decimal grids. All rounding of printed numbers happens here,
in integers: to the nearest point of the grid, a tie to the even one. -/

namespace LoopCost

open Float.Model (UnpackedFloat)

structure Fraction where
  num : Nat
  den : Nat

namespace Fraction

/-- The fraction times a power of ten. -/
def shift (fraction : Fraction) (power : Int) : Fraction :=
  { num := fraction.num * Nat.pow 10 power.toNat, den := fraction.den * Nat.pow 10 (-power).toNat }

def floor (fraction : Fraction) : Nat := fraction.num / fraction.den

/-- The nearest integer, of two the even one. -/
def round (fraction : Fraction) : Nat :=
  let low := fraction.floor
  let rest := 2 * (fraction.num % fraction.den)
  if rest > fraction.den ∨ rest = fraction.den ∧ low % 2 = 1 then low + 1 else low

/-- The power of ten of the first digit of a fraction that is not zero. -/
def order (fraction : Fraction) : Int :=
  let guess : Int := (Nat.toDigits 10 fraction.num).length - (Nat.toDigits 10 fraction.den).length
  let scaled := fraction.shift (-guess)
  if scaled.num < scaled.den then guess - 1 else guess

end Fraction

def unpack (x : Float) : UnpackedFloat := .unpack .binary64 x.toBits.toBitVec

/-- Sign and absolute value of a finite double. -/
def signAndSize? (x : Float) : Option (Bool × Fraction) :=
  match unpack x with
  | .zero sign => some (sign == .negative, { num := 0, den := 1 })
  | .finite sign mantissa exponent _ =>
    some (sign == .negative, { num := mantissa * Nat.pow 2 exponent.toNat, den := Nat.pow 2 (-exponent).toNat })
  | .infinity _ | .notANumber => none

/-- The greatest integer that is not above a finite double; zero for the others. -/
def floorOf (x : Float) : Int :=
  match signAndSize? x with
  | some (false, size) => size.floor
  | some (true, size) => -((size.num + size.den - 1) / size.den : Nat)
  | none => 0

/-- Decimal digits of a positive number: `digits` is what stands on the grid whose unit is ten to `unit`. -/
structure Digits where
  digits : Nat
  unit : Int

/-- A positive fraction rounded to so many significant digits. -/
def Fraction.significant (fraction : Fraction) (count : Nat) : Digits :=
  let unit := fraction.order - (count - 1 : Nat)
  { digits := (fraction.shift (-unit)).round, unit }

/-- The greatest double is 2 ^ 1024 - 2 ^ 971; from the middle between it and the next power of two on,
rounding leaves the range. -/
def doubleBound : Nat := Nat.pow 2 1024 - Nat.pow 2 970

/-- The double nearest to an integer, if it is in range. -/
def ofInteger? (n : Int) : Option Float :=
  if n.natAbs ≥ doubleBound then none
  else
    let size := Float.ofNat n.natAbs
    some (if n < 0 then -size else size)

end LoopCost
