import LoopCost.Cost.Entry

/-! Logarithms and powers of doubles. The two functions come from the platform and are given as a value, so
that what is said here holds for every platform; the special cases around them are fixed. -/

namespace LoopCost

structure Elementary where
  log2 : Float → Float
  pow : Float → Float → Float

/-- The functions of the platform the program runs on. -/
def Elementary.native : Elementary := { log2 := Float.log2, pow := Float.pow }

def infinity : Float := 1 / 0

/-- The logarithm of a size, zero for sizes up to one. -/
def logSize (math : Elementary) (x : Float) : Float :=
  let size := usable x
  if 1 < size then math.log2 size else 0

/-- Whether a double is an integer, and whether it is an odd one. -/
def isInteger (x : Float) : Bool := (signAndSize? x).any fun (_, size) => size.num % size.den == 0

def isOdd (x : Float) : Bool := isInteger x && (signAndSize? x).any fun (_, size) => size.floor % 2 == 1

/-- An infinite base to a power that is finite and not zero. -/
def infinitePower (base exponent : Float) : Float :=
  if 0 < exponent then (if isOdd exponent then base else infinity)
  else if isOdd exponent && base < 0 then -0.0
  else 0

/-- A finite base that is not zero to a finite power. A result whose size is out of range is infinite without
a sign; short of that a negative base has a power only for integers. -/
def finitePower (math : Elementary) (base exponent : Float) : Float :=
  let size := if base.abs == 1 then 1 else math.pow base.abs exponent
  if size.isInf then infinity
  else if base < 0 then
    if isOdd exponent then -size else if isInteger exponent then size else 0 / 0
  else size

/-- A power of doubles. Zero has no power below zero. -/
def power (math : Elementary) (base exponent : Float) : Except Fault Float :=
  if exponent == 0 then .ok 1
  else if base.isNaN then .ok base
  else if exponent.isNaN then .ok (if base == 1 then 1 else exponent)
  else if exponent.isInf then
    .ok (if base.abs == 1 then 1 else if decide (0 < exponent) == decide (1 < base.abs) then infinity else 0)
  else if base.isInf then .ok (infinitePower base exponent)
  else if base == 0 then
    if exponent < 0 then .error .zeroToNegativePower else .ok (if isOdd exponent then base else 0)
  else .ok (finitePower math base exponent)

/-- A power of entered numbers. An integer that is out of range makes it infinite. -/
def powerOfEntries (math : Elementary) (base exponent : Entry) : Except Fault Float :=
  match base.double?, exponent.double? with
  | .ok (some base), .ok (some exponent) => power math base exponent
  | .ok _, .ok _ => .ok 0
  | _, _ => .ok infinity

def factorial : Nat → Nat
  | 0 => 1
  | n + 1 => (n + 1) * factorial n

/-- The factorial of a size, rounded down before. From 171 on it is out of range. -/
def factorialSize (x : Float) : Float :=
  let n := (floorOf (usable x)).toNat
  if n > 170 then infinity else Float.ofNat (factorial n)

end LoopCost
