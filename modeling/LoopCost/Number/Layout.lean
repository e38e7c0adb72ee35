import LoopCost.Number.Shortest

/-! How digits are laid out. Very small and very great numbers have an exponent of at least two digits; the
others are written with a point where it belongs. Zeros at the end of the digits are not written. -/

namespace LoopCost

/-- Where exponents begin, and whether an integer shows that it is a double. -/
structure Layout where
  greatOrder : Int
  keepsPoint : Bool

namespace Layout

/-- For a double that has to be recognised again. -/
def full : Layout := { greatOrder := 16, keepsPoint := true }

/-- For a double at a glance, with six digits. -/
def brief : Layout := { greatOrder := 6, keepsPoint := false }

def trimZeros (digits : List Char) : List Char := (digits.reverse.dropWhile (· == '0')).reverse

def twoDigits (n : Nat) : List Char := if n < 10 then '0' :: Nat.toDigits 10 n else Nat.toDigits 10 n

/-- The first digit alone, the others after a point. -/
def withExponent (digits : List Char) (order : Int) : List Char :=
  let mantissa :=
    match digits with
    | first :: second :: more => first :: '.' :: second :: more
    | single => single
  mantissa ++ 'e' :: (if order < 0 then '-' else '+') :: twoDigits order.natAbs

/-- The point after so many digits as the order says. -/
def withPoint (layout : Layout) (digits : List Char) (order : Int) : List Char :=
  let whole := (order + 1).toNat
  if order < 0 then "0.".toList ++ List.replicate (-(order + 1)).toNat '0' ++ digits
  else if digits.length ≤ whole then
    digits ++ List.replicate (whole - digits.length) '0' ++ (if layout.keepsPoint then ".0".toList else [])
  else digits.take whole ++ '.' :: digits.drop whole

def digitsText (layout : Layout) (digits : Digits) : List Char :=
  let all := Nat.toDigits 10 digits.digits
  let order := digits.unit + (all.length - 1 : Nat)
  if order < -4 ∨ order ≥ layout.greatOrder then withExponent (trimZeros all) order
  else layout.withPoint (trimZeros all) order

/-- The text of a double whose size the given function turns into digits. -/
def text (layout : Layout) (choose : Fraction → Digits) (x : Float) : List Char :=
  match signAndSize? x with
  | some (negative, size) =>
    (if negative then ['-'] else []) ++
      (if size.num = 0 then (if layout.keepsPoint then "0.0".toList else ['0'])
      else layout.digitsText (choose size))
  | none => if x.isNaN then "nan".toList else if x < 0 then "-inf".toList else "inf".toList

end Layout

/-- The shortest text that reads back as the double. -/
def fullText (x : Float) : String := String.ofList (Layout.full.text (shortest x.abs) x)

def briefText (x : Float) : String := String.ofList (Layout.brief.text (·.significant 6) x)

end LoopCost
