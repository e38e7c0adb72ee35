import LoopCost.Number.Fraction

/-! Operation counts for display. Great and tiny counts are written with two digits and a power of ten, counts
from a thousand on as integers in groups of three digits, and the others with at most two decimal places. -/

namespace LoopCost

/-- Puts a comma after every third digit that others follow. -/
def commaEachThird : List Char → List Char
  | a :: b :: c :: next :: rest => a :: b :: c :: ',' :: commaEachThird (next :: rest)
  | few => few

/-- Groups of three from the right, parted by commas. -/
def grouped (digits : List Char) : List Char := (commaEachThird digits.reverse).reverse

def signed (negative : Bool) (text : List Char) : List Char := if negative then '-' :: text else text

/-- Two significant digits times a power of ten. -/
def scientificText (size : Fraction) : List Char :=
  let digits := size.significant 2
  let all := Nat.toDigits 10 digits.digits
  let order := digits.unit + (all.length - 1 : Nat)
  all.take 1 ++ '.' :: (all.drop 1).take 1 ++ "x10^".toList ++ (toString order).toList

def groupedText (n : Int) : List Char := signed (n < 0) (grouped (Nat.toDigits 10 n.natAbs))

/-- Hundredths without the zeros at their end. -/
def plainText (hundredths : Nat) : List Char :=
  let whole := Nat.toDigits 10 (hundredths / 100)
  let tenths := Nat.toDigits 10 (hundredths / 10 % 10)
  let last := hundredths % 10
  if last ≠ 0 then whole ++ '.' :: tenths ++ Nat.toDigits 10 last
  else if hundredths / 10 % 10 ≠ 0 then whole ++ '.' :: tenths
  else whole

def countChars (x : Float) : List Char :=
  match signAndSize? x with
  | none => "Infinity".toList
  | some (negative, size) =>
    if 1000000 ≤ x.abs || (0 < x.abs && x.abs < 0.01) then signed negative (scientificText size)
    else if 1000 ≤ x.abs then groupedText (floorOf (x + 0.5))
    else signed negative (plainText (size.shift 2).round)

def countText (x : Float) : String := String.ofList (countChars x)

end LoopCost
