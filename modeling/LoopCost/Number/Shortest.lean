import LoopCost.Number.Fraction

/-! The fewest decimal digits that tell a double from every other. On the grid of a given number of digits
only the two neighbours of the value can read back as it; the first grid on which one does settles the
number of digits, and of two the nearer is taken, at a tie the even one. -/

namespace LoopCost

def Digits.toDouble (digits : Digits) : Float :=
  Float.ofScientific digits.digits (digits.unit < 0) digits.unit.natAbs

/-- The point nearest to the size on a grid that reads back as it, of the two around the size. -/
def gridPoint? (x : Float) (size : Fraction) (count : Nat) : Option Digits :=
  let nearest := size.significant count
  let low := (size.shift (-nearest.unit)).floor
  let other := { nearest with digits := if nearest.digits = low then low + 1 else low }
  [nearest, other].find? fun digits => digits.toDouble == x

/-- Seventeen digits tell all doubles apart. -/
def shortest (x : Float) (size : Fraction) : Digits :=
  ((List.range 16).findSome? fun less => gridPoint? x size (less + 1)).getD (size.significant 17)

end LoopCost
