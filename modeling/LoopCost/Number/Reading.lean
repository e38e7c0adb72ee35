import LoopCost.Number.Fraction
import LoopCost.Unicode.Blank
import LoopCost.Unicode.Numeric

/-! Numbers as people type them: a sign, digits with an optional point, an optional exponent, or the words for
infinity and for what is no number. Digits of every script count, and a single underscore may stand between
two digits. -/

namespace LoopCost

inductive Numeral
  /-- The mantissa times a power of ten. -/
  | finite (negative : Bool) (mantissa : Nat) (power : Int)
  | infinite (negative : Bool)
  | undefined

/-- Digits read so far: their value and how many they are. -/
structure DigitRun where
  value : Nat := 0
  count : Nat := 0

namespace DigitRun

def push (run : DigitRun) (digit : Nat) : DigitRun :=
  { value := run.value * 10 + digit, count := run.count + 1 }

/-- Reads digits as long as they come. An underscore is passed over between two of them; `afterDigit` says
that the character before is one. -/
def extend (run : DigitRun) (afterDigit : Bool) : List Char → DigitRun × List Char
  | [] => (run, [])
  | c :: rest =>
    match Unicode.decimalValue? c with
    | some digit => (run.push digit).extend true rest
    | none =>
      if c = '_' ∧ afterDigit ∧ (rest.head?.bind Unicode.decimalValue?).isSome then run.extend false rest
      else (run, c :: rest)

def ofText (text : List Char) : DigitRun × List Char := ({} : DigitRun).extend false text

end DigitRun

namespace Numeral

def readSign : List Char → Bool × List Char
  | '-' :: rest => (true, rest)
  | '+' :: rest => (false, rest)
  | text => (false, text)

/-- The exponent that ends a numeral; none is zero. -/
def readPower? : List Char → Option Int
  | [] => some 0
  | c :: rest =>
    if c = 'e' ∨ c = 'E' then
      let (negative, digits) := readSign rest
      let (run, after) := DigitRun.ofText digits
      if run.count = 0 ∨ !after.isEmpty then none
      else some (if negative then -run.value else run.value)
    else none

def readFinite? (negative : Bool) (text : List Char) : Option Numeral :=
  let (whole, rest) := DigitRun.ofText text
  let (all, after) :=
    match rest with
    | '.' :: fraction => whole.extend false fraction
    | _ => (whole, rest)
  if all.count = 0 then none
  else (readPower? after).map fun power => finite negative all.value (power - (all.count - whole.count : Nat))

/-- The white space that may stand around a numeral. The information separators are not part of it. -/
def isMargin (c : Char) : Bool := Unicode.isBlank c && !(0x1C ≤ c.toNat && c.toNat ≤ 0x1F)

def trimMargins (text : List Char) : List Char :=
  ((text.dropWhile isMargin).reverse.dropWhile isMargin).reverse

def ofText? (text : List Char) : Option Numeral :=
  let (negative, size) := readSign (trimMargins text)
  let letters := size.map Char.toLower
  if letters = "inf".toList ∨ letters = "infinity".toList then some (infinite negative)
  else if letters = "nan".toList then some undefined
  else readFinite? negative size

/-- Beyond these powers of ten every double is infinite or zero. -/
def powerLimit : Int := 400

def sizeToDouble (mantissa : Nat) (power : Int) : Float :=
  let order := power + (Nat.toDigits 10 mantissa).length
  if mantissa = 0 ∨ order < -powerLimit then 0
  else if order > powerLimit then 1 / 0
  else Float.ofScientific mantissa (power < 0) power.natAbs

/-- The nearest double. A number too great for any is infinite. -/
def toDouble : Numeral → Float
  | finite negative mantissa power =>
    if negative then -sizeToDouble mantissa power else sizeToDouble mantissa power
  | infinite negative => if negative then -(1 / 0) else 1 / 0
  | undefined => 0 / 0

end Numeral

def doubleOfText? (text : List Char) : Option Float := (Numeral.ofText? text).map Numeral.toDouble

end LoopCost
