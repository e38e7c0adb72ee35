import LoopCost.Number.Layout
import LoopCost.Number.Reading
import LoopCost.Text.Quoted

/-! Sizes and limits as a user enters them. Anything that is not a finite number from zero on counts as zero;
only an integer beyond the range of doubles is refused. -/

namespace LoopCost

inductive Fault
  | unknownPreset (id : String)
  | notANumber (name value : String)
  | integerTooLarge
  | zeroToNegativePower
  deriving DecidableEq

def Fault.message : Fault → String
  | unknownPreset id => "Unknown complexity preset: " ++ id
  | notANumber name value => name ++ " must be a number, got " ++ quotedText value
  | integerTooLarge => "int too large to convert to float"
  | zeroToNegativePower => "0.0 cannot be raised to a negative power"

inductive Entry
  | text (value : String)
  | integer (value : Int)
  | double (value : Float)
  /-- A missing value, or one of a kind that is never a number. -/
  | other

/-- The number itself if it is finite and not negative, else zero. -/
def usable (x : Float) : Float := if x.isFinite && !(x < 0) then x else 0

namespace Entry

/-- The double nearest to an entry that is a number. -/
def double? : Entry → Except Fault (Option Float)
  | text value => .ok (doubleOfText? value.toList)
  | integer value =>
    match ofInteger? value with
    | some x => .ok (some x)
    | none => .error .integerTooLarge
  | double value => .ok (some value)
  | other => .ok none

def amount (entry : Entry) : Except Fault Float := (fun x => (x.map usable).getD 0) <$> entry.double?

def shown : Entry → String
  | text value => value
  | integer value => toString value
  | double value => fullText value
  | other => ""

end Entry

end LoopCost
