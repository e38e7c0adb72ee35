import LoopCost.Text.Quoted

/-! Text from bytes. Bytes that are no UTF-8 make malformed sequences, each the longest piece that a well-formed
one could start with. Where text is read leniently a malformed sequence becomes a replacement character, and
where it is read strictly the first one is a fault. Every kind of line break becomes a line feed. -/

namespace LoopCost

/-- How a sequence goes on after its first byte: the value so far, the range of the next byte, and how many
more come after that. -/
structure Lead where
  value : Nat
  low : Nat
  high : Nat
  more : Nat

/-- The first byte settles the length of a sequence, and the range of its second byte shuts out overlong
forms, surrogates and what lies beyond U+10FFFF. -/
def lead? (byte : Nat) : Option Lead :=
  if 0xC2 ≤ byte ∧ byte ≤ 0xDF then some ⟨byte - 0xC0, 0x80, 0xBF, 0⟩
  else if byte = 0xE0 then some ⟨0, 0xA0, 0xBF, 1⟩
  else if byte = 0xED then some ⟨0xD, 0x80, 0x9F, 1⟩
  else if 0xE1 ≤ byte ∧ byte ≤ 0xEF then some ⟨byte - 0xE0, 0x80, 0xBF, 1⟩
  else if byte = 0xF0 then some ⟨0, 0x90, 0xBF, 2⟩
  else if 0xF1 ≤ byte ∧ byte ≤ 0xF3 then some ⟨byte - 0xF0, 0x80, 0xBF, 2⟩
  else if byte = 0xF4 then some ⟨4, 0x80, 0x8F, 2⟩
  else none

/-- Why bytes are no UTF-8: the first byte of a sequence that is malformed, where the sequence starts and stops,
and what is wrong with it. -/
structure DecodeFault where
  byte : Nat
  start : Nat
  stop : Nat
  reason : String

def DecodeFault.message (fault : DecodeFault) : String :=
  let place :=
    if fault.stop = fault.start + 1 then
      "byte 0x" ++ String.ofList (hexDigits 2 fault.byte) ++ " in position " ++ toString fault.start
    else "bytes in position " ++ toString fault.start ++ "-" ++ toString (fault.stop - 1)
  "'utf-8' codec can't decode " ++ place ++ ": " ++ fault.reason

/-- A sequence of bytes, as it is found. -/
inductive Sequence
  | char (c : Char)
  | malformed (fault : DecodeFault)

/-- A sequence that waits for its next byte. -/
structure Begun where
  byte : Nat
  start : Nat
  lead : Lead

structure Decoder where
  position : Nat := 0
  begun : Option Begun := none

namespace Decoder

/-- Gives up a sequence that has begun and does not go on. -/
def giveUp (decoder : Decoder) (reason : String) : List Sequence :=
  match decoder.begun with
  | none => []
  | some begun => [.malformed ⟨begun.byte, begun.start, decoder.position, reason⟩]

/-- Reads the first byte of a sequence. -/
def first (decoder : Decoder) (byte : Nat) : List Sequence × Option Begun :=
  if byte < 0x80 then ([.char (Char.ofNat byte)], none)
  else match lead? byte with
    | some lead => ([], some { byte, start := decoder.position, lead })
    | none =>
      ([.malformed ⟨byte, decoder.position, decoder.position + 1, "invalid start byte"⟩], none)

/-- Reads a byte. One that a sequence does not go on with is the first of the next sequence. -/
def read (decoder : Decoder) (byte : Nat) : List Sequence × Option Begun :=
  match decoder.begun with
  | none => decoder.first byte
  | some begun =>
    let lead := begun.lead
    if lead.low ≤ byte ∧ byte ≤ lead.high then
      let value := lead.value * 64 + (byte - 0x80)
      match lead.more with
      | 0 => ([.char (Char.ofNat value)], none)
      | more + 1 => ([], some { begun with lead := ⟨value, 0x80, 0xBF, more⟩ })
    else
      let (found, begun) := decoder.first byte
      (decoder.giveUp "invalid continuation byte" ++ found, begun)

def next (decoder : Decoder) (byte : Nat) : Decoder :=
  { position := decoder.position + 1, begun := (decoder.read byte).2 }

/-- Decodes on behind the sequences found already, which are kept in reverse. -/
def run (decoder : Decoder) (found : List Sequence) : List UInt8 → List Sequence
  | [] => (decoder.giveUp "unexpected end of data" ++ found).reverse
  | byte :: rest => (decoder.next byte.toNat).run ((decoder.read byte.toNat).1.reverse ++ found) rest

end Decoder

def sequences (bytes : List UInt8) : List Sequence := Decoder.run {} [] bytes

namespace Sequence

def lenient : Sequence → Char
  | char c => c
  | malformed _ => Char.ofNat 0xFFFD

def strict : Sequence → Except DecodeFault Char
  | char c => .ok c
  | malformed fault => .error fault

end Sequence

/-- Copies on behind the lines read already, which are kept in reverse. `afterReturn` means that a line feed
belongs to the line break before it. -/
def unifyLinesFrom (lines : List Char) (afterReturn : Bool) : List Char → List Char
  | [] => lines.reverse
  | c :: rest =>
    if c = '\r' then unifyLinesFrom ('\n' :: lines) true rest
    else if c = '\n' ∧ afterReturn then unifyLinesFrom lines false rest
    else unifyLinesFrom (c :: lines) false rest

/-- Carriage returns, alone or before a line feed, become line feeds. -/
def unifyLines (text : List Char) : List Char := unifyLinesFrom [] false text

def decode (bytes : List UInt8) : List Char := unifyLines ((sequences bytes).map Sequence.lenient)

/-- Decodes bytes that have to be UTF-8. The first malformed sequence is the fault. -/
def decodeStrict (bytes : List UInt8) : Except DecodeFault (List Char) :=
  unifyLines <$> (sequences bytes).mapM Sequence.strict

end LoopCost
