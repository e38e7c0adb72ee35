import LoopCost.Unicode.Ranges

/-! White space: the bidirectional classes B, S and WS and the category Zs of Unicode 14. The four
information separators from U+001C on belong to it; the zero-width space and the byte order mark do not. -/

namespace LoopCost.Unicode

def blanks : Ranges := [
  (0x9, 0xD), (0x1C, 0x20), (0x85, 0x85), (0xA0, 0xA0), (0x1680, 0x1680),
  (0x2000, 0x200A), (0x2028, 0x2029), (0x202F, 0x202F), (0x205F, 0x205F), (0x3000, 0x3000)]

def isBlank (c : Char) : Bool := blanks.contains c.toNat

/-- The text without the white space at its ends. -/
def trim (text : List Char) : List Char :=
  ((text.dropWhile isBlank).reverse.dropWhile isBlank).reverse

def isBlankText (text : List Char) : Bool := text.all isBlank

end LoopCost.Unicode
