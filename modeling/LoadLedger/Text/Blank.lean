import LoadLedger.Text

/-! # White space

Two classes of white space: the one removed at the ends of a field, and the smaller one allowed
around a numeral, which leaves out the four information separators U+001C to U+001F.
-/
namespace LoadLedger

def CodePoint.isBlank (c : CodePoint) : Bool :=
  let n := c.val
  (9 ≤ n && n ≤ 13) || (28 ≤ n && n ≤ 32) || n == 0x85 || n == 0xA0 || n == 0x1680 ||
  (0x2000 ≤ n && n ≤ 0x200A) || n == 0x2028 || n == 0x2029 || n == 0x202F || n == 0x205F ||
  n == 0x3000

def CodePoint.isNumeralBlank (c : CodePoint) : Bool :=
  c.isBlank && !(28 ≤ c.val && c.val ≤ 31)

def Text.strip (text : Text) : Text := text.trim CodePoint.isBlank

def Text.isBlank (text : Text) : Bool := text.all CodePoint.isBlank

end LoadLedger
