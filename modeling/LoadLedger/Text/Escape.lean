import LoadLedger.Text

/-! # Escape sequences

Code points written by number: a backslash, a letter that tells the width, and lower-case
hexadecimal digits.
-/
namespace LoadLedger.Text

def hexDigit (n : Nat) : CodePoint :=
  CodePoint.ofNat (if n < 10 then 48 + n else 87 + n)

def hex : (width n : Nat) → Text
  | 0, _ => []
  | width + 1, n => hexDigit (n / Nat.pow 16 width % 16) :: hex width n

/-- Two, four or eight digits, as many as the code point needs. -/
def escapeByWidth (c : CodePoint) : Text :=
  if c.val < 0x100 then "\\x" ++ hex 2 c.val
  else if c.val < 0x10000 then "\\u" ++ hex 4 c.val
  else "\\U" ++ hex 8 c.val

/-- Four digits for each 16-bit unit; a code point past U+FFFF takes two units. -/
def escapeByUnits (c : CodePoint) : Text :=
  if c.val < 0x10000 then "\\u" ++ hex 4 c.val
  else
    let n := c.val - 0x10000
    "\\u" ++ hex 4 (0xD800 + n / 0x400) ++ ("\\u" ++ hex 4 (0xDC00 + n % 0x400))

end LoadLedger.Text
