import LoadLedger.Text.Blank
import LoadLedger.Text.DecimalDigit

/-! # Integer numerals

Numerals are written in plain decimal. Reading is more tolerant: blanks around the numeral, a sign,
digits of any script, and single underscores between digits. A numeral of more than 4300 digits is
neither read nor written.
-/
namespace LoadLedger

/-- A piece of a text to be written. It is not written if a number that belongs to it has too many
digits. -/
structure Piece where
  text : Text
  numbersFit : Bool := true

namespace Numeral

def tooLong : Text :=
  "Exceeds the limit (4300 digits) for integer string conversion; use " ++
    "sys.set_int_max_str_digits() to increase the limit"

def digitLimit : Nat := 4300

def ofNat (n : Nat) : Text := (Nat.toDigits 10 n).map CodePoint.ofChar

def ofInt : Int → Text
  | .ofNat n => ofNat n
  | .negSucc n => CodePoint.minusSign :: ofNat (n + 1)

def fits (n : Int) : Bool := (ofNat n.natAbs).length ≤ digitLimit

/-- The values of the digits; an underscore stands only between two of them. -/
def digitValues? (afterDigit : Bool) : Text → Option (List Nat)
  | [] => if afterDigit then some [] else none
  | c :: rest =>
    match c.digit? with
    | some d => (digitValues? true rest).map (d :: ·)
    | none => if afterDigit ∧ c = CodePoint.underscore then digitValues? false rest else none

def value (digits : List Nat) : Nat := digits.foldl (fun n d => 10 * n + d) 0

/-- The sign in front of a numeral, true for minus, and what follows it. -/
def splitSign : Text → Bool × Text
  | [] => (false, [])
  | c :: rest =>
    if c = CodePoint.minusSign then (true, rest)
    else if c = CodePoint.plusSign then (false, rest)
    else (false, c :: rest)

def read? (text : Text) : Option Int :=
  let (negative, body) := splitSign (text.trim CodePoint.isNumeralBlank)
  match digitValues? false body with
  | none => none
  | some digits =>
    if digits.length ≤ digitLimit then
      some (if negative then -(value digits : Int) else value digits)
    else none

end Numeral
end LoadLedger
