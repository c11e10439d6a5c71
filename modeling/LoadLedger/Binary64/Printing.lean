import LoadLedger.Binary64
import LoadLedger.Numeral

/-! # Printing real numbers

The short form has the fewest digits that read back as the same number, and among those the ones
nearest to it. The fixed form has two decimals.
-/
namespace LoadLedger.Binary64

/-- The decimal exponent of the leading digit of a positive fraction. -/
def leadingPower (num den : Nat) : Int :=
  let guess : Int := (Nat.toDigits 10 num).length - (Nat.toDigits 10 den).length
  let (n, d) := scale 10 (-guess) num den
  if d ≤ n then guess else guess - 1

/-- The decimal with `count` digits nearest to a number, if one of its two neighbours with so many
digits reads back as the number: coefficient and power of ten. -/
def decimal? (mantissa : Nat) (exponent : Int) (count : Nat) : Option (Nat × Int) :=
  let (num, den) := ratio mantissa exponent
  let power := leadingPower num den - (count - 1 : Nat)
  let (n, d) := scale 10 (-power) num den
  let low := n / d
  let readsBack (c : Nat) : Bool := ofDecimal false c power == .finite false mantissa exponent
  let nearest := roundQuotient n d
  let other := if nearest = low then low + 1 else low
  if readsBack nearest then some (nearest, power)
  else if readsBack other then some (other, power)
  else none

/-- The shortest decimal that reads back; seventeen digits always do. -/
def shortest (mantissa : Nat) (exponent : Int) : Nat × Int :=
  ((List.range 17).findSome? fun n => decimal? mantissa exponent (n + 1)).getD (0, 0)

def trimZeros (digits : Text) : Text := digits.trimEnd (· = CodePoint.digitZero)

def zeros (n : Nat) : Text := List.replicate n CodePoint.digitZero

/-- Lays out digits whose point stands behind the first one, times a power of ten. Powers from -4 to
15 are written out; others take an exponent of at least two digits. -/
def layOut (digits : Text) (power : Int) : Text :=
  let point : Text := "."
  if power < -4 ∨ 16 ≤ power then
    let fraction := digits.drop 1
    let sign : Text := if power < 0 then "-" else "+"
    let exponent := Numeral.ofNat power.natAbs
    digits.take 1 ++ (if fraction.isEmpty then [] else point ++ fraction) ++ "e" ++ sign ++
      (zeros (2 - exponent.length) ++ exponent)
  else if power < 0 then "0." ++ zeros (power.natAbs - 1) ++ digits
  else
    let whole := power.natAbs + 1
    let fraction := digits.drop whole
    digits.take whole ++ zeros (whole - digits.length) ++ point ++
      (if fraction.isEmpty then zeros 1 else fraction)

def signMark (negative : Bool) : Text := if negative then "-" else ""

def short : Binary64 → Text
  | .nan => "nan"
  | .infinite negative => signMark negative ++ "inf"
  | .finite negative mantissa exponent =>
    if mantissa = 0 then signMark negative ++ "0.0"
    else
      let (coefficient, power) := shortest mantissa exponent
      let digits := Numeral.ofNat coefficient
      signMark negative ++ layOut (trimZeros digits) (power + digits.length - 1)

/-- Two decimals, ties to the even hundredth. -/
def fixed : Binary64 → Text
  | .nan => "nan"
  | .infinite negative => signMark negative ++ "inf"
  | .finite negative mantissa exponent =>
    let (num, den) := ratio mantissa exponent
    let hundredths := roundQuotient (num * 100) den
    let cents := Numeral.ofNat (hundredths % 100)
    signMark negative ++ Numeral.ofNat (hundredths / 100) ++ "." ++
      (zeros (2 - cents.length) ++ cents)

end LoadLedger.Binary64
