/-! # Double-precision numbers

A finite number is kept as an exact mantissa and power of two, so that rounding, reading and
printing are integer arithmetic. Rounding goes to the nearest number, ties to the even mantissa.
-/
namespace LoadLedger

/-- A finite number is `mantissa * 2 ^ exponent`, with its sign. -/
inductive Binary64
  | finite (negative : Bool) (mantissa : Nat) (exponent : Int)
  | infinite (negative : Bool)
  | nan
  deriving DecidableEq

namespace Binary64

def zero : Binary64 := .finite false 0 (-1074)

instance : Inhabited Binary64 := ⟨zero⟩

/-- Numerator and denominator after multiplying by `base ^ exponent`. -/
def scale (base : Nat) (exponent : Int) (num den : Nat) : Nat × Nat :=
  match exponent with
  | .ofNat n => (num * base.pow n, den)
  | .negSucc n => (num, den * base.pow (n + 1))

/-- The nearest integer to a quotient; a tie goes to the even one. -/
def roundQuotient (num den : Nat) : Nat :=
  let q := num / den
  let r := num % den
  if 2 * r < den then q
  else if den < 2 * r then q + 1
  else if q % 2 = 0 then q else q + 1

def leastMantissa : Nat := Nat.pow 2 52

/-- The number nearest to `num / den`. -/
def ofRatio (negative : Bool) (num den : Nat) : Binary64 :=
  if num = 0 then .finite negative 0 (-1074)
  else
    let guess : Int := (num.log2 : Int) - den.log2 - 52
    let (n, d) := scale 2 (-guess) num den
    let exponent := max (-1074) (if n / d < leastMantissa then guess - 1 else guess)
    let (n, d) := scale 2 (-exponent) num den
    let mantissa := roundQuotient n d
    let (mantissa, exponent) :=
      if mantissa = 2 * leastMantissa then (leastMantissa, exponent + 1) else (mantissa, exponent)
    if exponent > 971 then .infinite negative else .finite negative mantissa exponent

/-- The number nearest to `coefficient * 10 ^ exponent`. Decimals far outside the range are settled
by their magnitude alone. -/
def ofDecimal (negative : Bool) (coefficient : Nat) (exponent : Int) : Binary64 :=
  let magnitude : Int := (Nat.toDigits 10 coefficient).length + exponent
  if coefficient = 0 ∨ magnitude < -330 then .finite negative 0 (-1074)
  else if magnitude > 310 then .infinite negative
  else
    let (num, den) := scale 10 exponent coefficient 1
    ofRatio negative num den

/-- The absolute value of a finite number as a fraction. -/
def ratio (mantissa : Nat) (exponent : Int) : Nat × Nat := scale 2 exponent mantissa 1

/-- The number itself if it is above zero, and zero otherwise, also for what is not a number. -/
def clampBelow : Binary64 → Binary64
  | .finite false m e => if m = 0 then zero else .finite false m e
  | .infinite false => .infinite false
  | _ => zero

end Binary64
end LoadLedger
