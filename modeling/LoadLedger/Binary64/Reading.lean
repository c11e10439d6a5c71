import LoadLedger.Binary64
import LoadLedger.Numeral

/-! # Reading real numbers

A real number is a sign, digits with at most one point among them, and an optional power of ten; or
one of the words `inf`, `infinity` and `nan`. Blanks around it and single underscores between digits
are allowed.
-/
namespace LoadLedger.Binary64

/-- Removes the underscores, each of which must stand between two digits. -/
def ungroup? (afterDigit : Bool) : Text → Option Text
  | [] => some []
  | c :: rest =>
    if c = CodePoint.underscore then
      if afterDigit && (rest.head?.bind CodePoint.digit?).isSome then ungroup? false rest else none
    else (ungroup? c.digit?.isSome rest).map (c :: ·)

def takeDigits : Text → List Nat × Text
  | [] => ([], [])
  | c :: rest =>
    match c.digit? with
    | some d => let (digits, rest) := takeDigits rest; (d :: digits, rest)
    | none => ([], c :: rest)

def readPower? : Text → Option Int
  | [] => some 0
  | c :: rest =>
    if c = 101 ∨ c = 69 then
      let (negative, body) := Numeral.splitSign rest
      match takeDigits body with
      | ([], _) => none
      | (digits, []) =>
        some (if negative then -(Numeral.value digits : Int) else Numeral.value digits)
      | _ => none
    else none

def readWord? (negative : Bool) (body : Text) : Option Binary64 :=
  let word : Text := body.map fun c =>
    if 65 ≤ c.val ∧ c.val ≤ 90 then CodePoint.ofNat (c.val + 32) else c
  if word = "inf" ∨ word = "infinity" then some (.infinite negative)
  else if word = "nan" then some .nan
  else none

def read? (text : Text) : Option Binary64 := do
  let bare ← ungroup? false (text.trim CodePoint.isNumeralBlank)
  let (negative, body) := Numeral.splitSign bare
  let (whole, rest) := takeDigits body
  let (fraction, rest) := match rest with
    | [] => ([], [])
    | c :: after => if c = CodePoint.point then takeDigits after else ([], c :: after)
  if whole.isEmpty && fraction.isEmpty then readWord? negative body
  else
    let power ← readPower? rest
    return ofDecimal negative (Numeral.value (whole ++ fraction)) (power - fraction.length)

end LoadLedger.Binary64
