import LoadLedger.Text

/-! # References to variables

Within a value, a name between braces behind a dollar sign stands for the value of that variable. A
default may follow the name behind a colon and a minus sign. What is not such a reference stands for
itself.
-/
namespace LoadLedger

structure Reference where
  name : Text
  default : Text := []
  deriving DecidableEq

namespace Reference

/-- The reference in front of a text, without its dollar sign, and its length. -/
def ofText? (text : Text) : Option (Reference × Nat) :=
  match text with
  | [] => none
  | brace :: rest =>
    let name := rest.takeWhile fun c => c ≠ CodePoint.closeBrace ∧ c ≠ CodePoint.colon
    if brace ≠ CodePoint.openBrace then none
    else match rest.drop name.length with
      | [] => none
      | c :: rest =>
        if c = CodePoint.closeBrace then some ({ name }, name.length + 2)
        else match rest with
          | [] => none
          | minus :: rest =>
            let default := rest.takeWhile (· ≠ CodePoint.closeBrace)
            if minus = CodePoint.minusSign ∧ default.length < rest.length then
              some ({ name, default }, name.length + default.length + 4)
            else none

/-- The names that a text refers to, and perhaps more. -/
def names : Text → List Text
  | [] => []
  | _ :: rest =>
    match ofText? rest with
    | some (reference, _) => reference.name :: names rest
    | none => names rest

/-- A text with its references replaced, past the first `skip` code points, which belong to a
reference that is replaced already. -/
def expandFrom (valueOf : Text → Option Text) (skip : Nat) : Text → Text
  | [] => []
  | c :: rest =>
    match skip with
    | skip + 1 => expandFrom valueOf skip rest
    | 0 =>
      match if c = CodePoint.dollarSign then ofText? rest else none with
      | some (reference, length) =>
        (valueOf reference.name).getD reference.default ++ expandFrom valueOf length rest
      | none => c :: expandFrom valueOf 0 rest

/-- A text with each reference replaced by the value of its variable, or by its default if there is
no such variable. -/
def expand (valueOf : Text → Option Text) (text : Text) : Text := expandFrom valueOf 0 text

end Reference
end LoadLedger
