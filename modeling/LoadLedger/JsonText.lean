import LoadLedger.Numeral
import LoadLedger.Text.Escape

/-! # JSON texts

Values are laid out with two blanks for each level, one item a line; an empty list or object stays
on its line. Only printable ASCII is written as it is.
-/
namespace LoadLedger

inductive JsonValue
  | bool (value : Bool)
  | int (value : Int)
  | text (value : Text)
  | list (items : List JsonValue)
  | object (members : List (Text × JsonValue))

namespace JsonValue

def escapes : List (Nat × Text) :=
  [(34, "\\\""), (92, "\\\\"), (8, "\\b"), (9, "\\t"), (10, "\\n"), (12, "\\f"), (13, "\\r")]

def escapedPoint (c : CodePoint) : Text :=
  match escapes.lookup c.val with
  | some escape => escape
  | none => if 32 ≤ c.val ∧ c.val < 127 then [c] else Text.escapeByUnits c

def quote (text : Text) : Text := "\"" ++ text.flatMap escapedPoint ++ "\""

/-- A line break and the blanks of a level. -/
def newLine (depth : Nat) : Text := CodePoint.lineFeed :: Text.spaces (2 * depth)

def enclose (opening closing : Text) (depth : Nat) (items : List Text) : Text :=
  if items.isEmpty then opening ++ closing
  else
    opening ++ newLine (depth + 1) ++ Text.join ("," ++ newLine (depth + 1)) items ++
      (newLine depth ++ closing)

mutual

def renderAt (depth : Nat) : JsonValue → Text
  | .bool value => if value then "true" else "false"
  | .int value => Numeral.ofInt value
  | .text value => quote value
  | .list items => enclose "[" "]" depth (renderItems (depth + 1) items)
  | .object members => enclose "\x7b" "\x7d" depth (renderMembers (depth + 1) members)

def renderItems (depth : Nat) : List JsonValue → List Text
  | [] => []
  | item :: items => renderAt depth item :: renderItems depth items

def renderMembers (depth : Nat) : List (Text × JsonValue) → List Text
  | [] => []
  | (name, value) :: members =>
    (quote name ++ ": " ++ renderAt depth value) :: renderMembers depth members

end

def render (value : JsonValue) : Text := renderAt 0 value

end JsonValue
end LoadLedger
