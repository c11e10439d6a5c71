import LoadLedger.Text.Escape
import LoadLedger.Text.Printable

/-! # Quoted texts

The form in which a text is shown inside a message: between single quotes, or between double quotes
when it holds a single quote and no double quote. Backslashes, the quote in use and unprintable
code points are escaped.
-/
namespace LoadLedger.Text

def quoteMark (text : Text) : CodePoint :=
  if text.contains CodePoint.singleQuote && !text.contains CodePoint.doubleQuote then
    CodePoint.doubleQuote
  else CodePoint.singleQuote

def quotedPoint (mark c : CodePoint) : Text :=
  if c = mark ∨ c = CodePoint.backslash then [CodePoint.backslash, c]
  else if c = 9 then "\\t"
  else if c = CodePoint.lineFeed then "\\n"
  else if c = CodePoint.carriageReturn then "\\r"
  else if c.isPrintable then [c]
  else escapeByWidth c

def quoted (text : Text) : Text :=
  let mark := quoteMark text
  mark :: text.flatMap (quotedPoint mark) ++ [mark]

end LoadLedger.Text
