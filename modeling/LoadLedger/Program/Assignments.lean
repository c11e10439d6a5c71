import LoadLedger.Text.Blank
import LoadLedger.TextMap

/-! # Files of assignments

Such a file gives values to names, one assignment a line: `NAME=value`. A value may stand between
quotes, where it may hold line ends and a backslash escapes; otherwise it ends at the end of the
line or at a number sign behind a blank. A name alone is declared without a value. Lines that are
neither are skipped.
-/
namespace LoadLedger.Assignments

abbrev Assignment := Text × Option Text

def isLineEnd (c : CodePoint) : Bool := c = CodePoint.lineFeed || c = CodePoint.carriageReturn

def isInlineBlank (c : CodePoint) : Bool := c.isBlank && !isLineEnd c

/-- What stands up to the closing quote, and what follows it. A backslash takes the code point after
it along, so that one closes nothing. -/
def takeQuoted (quote : CodePoint) : Text → Option (Text × Text)
  | [] => none
  | [c] => if c = quote then some ([], []) else none
  | c :: d :: rest =>
    if c = quote then some ([], d :: rest)
    else if c = CodePoint.backslash then
      (takeQuoted quote rest).map fun (value, rest) => (c :: d :: value, rest)
    else (takeQuoted quote (d :: rest)).map fun (value, rest) => (c :: value, rest)

/-- The letters that a backslash may escape between double quotes, with what they stand for. -/
def doubleEscapes : List (CodePoint × CodePoint) :=
  [(92, 92), (39, 39), (34, 34), (97, 7), (98, 8), (102, 12), (110, 10), (114, 13), (116, 9),
   (118, 11)]

def singleEscapes : List (CodePoint × CodePoint) := [(92, 92), (39, 39)]

def unescape (escapes : List (CodePoint × CodePoint)) : Text → Text
  | [] => []
  | [c] => [c]
  | c :: d :: rest =>
    match if c = CodePoint.backslash then escapes.lookup d else none with
    | some e => e :: unescape escapes rest
    | none => c :: unescape escapes (d :: rest)

/-- An unquoted value up to the blanks in front of a number sign. -/
def dropRemark : Text → Text
  | [] => []
  | c :: rest =>
    if c.isBlank && (rest.dropWhile CodePoint.isBlank).head? = some CodePoint.numberSign then []
    else c :: dropRemark rest

/-- The value behind an equals sign, and what follows it. If a quote does not close, the text from
that quote on is given back. -/
def takeValue (text : Text) : Except Text (Text × Text) :=
  let start := text.dropWhile isInlineBlank
  let quoted (quote : CodePoint) (escapes : List (CodePoint × CodePoint)) (rest : Text) :
      Except Text (Text × Text) :=
    match takeQuoted quote rest with
    | none => .error start
    | some (value, rest) => .ok (unescape escapes value, rest)
  let unquoted : Text × Text :=
    ((dropRemark (text.takeWhile (!isLineEnd ·))).trim CodePoint.isBlank,
      text.dropWhile (!isLineEnd ·))
  match start with
  | [] => .ok unquoted
  | c :: rest =>
    if c = CodePoint.singleQuote then quoted c singleEscapes rest
    else if c = CodePoint.doubleQuote then quoted c doubleEscapes rest
    else .ok unquoted

def takeAnyValue (text : Text) : Except Text (Option Text × Text) :=
  match text.dropStart? [CodePoint.equalsSign] with
  | none => .ok (none, text)
  | some text => (takeValue text).map fun (value, rest) => (some value, rest)

/-- The text behind a line end, if only blanks and a remark stand before it. -/
def endLine? (text : Text) : Option Text :=
  let rest := text.dropWhile isInlineBlank
  let rest :=
    if rest.head? = some CodePoint.numberSign then rest.dropWhile (!isLineEnd ·) else rest
  match rest with
  | [] => some []
  | c :: rest => if isLineEnd c then some rest else none

def takeKey (text : Text) : Option (Text × Text) :=
  match text with
  | [] => none
  | c :: rest =>
    if c = CodePoint.singleQuote then
      let key := rest.takeWhile (· ≠ CodePoint.singleQuote)
      if key.isEmpty || key.length = rest.length then none
      else some (key, rest.drop (key.length + 1))
    else
      let inKey (c : CodePoint) : Bool :=
        !c.isBlank && c != CodePoint.equalsSign && c != CodePoint.numberSign
      let key := text.takeWhile inKey
      if key.isEmpty then none else some (key, text.dropWhile inKey)

def dropExport (text : Text) : Text :=
  match text.dropStart? "export" with
  | none => text
  | some rest =>
    if (rest.head?.map isInlineBlank).getD false then rest.dropWhile isInlineBlank else text

/-- An assignment in front of a text, and the text behind its line; or the text from where there is
no assignment any more. -/
def takeAssignment (text : Text) : Except Text (Assignment × Text) :=
  let start := dropExport text
  match takeKey start with
  | none => .error start
  | some (key, rest) =>
    match takeAnyValue (rest.dropWhile isInlineBlank) with
    | .error rest => .error rest
    | .ok (value, rest) =>
      match endLine? rest with
      | none => .error rest
      | some rest => .ok ((key, value), rest)

/-- The assignments of a text in their order; `fuel` bounds the number of lines. -/
def parseFrom : (fuel : Nat) → Text → List Assignment
  | 0, _ => []
  | fuel + 1, text =>
    match text.dropWhile CodePoint.isBlank with
    | [] => []
    | text =>
      match takeAssignment text with
      | .ok (assignment, rest) => assignment :: parseFrom fuel rest
      | .error rest => parseFrom fuel (rest.dropWhile (!isLineEnd ·))

def parse (text : Text) : List Assignment := parseFrom (text.length + 1) text

end LoadLedger.Assignments
