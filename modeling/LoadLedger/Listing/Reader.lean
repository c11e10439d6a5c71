import LoadLedger.LineFeed
import LoadLedger.Listing

/-! # Reading a listing

A line either begins a package, or names a dex file of the package begun last; the line after a
dex file must hold its data. Instruction sets outside the vocabulary are dropped with a remark, and
so is a dex file that is left without any. A later package line of the same name starts the
package afresh.
-/
namespace LoadLedger.Listing

/-- What a reader has to say about a listing that it accepts in part. -/
inductive Remark
  | unsupportedIsa (isa : Isa)
  | noSupportedIsa (path : Text)
  deriving DecidableEq

inductive ReadError
  | format (error : FormatError)
  | decode (error : Utf8.DecodeError)
  deriving DecidableEq

def ReadError.message : ReadError → Text
  | .format error => error.message
  | .decode error => error.message

structure Reading (α : Type) where
  remarks : List Remark
  result : Except ReadError α

/-- What is known between two lines: the packages so far, the one begun last, and the dex file whose
data is due. -/
structure Progress where
  ledger : Ledger := TextMap.empty
  package : Option Text := none
  due : Option Text := none
  deriving DecidableEq

def trimLine (line : Text) : Text :=
  line.trimEnd fun c => c = CodePoint.carriageReturn || c = CodePoint.lineFeed

/-- The record on a data line, and the tokens on it that are outside the vocabulary. -/
def readDexData (vocabulary : Vocabulary) (line : Text) :
    Except FormatError (DexUse × List Isa) :=
  match line.split CodePoint.comma with
  | owner :: flag :: isa :: isas =>
    match Numeral.read? owner with
    | none => .error (.invalidOwner owner)
    | some id =>
      match readFlag flag with
      | .error error => .error error
      | .ok used =>
        let (known, unknown) := (isa :: isas).partition vocabulary.contains
        .ok (⟨.user id, used, TextSet.ofList known⟩, unknown)
  | _ => .error (.invalidDexDataLine line)

def readPackageLine (progress : Progress) (line : Text) : Except FormatError Progress :=
  match line.split CodePoint.comma with
  | [name, flag] =>
    match readFlag flag with
    | .error error => .error error
    | .ok used => .ok
        { ledger := progress.ledger.insert name { usedByOthers := used }, package := some name }
  | _ => .error (.invalidPackageLine line)

def Progress.enter (progress : Progress) (path : Text) (dex : DexUse) : Progress :=
  match progress.package.bind fun name => (progress.ledger.find? name).map (name, ·) with
  | none => { progress with due := none }
  | some (name, use) =>
    { progress with ledger := progress.ledger.insert name (use.setDexFile path dex), due := none }

def readLine (vocabulary : Vocabulary) (progress : Progress) (line : Text) :
    Except FormatError (Progress × List Remark) :=
  match progress.due with
  | some path =>
    match readDexData vocabulary line with
    | .error error => .error error
    | .ok (dex, unknown) =>
      let remarks := unknown.map Remark.unsupportedIsa
      if dex.isas.isEmpty then
        .ok ({ progress with due := none }, remarks ++ [.noSupportedIsa path])
      else .ok (progress.enter path dex, remarks)
  | none =>
    match line with
    | [] => .ok (progress, [])
    | c :: path =>
      if c = CodePoint.numberSign then
        if progress.package.isNone then .error .dexLineBeforePackage
        else .ok ({ progress with due := some path }, [])
      else (readPackageLine progress line).map (·, [])

/-- Reads lines one by one, up to the first that is malformed. -/
def readLines (vocabulary : Vocabulary) : Progress → List Text → Reading Progress
  | progress, [] => ⟨[], .ok progress⟩
  | progress, line :: rest =>
    match readLine vocabulary progress (trimLine line) with
    | .error error => ⟨[], .error (.format error)⟩
    | .ok (progress, remarks) =>
      let reading := readLines vocabulary progress rest
      { reading with remarks := remarks ++ reading.remarks }

def checkHeader (version : Int) (line : Text) : Except FormatError Unit :=
  match (line.dropStart? header).bind Numeral.read? with
  | none => .error (.invalidVersionLine line)
  | some found => if found = version then .ok () else .error (.unexpectedVersion found)

def finish (progress : Progress) : Except ReadError Ledger :=
  match progress.due with
  | some path => .error (.format (.missingDexData path))
  | none => .ok progress.ledger

/-- Reads a listing from the lines of a file. A byte that cannot be decoded counts only once all
lines delivered before it have been read. -/
def read (vocabulary : Vocabulary) (version : Int) (feed : LineFeed) : Reading Ledger :=
  match feed.lines with
  | [] => ⟨[], .error (match feed.fault with
      | some error => .decode error
      | none => .format .noVersionLine)⟩
  | first :: rest =>
    match checkHeader version (trimLine first) with
    | .error error => ⟨[], .error (.format error)⟩
    | .ok () =>
      let reading := readLines vocabulary {} rest
      ⟨reading.remarks, match reading.result, feed.fault with
        | .error error, _ => .error error
        | .ok _, some error => .error (.decode error)
        | .ok progress, none => finish progress⟩

end LoadLedger.Listing
