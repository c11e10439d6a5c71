import LoadLedger.Ledger

/-! # The listing of a ledger

The first line is a header with the version. Then each package has a line with its name and flag,
followed by two lines for each of its dex files: the path behind a number sign, and the owner, the
flag and the instruction sets. Packages, paths and instruction sets are sorted, so a ledger has one
listing.
-/
namespace LoadLedger

inductive FormatError
  | noVersionLine
  | invalidVersionLine (line : Text)
  | unexpectedVersion (version : Int)
  | dexLineBeforePackage
  | missingDexData (path : Text)
  | invalidPackageLine (line : Text)
  | invalidDexDataLine (line : Text)
  | invalidOwner (field : Text)
  | unknownFlag (field : Text)
  deriving DecidableEq

def FormatError.message : FormatError → Text
  | .noVersionLine => "No version line found"
  | .invalidVersionLine line => "Invalid version line: " ++ line
  | .unexpectedVersion version => "Unexpected version: " ++ Numeral.ofInt version
  | .dexLineBeforePackage => "Malformed usage file: expected package line before dex line"
  | .missingDexData path => "Missing dex data line for dex path: " ++ path
  | .invalidPackageLine line => "Invalid package line: " ++ line
  | .invalidDexDataLine line => "Invalid dex data line: " ++ line
  | .invalidOwner field => "Invalid owner user id: " ++ field
  | .unknownFlag field => "Unknown bool encoding: " ++ field

namespace Listing

def currentVersion : Int := 1

def header : Text := "PACKAGE_MANAGER__PACKAGE_DEX_USAGE__"

def lineEnd : Text := [CodePoint.lineFeed]

def writeFlag (flag : Bool) : Text := if flag then "1" else "0"

def readFlag (field : Text) : Except FormatError Bool :=
  if field = "0" then .ok false
  else if field = "1" then .ok true
  else .error (.unknownFlag field)

def packageLine (name : Text) (use : PackageUse) : Text :=
  Text.join [CodePoint.comma] [name, writeFlag use.usedByOthers]

def pathLine (path : Text) : Text := CodePoint.numberSign :: path

def dexDataLine (dex : DexUse) : Text :=
  Text.join [CodePoint.comma]
    (dex.owner.text :: writeFlag dex.usedByOthers :: dex.isas.keys)

/-- The number of the owner is needed before the first piece is written. -/
def dexPieces (path : Text) (dex : DexUse) : List Piece :=
  [{ text := pathLine path ++ lineEnd, numbersFit := dex.owner.fits }, { text := dexDataLine dex },
   { text := lineEnd }]

def packagePieces (name : Text) (use : PackageUse) : List Piece :=
  { text := packageLine name use } :: { text := lineEnd } ::
    use.dexFiles.entries.flatMap fun (path, dex) => dexPieces path dex

/-- The listing in the pieces in which it is written to a file. -/
def pieces (version : Int) (ledger : Ledger) : List Piece :=
  { text := header ++ Numeral.ofInt version ++ lineEnd, numbersFit := Numeral.fits version } ::
    ledger.entries.flatMap fun (name, use) => packagePieces name use

def render (version : Int) (ledger : Ledger) : Text := (pieces version ledger).flatMap (·.text)

end Listing
end LoadLedger
