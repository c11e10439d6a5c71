import LoadLedger.Binary64.Printing
import LoadLedger.FileError
import LoadLedger.Listing.Echo

/-! # Journal notes

What the ledger's store and its readers have to report, each with the part of the program it comes
from and how grave it is.
-/
namespace LoadLedger

inductive Severity
  | debug
  | info
  | warning
  | error
  deriving DecidableEq

namespace Severity

def rank : Severity → Int
  | .debug => 10
  | .info => 20
  | .warning => 30
  | .error => 40

def name : Severity → Text
  | .debug => "DEBUG"
  | .info => "INFO"
  | .warning => "WARNING"
  | .error => "ERROR"

end Severity

inductive LoadError
  | file (error : FileError)
  | listing (error : Listing.ReadError)
  deriving DecidableEq

def LoadError.message : LoadError → Text
  | .file error => error.message
  | .listing error => error.message

/-- A listing that breaks the format could be read but not parsed. -/
def LoadError.failedStep : LoadError → Text
  | .listing (.format _) => "parse"
  | _ => "read"

inductive Note
  | remark (remark : Listing.Remark)
  | pruned (count : Pruned)
  | noFile (path : Text)
  | loadFailed (path : Text) (error : LoadError)
  | loaded (packages : Nat) (path : Text)
  | scheduled (delay : Binary64)
  | writeFailed (path : Text) (error : WriteError)
  | wrote (packages : Nat) (path : Text)
  | closedUnsaved
  deriving DecidableEq

namespace Note

def severity : Note → Severity
  | .remark (.unsupportedIsa _) => .warning
  | .remark (.noSupportedIsa _) => .error
  | .pruned _ | .noFile _ | .scheduled _ => .debug
  | .loaded _ _ | .wrote _ _ => .info
  | .loadFailed _ _ | .writeFailed _ _ | .closedUnsaved => .warning

def source : Note → Text
  | .remark _ => "dexusage.persistence.codec"
  | .pruned _ => "dexusage.usage.usage_table"
  | .closedUnsaved => "dexusage.package_dex_usage"
  | _ => "dexusage.persistence.usage_store"

def message : Note → Text
  | .remark (.unsupportedIsa isa) => "Unsupported ISA when parsing usage file: " ++ isa
  | .remark (.noSupportedIsa path) => "Ignoring dex path with no supported ISAs: " ++ path
  | .pruned count =>
    "Synced usage data: removed " ++ Numeral.ofNat count.packages ++ " packages, " ++
      Numeral.ofNat count.dexFiles ++ " dex files"
  | .noFile path => "No usage file found at " ++ path
  | .loadFailed path error =>
    "Failed to " ++ error.failedStep ++ " package dex usage at " ++ path ++ ": " ++ error.message
  | .loaded packages path =>
    "Loaded dex usage for " ++ Numeral.ofNat packages ++ " packages from " ++ path
  | .scheduled delay => "Scheduled dex usage write in " ++ delay.fixed ++ "s"
  | .writeFailed path error =>
    "Failed to write usage for dex files to " ++ path ++ ": " ++ error.message
  | .wrote packages path =>
    "Wrote dex usage for " ++ Numeral.ofNat packages ++ " packages to " ++ path
  | .closedUnsaved => "Pending dex usage could not be written on close"

end Note
end LoadLedger
