import LoadLedger.Usage

/-! # The ledger of loads

The ledger holds what is known of every package. Recording a load tells whether it was news, and
refuses instruction sets outside the vocabulary and secondary files that change owner. Pruning
removes what belongs to packages and users that are gone.
-/
namespace LoadLedger

abbrev Ledger := TextMap PackageUse

/-- One load of a dex file: the package that owns the file, the user and instruction set of the
loading process, and whether another application loaded it. -/
structure Load where
  package : Text
  path : Text
  owner : Owner
  isa : Isa
  usedByOthers : Bool
  primaryOrSplit : Bool
  deriving DecidableEq

def Load.dexUse (load : Load) : DexUse := .ofLoad load.owner load.usedByOthers (some load.isa)

/-- Why a load is refused. A change of owner cannot be told of if the number of one of the two owners
is too long. -/
inductive RecordError
  | unsupportedIsa (isa : Isa)
  | ownerMismatch (path : Text) (recorded given : Owner)
  | longNumber
  deriving DecidableEq

def RecordError.ofOwners (path : Text) (recorded given : Owner) : RecordError :=
  if recorded.fits && given.fits then .ownerMismatch path recorded given else .longNumber

def RecordError.message : RecordError → Text
  | .unsupportedIsa isa => "loaderIsa " ++ isa ++ " is unsupported"
  | .ownerMismatch path recorded given =>
    "Trying to change ownerUserId for dex path " ++ path ++ " from " ++ recorded.text ++
      " to " ++ given.text
  | .longNumber => Numeral.tooLong

/-- The record of a package first seen through this load. Primary and split files are compiled for
every user and instruction set, so of such a load only the flag is kept. -/
def PackageUse.ofLoad (load : Load) : PackageUse :=
  if load.primaryOrSplit then { usedByOthers := load.usedByOthers }
  else ({} : PackageUse).setDexFile load.path load.dexUse

def PackageUse.record (use : PackageUse) (load : Load) : Except RecordError (PackageUse × Bool) :=
  if load.primaryOrSplit then
    .ok (use.mark load.usedByOthers, use.learnsFlag load.usedByOthers)
  else
    match use.dexFiles.find? load.path with
    | none => .ok (use.setDexFile load.path load.dexUse, true)
    | some known =>
      if known.owner = load.owner then
        .ok (use.setDexFile load.path (known.merge load.dexUse), known.learnsFrom load.dexUse)
      else .error (.ofOwners load.path known.owner load.owner)

/-- The packages that are installed, each with the users it is installed for. -/
abbrev Installed := TextMap (List Int)

structure Pruned where
  packages : Nat
  dexFiles : Nat
  deriving DecidableEq

namespace Ledger

/-- Enters a load, and tells whether it was news. -/
def record (vocabulary : Vocabulary) (ledger : Ledger) (load : Load) :
    Except RecordError (Ledger × Bool) :=
  if vocabulary.contains load.isa then
    match ledger.find? load.package with
    | none => .ok (ledger.insert load.package (.ofLoad load), true)
    | some use =>
      match use.record load with
      | .ok (use, news) => .ok (ledger.insert load.package use, news)
      | .error error => .error error
  else .error (.unsupportedIsa load.isa)

/-- What is left of a package. Nothing is left of one that is not installed, or that has neither
its flag nor any dex file of its users. -/
def prunePackage (installed : Installed) (name : Text) (use : PackageUse) : Option PackageUse :=
  match installed.find? name with
  | none => none
  | some users =>
    let kept := use.keepUsers users
    if kept.usedByOthers || !kept.dexFiles.isEmpty then some kept else none

def prune (installed : Installed) (ledger : Ledger) : Ledger :=
  ledger.filterMap (prunePackage installed)

/-- Dex files of packages that are not installed go with their package and are not counted. -/
def pruned (installed : Installed) (ledger : Ledger) : Pruned where
  packages := ledger.entries.countP fun (name, use) => (prunePackage installed name use).isNone
  dexFiles := ledger.entries.foldr (fun (name, use) count =>
    match installed.find? name with
    | none => count
    | some users => use.strandedFiles users + count) 0

end Ledger
end LoadLedger
