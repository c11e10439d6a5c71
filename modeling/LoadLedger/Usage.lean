import LoadLedger.Isa
import LoadLedger.Numeral

/-! # What is known of a package

A dex file belongs to the user who first loaded it, and what is known of it only grows: a load by
another application is never forgotten, nor is an instruction set. A package has a flag of its own
for its primary and split files, and a record for each secondary file.
-/
namespace LoadLedger

/-- Whom a dex file belongs to: a user, or no one if the user was left void. -/
inductive Owner
  | user (id : Int)
  | noOne
  deriving DecidableEq

namespace Owner

def text : Owner → Text
  | .user id => Numeral.ofInt id
  | .noOne => "[]"

def fits : Owner → Bool
  | .user id => Numeral.fits id
  | .noOne => true

def isAmong (users : List Int) : Owner → Bool
  | .user id => users.contains id
  | .noOne => false

end Owner

structure DexUse where
  owner : Owner
  usedByOthers : Bool := false
  isas : TextSet := TextMap.empty
  deriving DecidableEq

namespace DexUse

def ofLoad (owner : Owner) (usedByOthers : Bool) (isa : Option Isa) : DexUse where
  owner := owner
  usedByOthers := usedByOthers
  isas := TextSet.ofList isa.toList

/-- The instruction sets of `seen` that `use` lacks. -/
def newIsas (use seen : DexUse) : TextSet :=
  seen.isas.filter fun isa _ => !use.isas.contains isa

/-- Folds another observation of the same file into a record; the owner stays. -/
def merge (use seen : DexUse) : DexUse where
  owner := use.owner
  usedByOthers := use.usedByOthers || seen.usedByOthers
  isas := use.isas.union (use.newIsas seen)

def learnsFrom (use seen : DexUse) : Bool :=
  !(use.newIsas seen).isEmpty || (!use.usedByOthers && seen.usedByOthers)

end DexUse

structure PackageUse where
  usedByOthers : Bool := false
  dexFiles : TextMap DexUse := TextMap.empty
  deriving DecidableEq

namespace PackageUse

def mark (use : PackageUse) (usedByOthers : Bool) : PackageUse :=
  { use with usedByOthers := use.usedByOthers || usedByOthers }

def learnsFlag (use : PackageUse) (usedByOthers : Bool) : Bool := !use.usedByOthers && usedByOthers

def setDexFile (use : PackageUse) (path : Text) (dex : DexUse) : PackageUse :=
  { use with dexFiles := use.dexFiles.insert path dex }

def keepUsers (use : PackageUse) (users : List Int) : PackageUse :=
  { use with dexFiles := use.dexFiles.filter fun _ dex => dex.owner.isAmong users }

/-- The number of dex files whose owner is not among the given users. -/
def strandedFiles (use : PackageUse) (users : List Int) : Nat :=
  use.dexFiles.entries.countP fun (_, dex) => !dex.owner.isAmong users

end PackageUse
end LoadLedger
