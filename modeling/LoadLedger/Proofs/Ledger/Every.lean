import LoadLedger.Ledger
import LoadLedger.Proofs.TextMaps

/-! # Properties of all names and records of a ledger

What holds of every package name and of every dex file with its record is kept by each change that
brings in only names and records for which it holds.
-/
namespace LoadLedger

variable {named : Text → Prop} {recorded : Text → DexUse → Prop}

def PackageUse.Every (recorded : Text → DexUse → Prop) (use : PackageUse) : Prop :=
  ∀ path dex, use.dexFiles.find? path = some dex → recorded path dex

def Ledger.Every (named : Text → Prop) (recorded : Text → DexUse → Prop) (ledger : Ledger) : Prop :=
  ∀ name use, ledger.find? name = some use → named name ∧ use.Every recorded

/-- No owner has a number that is too long to be written. -/
def Ledger.OwnersFit (ledger : Ledger) : Prop :=
  Ledger.Every (fun _ => True) (fun _ dex => dex.owner.fits = true) ledger

namespace PackageUse

theorem every_flag (recorded : Text → DexUse → Prop) (used : Bool) :
    PackageUse.Every recorded { usedByOthers := used } := by
  intro path dex h
  cases h

theorem Every.setDexFile {use : PackageUse} {path : Text} {dex : DexUse} (h : use.Every recorded)
    (hdex : recorded path dex) : (use.setDexFile path dex).Every recorded := by
  intro path' dex' hfind
  rw [PackageUse.setDexFile,TextMap.find?_insert] at hfind
  split at hfind
  · rename_i hpath
    obtain rfl := Option.some.inj hfind
    exact hpath ▸ hdex
  · exact h path' dex' hfind

end PackageUse

namespace Ledger

theorem every_empty (named : Text → Prop) (recorded : Text → DexUse → Prop) :
    Ledger.Every named recorded TextMap.empty := by
  intro name use h
  cases h

theorem Every.insert {ledger : Ledger} {name : Text} {use : PackageUse}
    (h : Ledger.Every named recorded ledger) (hname : named name) (huse : use.Every recorded) :
    Ledger.Every named recorded (ledger.insert name use) := by
  intro name' use' hfind
  rw [TextMap.find?_insert] at hfind
  split at hfind
  · rename_i hn
    obtain rfl := Option.some.inj hfind
    exact ⟨hn ▸ hname,huse⟩
  · exact h name' use' hfind

theorem Every.imp {named' : Text → Prop} {recorded' : Text → DexUse → Prop} {ledger : Ledger}
    (h : Ledger.Every named recorded ledger) (hnamed : ∀ name, named name → named' name)
    (hrecorded : ∀ path dex, recorded path dex → recorded' path dex) :
    Ledger.Every named' recorded' ledger := by
  intro name use hfind
  obtain ⟨hname,huse⟩ := h name use hfind
  exact ⟨hnamed name hname,fun path dex hdex => hrecorded path dex (huse path dex hdex)⟩

theorem Every.and {named' : Text → Prop} {recorded' : Text → DexUse → Prop} {ledger : Ledger}
    (h : Ledger.Every named recorded ledger) (h' : Ledger.Every named' recorded' ledger) :
    Ledger.Every (fun name => named name ∧ named' name)
      (fun path dex => recorded path dex ∧ recorded' path dex) ledger := by
  intro name use hfind
  obtain ⟨hname,huse⟩ := h name use hfind
  obtain ⟨hname',huse'⟩ := h' name use hfind
  exact ⟨⟨hname,hname'⟩,fun path dex hdex => ⟨huse path dex hdex,huse' path dex hdex⟩⟩

end Ledger
end LoadLedger
