import LoadLedger.Proofs.Ledger.Every

/-! # What loads leave in a ledger

Loads bring in their package names, their paths and their owners, and instruction sets of the
vocabulary only. Merging and pruning bring in nothing else, so what holds of all loads holds of the
ledger that they lead to.
-/
namespace LoadLedger

/-- A record that loads can leave: it has instruction sets, all of them known. -/
structure RecordFrom (vocabulary : Vocabulary) (pathed : Text → Prop) (owned : Owner → Prop)
    (path : Text) (dex : DexUse) : Prop where
  path : pathed path
  owner : owned dex.owner
  some : ∃ isa, dex.isas.contains isa = true
  known : ∀ isa, dex.isas.contains isa = true → vocabulary.contains isa = true

/-- The path and the owner of a load count unless it is of a primary or split file. -/
structure Load.Meets (named pathed : Text → Prop) (owned : Owner → Prop) (load : Load) : Prop where
  package : named load.package
  path : load.primaryOrSplit = false → pathed load.path
  owner : load.primaryOrSplit = false → owned load.owner

variable {vocabulary : Vocabulary} {named pathed : Text → Prop} {owned : Owner → Prop}

theorem Load.contains_isas {load : Load} {isa : Isa} :
    load.dexUse.isas.contains isa = true ↔ isa = load.isa := by
  simp [dexUse,DexUse.ofLoad]

theorem RecordFrom.ofLoad {load : Load} (h : load.Meets named pathed owned)
    (hsecondary : load.primaryOrSplit = false) (hisa : vocabulary.contains load.isa = true) :
    RecordFrom vocabulary pathed owned load.path load.dexUse where
  path := h.path hsecondary
  owner := h.owner hsecondary
  some := ⟨load.isa,Load.contains_isas.2 rfl⟩
  known := fun _ h => Load.contains_isas.1 h ▸ hisa

theorem RecordFrom.imp {pathed' : Text → Prop} {owned' : Owner → Prop} {path : Text} {dex : DexUse}
    (h : RecordFrom vocabulary pathed owned path dex) (hpathed : pathed path → pathed' path)
    (howned : owned dex.owner → owned' dex.owner) : RecordFrom vocabulary pathed' owned' path dex :=
  ⟨hpathed h.path,howned h.owner,h.some,h.known⟩

theorem DexUse.contains_newIsas {use seen : DexUse} {isa : Isa} :
    (use.newIsas seen).contains isa = true ↔
      seen.isas.contains isa = true ∧ use.isas.contains isa = false := by
  simp only [newIsas,TextMap.contains_iff,TextMap.find?_filter,Option.filter_eq_some_iff]
  simp [TextMap.contains]

theorem DexUse.contains_merge {use seen : DexUse} {isa : Isa} :
    (use.merge seen).isas.contains isa = true ↔
      use.isas.contains isa = true ∨ seen.isas.contains isa = true := by
  rw [merge,TextSet.contains_union,contains_newIsas]
  cases use.isas.contains isa <;> simp

theorem RecordFrom.merge {path : Text} {use seen : DexUse}
    (h : RecordFrom vocabulary pathed owned path use)
    (hseen : RecordFrom vocabulary pathed owned path seen) :
    RecordFrom vocabulary pathed owned path (use.merge seen) where
  path := h.path
  owner := h.owner
  some := by
    obtain ⟨isa,hisa⟩ := h.some
    exact ⟨isa,DexUse.contains_merge.2 (Or.inl hisa)⟩
  known := fun isa hisa => (DexUse.contains_merge.1 hisa).elim (h.known isa) (hseen.known isa)

theorem PackageUse.Every.record {use after : PackageUse} {load : Load} {news : Bool}
    (h : use.Every (RecordFrom vocabulary pathed owned)) (hload : load.Meets named pathed owned)
    (hisa : vocabulary.contains load.isa = true) (hrecord : use.record load = .ok (after,news)) :
    after.Every (RecordFrom vocabulary pathed owned) := by
  unfold PackageUse.record at hrecord
  split at hrecord
  · obtain ⟨rfl,-⟩ := Prod.mk.inj (Except.ok.inj hrecord)
    exact h
  · rename_i hprimary
    have hseen := RecordFrom.ofLoad hload (by simpa using hprimary) hisa
    split at hrecord
    · obtain ⟨rfl,-⟩ := Prod.mk.inj (Except.ok.inj hrecord)
      exact h.setDexFile hseen
    · rename_i known hknown
      split at hrecord
      · obtain ⟨rfl,-⟩ := Prod.mk.inj (Except.ok.inj hrecord)
        exact h.setDexFile ((h load.path known hknown).merge hseen)
      · cases hrecord

theorem PackageUse.every_ofLoad {load : Load} (hload : load.Meets named pathed owned)
    (hisa : vocabulary.contains load.isa = true) :
    (PackageUse.ofLoad load).Every (RecordFrom vocabulary pathed owned) := by
  unfold PackageUse.ofLoad
  split
  · exact every_flag _ _
  · rename_i hprimary
    exact (every_flag _ _).setDexFile (RecordFrom.ofLoad hload (by simpa using hprimary) hisa)

namespace Ledger

theorem Every.record {ledger after : Ledger} {load : Load} {news : Bool}
    (h : Ledger.Every named (RecordFrom vocabulary pathed owned) ledger)
    (hload : load.Meets named pathed owned)
    (hrecord : ledger.record vocabulary load = .ok (after,news)) :
    Ledger.Every named (RecordFrom vocabulary pathed owned) after := by
  unfold Ledger.record at hrecord
  split at hrecord
  · rename_i hisa
    split at hrecord
    · obtain ⟨rfl,-⟩ := Prod.mk.inj (Except.ok.inj hrecord)
      exact h.insert hload.package (PackageUse.every_ofLoad hload hisa)
    · rename_i use huse
      split at hrecord
      · rename_i recorded news' hrecorded
        obtain ⟨rfl,-⟩ := Prod.mk.inj (Except.ok.inj hrecord)
        exact h.insert hload.package ((h load.package use huse).2.record hload hisa hrecorded)
      · cases hrecord
  · cases hrecord

theorem Every.prune {recorded : Text → DexUse → Prop} {ledger : Ledger}
    (h : Ledger.Every named recorded ledger) (installed : Installed) :
    Ledger.Every named recorded (ledger.prune installed) := by
  intro name kept hkept
  rw [Ledger.prune,TextMap.find?_filterMap] at hkept
  obtain ⟨use,huse,hprune⟩ := Option.bind_eq_some_iff.1 hkept
  obtain ⟨hname,hrecords⟩ := h name use huse
  unfold prunePackage at hprune
  split at hprune
  · cases hprune
  · simp only [] at hprune
    split at hprune
    · obtain rfl := Option.some.inj hprune
      refine ⟨hname,fun path dex hdex => hrecords path dex ?_⟩
      rw [PackageUse.keepUsers,TextMap.find?_filter] at hdex
      exact (Option.filter_eq_some_iff.1 hdex).1
    · cases hprune

/-- The ledger after a load, which is the old one if the load is refused. -/
def enter (vocabulary : Vocabulary) (ledger : Ledger) (load : Load) : Ledger :=
  match ledger.record vocabulary load with
  | .ok (ledger,_) => ledger
  | .error _ => ledger

theorem Every.enter {ledger : Ledger} {load : Load}
    (h : Ledger.Every named (RecordFrom vocabulary pathed owned) ledger)
    (hload : load.Meets named pathed owned) :
    Ledger.Every named (RecordFrom vocabulary pathed owned) (ledger.enter vocabulary load) := by
  unfold Ledger.enter
  split
  · rename_i after news hrecord
    exact h.record hload hrecord
  · exact h

theorem every_foldl_enter {loads : List Load} (hloads : ∀ load ∈ loads, load.Meets named pathed owned)
    {ledger : Ledger} (h : Ledger.Every named (RecordFrom vocabulary pathed owned) ledger) :
    Ledger.Every named (RecordFrom vocabulary pathed owned)
      (loads.foldl (Ledger.enter vocabulary) ledger) := by
  induction loads generalizing ledger with
  | nil => exact h
  | cons load loads ih =>
    obtain ⟨hload,hrest⟩ := List.forall_mem_cons.1 hloads
    exact ih hrest (h.enter hload)

end Ledger
end LoadLedger
