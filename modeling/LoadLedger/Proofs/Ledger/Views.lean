import LoadLedger.Proofs.Ledger.News
import LoadLedger.Proofs.Ledger.Recording
import LoadLedger.Proofs.PlainNumerals

/-! # What can be asked of a ledger

A ledger is known by two questions: what the flag of a package is, and what is known of a dex file.
Entering a load changes the answer to one question of each kind at most, and pruning changes no
answer except by taking it away.
-/
namespace LoadLedger

/-- To merge only what is new is to merge everything. -/
theorem DexUse.merge_eq (use seen : DexUse) : use.merge seen =
    ⟨use.owner,use.usedByOthers || seen.usedByOthers,use.isas.union seen.isas⟩ := by
  have hisas : (use.merge seen).isas = use.isas.union seen.isas :=
    TextSet.ext fun isa => contains_merge.trans TextSet.contains_union.symm
  rw [← hisas]
  rfl

/-- A user whose number has one digit too many. -/
def Owner.tooLong : Owner := .user (10 ^ 4300 : Nat)

theorem Owner.fits_tooLong : Owner.tooLong.fits = false := by
  have hnot : ¬Numeral.fits (10 ^ 4300 : Nat) = true := by
    rw [Numeral.fits_iff,Int.natAbs_natCast,Numeral.digitLimit]
    exact Nat.lt_irrefl _
  exact Bool.eq_false_iff.2 hnot

theorem Owner.user_zero_ne_tooLong : Owner.user 0 ≠ .tooLong := by
  intro heq
  have hfits := Owner.fits_tooLong
  rw [← heq] at hfits
  cases hfits

namespace RecordError

variable {path path' : Text} {recorded given recorded' given' : Owner}

theorem ofOwners_eq_ownerMismatch_iff :
    ofOwners path recorded given = .ownerMismatch path' recorded' given' ↔
      path' = path ∧ recorded' = recorded ∧ given' = given ∧
      recorded.fits = true ∧ given.fits = true := by
  unfold ofOwners
  cases recorded.fits <;> cases given.fits <;> simp [eq_comm]

theorem ofOwners_eq_longNumber_iff :
    ofOwners path recorded given = .longNumber ↔ ¬(recorded.fits = true ∧ given.fits = true) := by
  unfold ofOwners
  cases recorded.fits <;> cases given.fits <;> simp

theorem ofOwners_ne_unsupportedIsa (isa : Isa) :
    ofOwners path recorded given ≠ .unsupportedIsa isa := by
  unfold ofOwners
  split <;> simp

end RecordError

/-- What is known of a dex file after a secondary load of it. -/
def DexUse.afterLoad (load : Load) : Option DexUse → DexUse
  | none => load.dexUse
  | some known => if known.owner = load.owner then known.merge load.dexUse else known

namespace PackageUse

/-- The record of a package after a load, which is the old one if the load is refused. -/
def afterLoad (load : Load) : Option PackageUse → PackageUse
  | none => .ofLoad load
  | some use =>
    match use.record load with
    | .ok (after,_) => after
    | .error _ => use

theorem find?_setDexFile (use : PackageUse) (path other : Text) (dex : DexUse) :
    (use.setDexFile path dex).dexFiles.find? other =
      if path = other then some dex else use.dexFiles.find? other :=
  TextMap.find?_insert _ _ _ _

theorem afterLoad_of_primary {load : Load} (h : load.primaryOrSplit = true)
    (use : Option PackageUse) : afterLoad load use = (use.getD {}).mark load.usedByOthers := by
  cases use with
  | none => simp [afterLoad,ofLoad,h,mark]
  | some use => simp [afterLoad,record,h]

theorem afterLoad_of_secondary {load : Load} (h : load.primaryOrSplit = false)
    (use : Option PackageUse) : afterLoad load use = (use.getD {}).setDexFile load.path
      (DexUse.afterLoad load ((use.getD {}).dexFiles.find? load.path)) := by
  cases use with
  | none => simp [afterLoad,ofLoad,h,DexUse.afterLoad]
  | some use =>
    cases hknown : use.dexFiles.find? load.path with
    | none => simp [afterLoad,record,h,hknown,DexUse.afterLoad]
    | some known =>
      by_cases howner : known.owner = load.owner
      · simp [afterLoad,record,h,hknown,howner,DexUse.afterLoad]
      · have hself : use.setDexFile load.path known = use := setDexFile_eq_self hknown
        simp [afterLoad,record,h,hknown,howner,DexUse.afterLoad,hself]

/-- The only load that a package refuses is that of a secondary file known to be another owner's. -/
theorem record_eq_error_iff {use : PackageUse} {load : Load} {error : RecordError} :
    use.record load = .error error ↔ load.primaryOrSplit = false ∧
      ∃ known, use.dexFiles.find? load.path = some known ∧ known.owner ≠ load.owner ∧
        error = .ofOwners load.path known.owner load.owner := by
  unfold record
  cases hprimary : load.primaryOrSplit with
  | true => simp
  | false =>
    cases hknown : use.dexFiles.find? load.path with
    | none => simp
    | some known =>
      by_cases howner : known.owner = load.owner
      · simp [howner]
      · simp [howner,eq_comm]

end PackageUse

namespace Ledger

variable {vocabulary : Vocabulary}

/-- The flag of a package, if the package is known. -/
def flag? (ledger : Ledger) (name : Text) : Option Bool := (ledger.find? name).map (·.usedByOthers)

/-- What is known of a dex file. -/
def dexUse? (ledger : Ledger) (name path : Text) : Option DexUse :=
  (ledger.find? name).bind (·.dexFiles.find? path)

theorem contains_eq_isSome_flag? (ledger : Ledger) (name : Text) :
    ledger.contains name = (ledger.flag? name).isSome := by
  rw [flag?,Option.isSome_map,TextMap.contains]

theorem getD_flag? (ledger : Ledger) (name : Text) :
    (ledger.flag? name).getD false = ((ledger.find? name).getD {}).usedByOthers := by
  unfold flag?
  cases ledger.find? name <;> rfl

theorem find?_dexFiles (ledger : Ledger) (name path : Text) :
    ((ledger.find? name).getD {}).dexFiles.find? path = ledger.dexUse? name path := by
  unfold dexUse?
  cases ledger.find? name <;> rfl

theorem exists_flag?_of_dexUse? {ledger : Ledger} {name path : Text} {dex : DexUse}
    (h : ledger.dexUse? name path = some dex) : ∃ used, ledger.flag? name = some used := by
  obtain ⟨use,huse,-⟩ := Option.bind_eq_some_iff.1 h
  exact ⟨use.usedByOthers,by rw [flag?,huse,Option.map_some]⟩

theorem ext_views {ledger other : Ledger} (hflag : ∀ name, ledger.flag? name = other.flag? name)
    (hdex : ∀ name path, ledger.dexUse? name path = other.dexUse? name path) : ledger = other := by
  apply TextMap.ext_find?
  intro name
  have hname := hflag name
  unfold flag? at hname
  have hfiles := hdex name
  unfold dexUse? at hfiles
  cases huse : ledger.find? name with
  | none =>
    rw [huse,Option.map_none,eq_comm,Option.map_eq_none_iff] at hname
    rw [hname]
  | some use =>
    rw [huse,Option.map_some,eq_comm,Option.map_eq_some_iff] at hname
    obtain ⟨use',huse',hused⟩ := hname
    simp only [huse,huse',Option.bind_some] at hfiles
    obtain ⟨used,files⟩ := use
    obtain ⟨used',files'⟩ := use'
    obtain rfl : used' = used := hused
    obtain rfl : files = files' := TextMap.ext_find? hfiles
    exact huse'.symm

/-! ## Entering a load -/

theorem find?_enter (ledger : Ledger) (load : Load) (name : Text) :
    (ledger.enter vocabulary load).find? name =
      if vocabulary.contains load.isa = true ∧ load.package = name
      then some (PackageUse.afterLoad load (ledger.find? name)) else ledger.find? name := by
  by_cases hisa : vocabulary.contains load.isa = true
  · have hinsert : ledger.enter vocabulary load =
        ledger.insert load.package (PackageUse.afterLoad load (ledger.find? load.package)) := by
      cases huse : ledger.find? load.package with
      | none => simp [enter,record,hisa,huse,PackageUse.afterLoad]
      | some use =>
        cases hrecord : use.record load with
        | ok after => simp [enter,record,hisa,huse,hrecord,PackageUse.afterLoad]
        | error error =>
          simp [enter,record,hisa,huse,hrecord,PackageUse.afterLoad,TextMap.insert_eq_self huse]
    rw [hinsert,TextMap.find?_insert]
    by_cases hname : load.package = name
    · subst hname
      simp [hisa]
    · simp [hname]
  · simp [enter,record,hisa]

theorem flag?_enter (ledger : Ledger) (load : Load) (name : Text) :
    (ledger.enter vocabulary load).flag? name =
      if vocabulary.contains load.isa = true ∧ load.package = name
      then some ((ledger.flag? name).getD false || (load.primaryOrSplit && load.usedByOthers))
      else ledger.flag? name := by
  rw [getD_flag?,flag?,find?_enter]
  split
  · cases hprimary : load.primaryOrSplit with
    | true => simp [PackageUse.afterLoad_of_primary hprimary,PackageUse.mark]
    | false => simp [PackageUse.afterLoad_of_secondary hprimary,PackageUse.setDexFile]
  · rfl

theorem dexUse?_enter (ledger : Ledger) (load : Load) (name path : Text) :
    (ledger.enter vocabulary load).dexUse? name path =
      if vocabulary.contains load.isa = true ∧ load.primaryOrSplit = false ∧ load.package = name ∧
        load.path = path
      then some (DexUse.afterLoad load (ledger.dexUse? name path))
      else ledger.dexUse? name path := by
  rw [← find?_dexFiles ledger,dexUse?,find?_enter]
  by_cases hname : vocabulary.contains load.isa = true ∧ load.package = name
  · rw [if_pos hname,Option.bind_some]
    cases hprimary : load.primaryOrSplit with
    | true => simp [PackageUse.afterLoad_of_primary hprimary,PackageUse.mark]
    | false =>
      rw [PackageUse.afterLoad_of_secondary hprimary,PackageUse.find?_setDexFile]
      by_cases hpath : load.path = path
      · subst hpath
        simp [hname]
      · simp [hpath]
  · have hother : ¬(vocabulary.contains load.isa = true ∧ load.primaryOrSplit = false ∧
        load.package = name ∧ load.path = path) := fun h => hname ⟨h.1,h.2.2.1⟩
    rw [if_neg hname,if_neg hother,find?_dexFiles,dexUse?]

theorem record_eq_error_iff {ledger : Ledger} {load : Load} {error : RecordError} :
    ledger.record vocabulary load = .error error ↔
      (vocabulary.contains load.isa = false ∧ error = .unsupportedIsa load.isa) ∨
      (vocabulary.contains load.isa = true ∧ load.primaryOrSplit = false ∧
        ∃ known, ledger.dexUse? load.package load.path = some known ∧ known.owner ≠ load.owner ∧
          error = .ofOwners load.path known.owner load.owner) := by
  unfold record dexUse?
  cases hisa : vocabulary.contains load.isa with
  | false =>
    simp only [Bool.false_eq_true,if_false,false_and,or_false,true_and]
    exact ⟨fun h => (Except.error.inj h).symm,fun h => h ▸ rfl⟩
  | true =>
    cases huse : ledger.find? load.package with
    | none => simp
    | some use =>
      have hrefuse : use.record load = .error error ↔ _ := PackageUse.record_eq_error_iff
      cases hrecord : use.record load with
      | ok after =>
        rw [hrecord] at hrefuse
        simpa [hrecord] using hrefuse
      | error cause =>
        rw [hrecord] at hrefuse
        simpa [hrecord] using hrefuse

theorem record_eq_unsupportedIsa_iff {ledger : Ledger} {load : Load} {isa : Isa} :
    ledger.record vocabulary load = .error (.unsupportedIsa isa) ↔
      vocabulary.contains load.isa = false ∧ isa = load.isa := by
  rw [record_eq_error_iff]
  constructor
  · rintro (⟨hisa,hcause⟩ | ⟨-,-,known,-,-,hcause⟩)
    · exact ⟨hisa,RecordError.unsupportedIsa.inj hcause⟩
    · exact absurd hcause.symm (RecordError.ofOwners_ne_unsupportedIsa _)
  · rintro ⟨hisa,rfl⟩
    exact Or.inl ⟨hisa,rfl⟩

theorem record_eq_ownerMismatch_iff {ledger : Ledger} {load : Load} {path : Text}
    {recorded given : Owner} :
    ledger.record vocabulary load = .error (.ownerMismatch path recorded given) ↔
      vocabulary.contains load.isa = true ∧ load.primaryOrSplit = false ∧ path = load.path ∧
      given = load.owner ∧ recorded ≠ given ∧ (recorded.fits = true ∧ given.fits = true) ∧
      ∃ known, ledger.dexUse? load.package load.path = some known ∧ known.owner = recorded := by
  rw [record_eq_error_iff]
  constructor
  · rintro (⟨-,hcause⟩ | ⟨hisa,hsecondary,known,hknown,hne,hcause⟩)
    · cases hcause
    · obtain ⟨rfl,rfl,rfl,hfits⟩ := RecordError.ofOwners_eq_ownerMismatch_iff.1 hcause.symm
      exact ⟨hisa,hsecondary,rfl,rfl,hne,hfits,known,hknown,rfl⟩
  · rintro ⟨hisa,hsecondary,rfl,rfl,hne,hfits,known,hknown,rfl⟩
    exact Or.inr ⟨hisa,hsecondary,known,hknown,hne,
      (RecordError.ofOwners_eq_ownerMismatch_iff.2 ⟨rfl,rfl,rfl,hfits⟩).symm⟩

theorem record_eq_longNumber_iff {ledger : Ledger} {load : Load} :
    ledger.record vocabulary load = .error .longNumber ↔
      vocabulary.contains load.isa = true ∧ load.primaryOrSplit = false ∧
      ∃ known, ledger.dexUse? load.package load.path = some known ∧ known.owner ≠ load.owner ∧
        ¬(known.owner.fits = true ∧ load.owner.fits = true) := by
  rw [record_eq_error_iff]
  constructor
  · rintro (⟨-,hcause⟩ | ⟨hisa,hsecondary,known,hknown,hne,hcause⟩)
    · cases hcause
    · exact ⟨hisa,hsecondary,known,hknown,hne,RecordError.ofOwners_eq_longNumber_iff.1 hcause.symm⟩
  · rintro ⟨hisa,hsecondary,known,hknown,hne,hfits⟩
    exact Or.inr ⟨hisa,hsecondary,known,hknown,hne,
      (RecordError.ofOwners_eq_longNumber_iff.2 hfits).symm⟩

/-! ## Pruning -/

theorem prunePackage_eq_some_iff {installed : Installed} {name : Text} {use kept : PackageUse} :
    prunePackage installed name use = some kept ↔ ∃ users, installed.find? name = some users ∧
      kept = use.keepUsers users ∧ (use.usedByOthers = true ∨
        ∃ path dex, use.dexFiles.find? path = some dex ∧ dex.owner.isAmong users = true) := by
  unfold prunePackage
  cases hinstalled : installed.find? name with
  | none => simp
  | some users =>
    have hsome : (use.keepUsers users).dexFiles.isEmpty = false ↔
        ∃ path dex, use.dexFiles.find? path = some dex ∧ dex.owner.isAmong users = true := by
      rw [← Bool.not_eq_true,TextMap.isEmpty_iff,Classical.not_forall]
      simp only [Bool.not_eq_false,TextMap.contains_iff,PackageUse.keepUsers,TextMap.find?_filter,
        Option.filter_eq_some_iff]
    have hstays : ((use.keepUsers users).usedByOthers || !(use.keepUsers users).dexFiles.isEmpty) =
        true ↔ use.usedByOthers = true ∨
          ∃ path dex, use.dexFiles.find? path = some dex ∧ dex.owner.isAmong users = true := by
      rw [Bool.or_eq_true,Bool.not_eq_true',hsome]
      rfl
    simp only [Option.ite_none_right_eq_some,Option.some.injEq,hstays,exists_eq_left']
    rw [and_comm,eq_comm]

theorem find?_prune_eq_some_iff {ledger : Ledger} {installed : Installed} {name : Text}
    {kept : PackageUse} : (ledger.prune installed).find? name = some kept ↔
      ∃ use, ledger.find? name = some use ∧ prunePackage installed name use = some kept := by
  rw [prune,TextMap.find?_filterMap,Option.bind_eq_some_iff]

/-- A package stays if it is installed and has its flag or a dex file of one of its users. It then
keeps its flag. -/
theorem flag?_prune_eq_some_iff {ledger : Ledger} {installed : Installed} {name : Text}
    {used : Bool} : (ledger.prune installed).flag? name = some used ↔
      ledger.flag? name = some used ∧ ∃ users, installed.find? name = some users ∧ (used = true ∨
        ∃ path dex, ledger.dexUse? name path = some dex ∧ dex.owner.isAmong users = true) := by
  simp only [flag?,dexUse?,Option.map_eq_some_iff,find?_prune_eq_some_iff,prunePackage_eq_some_iff]
  constructor
  · rintro ⟨kept,⟨use,huse,users,hinstalled,rfl,hstays⟩,rfl⟩
    simp only [huse,Option.bind_some]
    exact ⟨⟨use,rfl,rfl⟩,users,hinstalled,hstays⟩
  · rintro ⟨⟨use,huse,rfl⟩,users,hinstalled,hstays⟩
    simp only [huse,Option.bind_some] at hstays
    exact ⟨use.keepUsers users,⟨use,huse,users,hinstalled,rfl,hstays⟩,rfl⟩

theorem dexUse?_prune_eq_some_iff {ledger : Ledger} {installed : Installed} {name path : Text}
    {dex : DexUse} : (ledger.prune installed).dexUse? name path = some dex ↔
      ledger.dexUse? name path = some dex ∧
      ∃ users, installed.find? name = some users ∧ dex.owner.isAmong users = true := by
  simp only [dexUse?,Option.bind_eq_some_iff,find?_prune_eq_some_iff,prunePackage_eq_some_iff]
  constructor
  · rintro ⟨kept,⟨use,huse,users,hinstalled,rfl,-⟩,hdex⟩
    rw [PackageUse.keepUsers,TextMap.find?_filter,Option.filter_eq_some_iff] at hdex
    exact ⟨⟨use,huse,hdex.1⟩,users,hinstalled,hdex.2⟩
  · rintro ⟨⟨use,huse,hdex⟩,users,hinstalled,howner⟩
    refine ⟨use.keepUsers users,⟨use,huse,users,hinstalled,rfl,.inr ⟨path,dex,hdex,howner⟩⟩,?_⟩
    rw [PackageUse.keepUsers,TextMap.find?_filter,Option.filter_eq_some_iff]
    exact ⟨hdex,howner⟩

theorem flag?_prune {ledger : Ledger} {installed : Installed} {name : Text} {used : Bool}
    (h : (ledger.prune installed).flag? name = some used) : ledger.flag? name = some used :=
  (flag?_prune_eq_some_iff.1 h).1

theorem dexUse?_prune {ledger : Ledger} {installed : Installed} {name path : Text} {dex : DexUse}
    (h : (ledger.prune installed).dexUse? name path = some dex) :
    ledger.dexUse? name path = some dex :=
  (dexUse?_prune_eq_some_iff.1 h).1

end Ledger
end LoadLedger
