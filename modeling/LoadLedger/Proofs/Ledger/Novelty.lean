import LoadLedger.Proofs.Ledger.Views
import LoadLedger.Tracker

/-! # What is news changes something

A load is reported as news exactly if the ledger is another one after it. What changes then belongs
to the package of the load and, if it is of a secondary file, to this file. The same load again is
never news, and a load that is refused has no effect at all.
-/
namespace LoadLedger

namespace DexUse

theorem learnsFrom_eq_false_iff {use seen : DexUse} :
    use.learnsFrom seen = false ↔ use.merge seen = use := by
  refine ⟨merge_eq_self,fun h => ?_⟩
  have hisas : (use.newIsas seen).isEmpty = true := by
    rw [TextMap.isEmpty_iff]
    intro isa
    cases hnew : (use.newIsas seen).contains isa with
    | false => rfl
    | true =>
      obtain ⟨hseen,hlacks⟩ := contains_newIsas.1 hnew
      have hmerged : (use.merge seen).isas.contains isa = true := contains_merge.2 (Or.inr hseen)
      rw [h,hlacks] at hmerged
      cases hmerged
  have hused : (use.usedByOthers || seen.usedByOthers) = use.usedByOthers :=
    congrArg DexUse.usedByOthers h
  rw [learnsFrom,hisas]
  cases hu : use.usedByOthers with
  | true => rfl
  | false => simpa [hu] using hused

theorem merge_self (use : DexUse) : use.merge use = use := by
  have hisas : use.isas.union use.isas = use.isas :=
    TextSet.ext fun _ => TextSet.contains_union.trans or_self_iff
  rw [merge_eq,hisas,Bool.or_self]

theorem merge_merge (use seen : DexUse) : (use.merge seen).merge seen = use.merge seen := by
  have hisas : (use.isas.union seen.isas).union seen.isas = use.isas.union seen.isas :=
    TextSet.ext fun _ => by simp only [TextSet.contains_union,or_assoc,or_self_iff]
  rw [merge_eq,merge_eq]
  simp only [hisas,Bool.or_assoc,Bool.or_self]

/-- The first load of a dex file tells its owner for good. -/
theorem owner_afterLoad (load : Load) (known : Option DexUse) :
    (afterLoad load known).owner = (known.map (·.owner)).getD load.owner := by
  cases known with
  | none => rfl
  | some known =>
    rw [afterLoad]
    split <;> rfl

theorem afterLoad_afterLoad (load : Load) (known : Option DexUse) :
    afterLoad load (some (afterLoad load known)) = afterLoad load known := by
  cases known with
  | none => exact (if_pos rfl).trans (merge_self load.dexUse)
  | some known =>
    by_cases howner : known.owner = load.owner
    · have hmerged : afterLoad load (some known) = known.merge load.dexUse := if_pos howner
      have hagain : afterLoad load (some (known.merge load.dexUse)) =
          (known.merge load.dexUse).merge load.dexUse := if_pos howner
      rw [hmerged,hagain,merge_merge]
    · have hkept : afterLoad load (some known) = known := if_neg howner
      rw [hkept,hkept]

end DexUse

namespace PackageUse

theorem learnsFlag_eq_false_iff {use : PackageUse} {used : Bool} :
    use.learnsFlag used = false ↔ use.mark used = use := by
  refine ⟨mark_eq_self,fun h => ?_⟩
  have hused : (use.usedByOthers || used) = use.usedByOthers := congrArg PackageUse.usedByOthers h
  unfold learnsFlag
  cases hu : use.usedByOthers with
  | true => rfl
  | false => simpa [hu] using hused

theorem setDexFile_eq_self_iff {use : PackageUse} {path : Text} {dex : DexUse} :
    use.setDexFile path dex = use ↔ use.dexFiles.find? path = some dex := by
  refine ⟨fun h => ?_,setDexFile_eq_self⟩
  rw [← h,find?_setDexFile,if_pos rfl]

theorem record_eq_self_iff {use after : PackageUse} {load : Load} {news : Bool}
    (h : use.record load = .ok (after,news)) : news = false ↔ after = use := by
  unfold record at h
  split at h
  · obtain ⟨rfl,rfl⟩ := Prod.mk.inj (Except.ok.inj h)
    exact learnsFlag_eq_false_iff
  · split at h
    · rename_i hnone
      obtain ⟨rfl,rfl⟩ := Prod.mk.inj (Except.ok.inj h)
      simp [setDexFile_eq_self_iff,hnone]
    · rename_i known hknown
      split at h
      · obtain ⟨rfl,rfl⟩ := Prod.mk.inj (Except.ok.inj h)
        rw [setDexFile_eq_self_iff,hknown,Option.some.injEq,DexUse.learnsFrom_eq_false_iff,eq_comm]
      · cases h

end PackageUse

namespace Ledger

variable {vocabulary : Vocabulary} {ledger after : Ledger} {load : Load} {news : Bool}

theorem enter_of_record (h : ledger.record vocabulary load = .ok (after,news)) :
    ledger.enter vocabulary load = after := by
  rw [enter,h]

theorem record_eq_self_iff (h : ledger.record vocabulary load = .ok (after,news)) :
    news = false ↔ after = ledger := by
  unfold record at h
  split at h
  · split at h
    · rename_i hnone
      obtain ⟨rfl,rfl⟩ := Prod.mk.inj (Except.ok.inj h)
      refine iff_of_false (by simp) fun hsame => ?_
      rw [← hsame,TextMap.find?_insert,if_pos rfl] at hnone
      cases hnone
    · rename_i use huse
      split at h
      · rename_i recorded news' hrecord
        obtain ⟨rfl,rfl⟩ := Prod.mk.inj (Except.ok.inj h)
        rw [PackageUse.record_eq_self_iff hrecord]
        refine ⟨fun hsame => TextMap.insert_eq_self (hsame ▸ huse),fun hsame => ?_⟩
        rw [← hsame,TextMap.find?_insert,if_pos rfl] at huse
        exact Option.some.inj huse
      · cases h
  · cases h

theorem enter_enter (ledger : Ledger) (load : Load) :
    (ledger.enter vocabulary load).enter vocabulary load = ledger.enter vocabulary load := by
  apply ext_views
  · intro name
    rw [flag?_enter,flag?_enter]
    split
    · rw [Option.getD_some,Bool.or_assoc,Bool.or_self]
    · rfl
  · intro name path
    rw [dexUse?_enter,dexUse?_enter]
    split
    · rw [DexUse.afterLoad_afterLoad]
    · rfl

/-- A load that is refused once it has been entered was refused before. -/
theorem record_eq_error_of_enter {error : RecordError}
    (h : (ledger.enter vocabulary load).record vocabulary load = .error error) :
    ledger.record vocabulary load = .error error := by
  rcases record_eq_error_iff.1 h with hisa | ⟨hisa,hsecondary,known,hknown,hne,rfl⟩
  · exact record_eq_error_iff.2 (Or.inl hisa)
  · rw [dexUse?_enter,if_pos ⟨hisa,hsecondary,rfl,rfl⟩] at hknown
    have howner := DexUse.owner_afterLoad load (ledger.dexUse? load.package load.path)
    rw [Option.some.inj hknown] at howner
    cases hearlier : ledger.dexUse? load.package load.path with
    | none =>
      rw [hearlier] at howner
      exact absurd howner hne
    | some earlier =>
      rw [hearlier] at howner
      have hsame : known.owner = earlier.owner := howner
      rw [hsame] at hne ⊢
      exact record_eq_error_iff.2 (Or.inr ⟨hisa,hsecondary,earlier,hearlier,hne,rfl⟩)

theorem record_again (h : ledger.record vocabulary load = .ok (after,news)) :
    after.record vocabulary load = .ok (after,false) := by
  obtain rfl := enter_of_record h
  cases hagain : (ledger.enter vocabulary load).record vocabulary load with
  | error error =>
    rw [record_eq_error_of_enter hagain] at h
    cases h
  | ok outcome =>
    obtain ⟨later,news'⟩ := outcome
    have hlater := enter_of_record hagain
    rw [enter_enter] at hlater
    obtain rfl := hlater
    rw [(record_eq_self_iff hagain).2 rfl]

/-! ## What stays -/

theorem find?_record (h : ledger.record vocabulary load = .ok (after,news)) {name : Text}
    (hname : name ≠ load.package) : after.find? name = ledger.find? name := by
  rw [← enter_of_record h,find?_enter,if_neg fun hload => hname hload.2.symm]

theorem dexUse?_record (h : ledger.record vocabulary load = .ok (after,news)) {name path : Text}
    (hother : load.primaryOrSplit = true ∨ name ≠ load.package ∨ path ≠ load.path) :
    after.dexUse? name path = ledger.dexUse? name path := by
  rw [← enter_of_record h,dexUse?_enter]
  refine if_neg ?_
  rintro ⟨-,hsecondary,rfl,rfl⟩
  simp [hsecondary] at hother

theorem flag?_record (h : ledger.record vocabulary load = .ok (after,news))
    (hsecondary : load.primaryOrSplit = false) :
    after.flag? load.package = some ((ledger.flag? load.package).getD false) := by
  have hisa : vocabulary.contains load.isa = true := by
    cases hisa : vocabulary.contains load.isa with
    | true => rfl
    | false =>
      rw [record_eq_error_iff.2 (Or.inl ⟨hisa,rfl⟩)] at h
      cases h
  rw [← enter_of_record h,flag?_enter,if_pos ⟨hisa,rfl⟩,hsecondary]
  simp

/-- A load is refused for an unknown instruction set, whatever else is said of it, or as a secondary
file that is known to be another owner's, which is not told if the number of one of the two owners is
too long to be written; nothing changes then. Any other load is reported as
news exactly if the ledger changes. It changes the record of its package only; if it is of a
secondary file, the flag of the package and what is known of its other files stay, and otherwise
what is known of all files. The same load at once again is no news and changes nothing. -/
theorem records_exactly (vocabulary : Vocabulary) (ledger : Ledger) (load : Load) :
    (∀ isa, ledger.record vocabulary load = .error (.unsupportedIsa isa) ↔
      vocabulary.contains load.isa = false ∧ isa = load.isa) ∧
    (∀ path recorded given,
      ledger.record vocabulary load = .error (.ownerMismatch path recorded given) ↔
        vocabulary.contains load.isa = true ∧ load.primaryOrSplit = false ∧ path = load.path ∧
        given = load.owner ∧ recorded ≠ given ∧ (recorded.fits = true ∧ given.fits = true) ∧
        ∃ known, ledger.dexUse? load.package load.path = some known ∧ known.owner = recorded) ∧
    (ledger.record vocabulary load = .error .longNumber ↔
      vocabulary.contains load.isa = true ∧ load.primaryOrSplit = false ∧
      ∃ known, ledger.dexUse? load.package load.path = some known ∧ known.owner ≠ load.owner ∧
        ¬(known.owner.fits = true ∧ load.owner.fits = true)) ∧
    (∀ (tracker : Tracker) (files : FileTree), tracker.store.vocabulary = vocabulary →
      tracker.store.ledger = ledger → ∀ error, ledger.record vocabulary load = .error error →
      tracker.record files load = ⟨.error error,tracker,files,[]⟩) ∧
    ∀ after news, ledger.record vocabulary load = .ok (after,news) →
      (news = true ↔ after ≠ ledger) ∧
      (∀ name, name ≠ load.package → after.find? name = ledger.find? name) ∧
      (load.primaryOrSplit = true → ∀ name path,
        after.dexUse? name path = ledger.dexUse? name path) ∧
      (load.primaryOrSplit = false →
        after.flag? load.package = some ((ledger.flag? load.package).getD false) ∧
        ∀ path, path ≠ load.path →
          after.dexUse? load.package path = ledger.dexUse? load.package path) ∧
      after.record vocabulary load = .ok (after,false) := by
  refine ⟨fun _ => record_eq_unsupportedIsa_iff,fun _ _ _ => record_eq_ownerMismatch_iff,
    record_eq_longNumber_iff,?_,fun after news h => ⟨?_,?_,?_,?_,?_⟩⟩
  · rintro tracker files rfl rfl error herror
    simp only [Tracker.record,Store.record,herror]
    rfl
  · rw [← Bool.not_eq_false,not_congr (record_eq_self_iff h)]
  · exact fun name hname => find?_record h hname
  · exact fun hprimary name path => dexUse?_record h (Or.inl hprimary)
  · exact fun hsecondary => ⟨flag?_record h hsecondary,
      fun path hpath => dexUse?_record h (Or.inr (Or.inr hpath))⟩
  · exact record_again h

/-- A change of owner from user 0 to one whose number is too long is not told as such. -/
theorem not_mismatch_tooLong : ¬∀ (vocabulary : Vocabulary) (ledger : Ledger) (load : Load),
    (∃ path recorded given,
      ledger.record vocabulary load = .error (.ownerMismatch path recorded given)) ↔
    vocabulary.contains load.isa = true ∧ load.primaryOrSplit = false ∧
      ∃ known, ledger.dexUse? load.package load.path = some known ∧ known.owner ≠ load.owner := by
  intro h
  let known : DexUse := .ofLoad (.user 0) false (some "arm")
  let ledger : Ledger := TextMap.empty.insert "p" (({} : PackageUse).setDexFile "x" known)
  let load : Load := ⟨"p","x",.tooLong,"arm",false,false⟩
  obtain ⟨_,_,_,hrecord⟩ := (h (TextSet.ofList ["arm"]) ledger load).2
    ⟨by decide,rfl,known,by decide,Owner.user_zero_ne_tooLong⟩
  obtain ⟨-,-,-,rfl,-,⟨-,hfits⟩,-⟩ := record_eq_ownerMismatch_iff.1 hrecord
  rw [Owner.fits_tooLong] at hfits
  cases hfits

end Ledger
end LoadLedger
