import LoadLedger.Ledger
import LoadLedger.Proofs.TextMaps

/-! # What is no news changes nothing

A load that is not reported as news leaves the record of its dex file, the record of its package
and the ledger as they are.
-/
namespace LoadLedger

namespace DexUse

theorem merge_eq_self {use seen : DexUse} (h : use.learnsFrom seen = false) :
    use.merge seen = use := by
  obtain ⟨hisas,hflag⟩ := Bool.or_eq_false_iff.1 h
  have hnone := TextMap.isEmpty_iff.1 (by simpa using hisas)
  have hkept : use.isas.union (use.newIsas seen) = use.isas := by
    apply TextSet.ext
    intro isa
    rw [TextSet.contains_union,hnone isa]
    simp
  have hused : (use.usedByOthers || seen.usedByOthers) = use.usedByOthers := by
    cases hu : use.usedByOthers
    · simpa [hu] using hflag
    · rfl
  rw [merge,hkept,hused]

end DexUse

namespace PackageUse

theorem mark_eq_self {use : PackageUse} {used : Bool} (h : use.learnsFlag used = false) :
    use.mark used = use := by
  have hused : (use.usedByOthers || used) = use.usedByOthers := by
    cases hu : use.usedByOthers
    · simpa [learnsFlag,hu] using h
    · rfl
  rw [mark,hused]

theorem setDexFile_eq_self {use : PackageUse} {path : Text} {dex : DexUse}
    (h : use.dexFiles.find? path = some dex) : use.setDexFile path dex = use := by
  rw [setDexFile,TextMap.insert_eq_self h]

theorem record_eq_self {use after : PackageUse} {load : Load}
    (h : use.record load = .ok (after,false)) : after = use := by
  unfold record at h
  split at h
  · obtain ⟨rfl,hnews⟩ := Prod.mk.inj (Except.ok.inj h)
    exact mark_eq_self hnews
  · split at h
    · cases h
    · rename_i known hknown
      split at h
      · obtain ⟨rfl,hnews⟩ := Prod.mk.inj (Except.ok.inj h)
        rw [DexUse.merge_eq_self hnews,setDexFile_eq_self hknown]
      · cases h

end PackageUse

namespace Ledger

theorem record_eq_self {vocabulary : Vocabulary} {ledger after : Ledger} {load : Load}
    (h : ledger.record vocabulary load = .ok (after,false)) : after = ledger := by
  unfold record at h
  split at h
  · split at h
    · cases h
    · rename_i use huse
      split at h
      · rename_i recorded news hrecord
        obtain ⟨rfl,rfl⟩ := Prod.mk.inj (Except.ok.inj h)
        obtain rfl := PackageUse.record_eq_self hrecord
        exact TextMap.insert_eq_self huse
      · cases h
  · cases h

end Ledger
end LoadLedger
