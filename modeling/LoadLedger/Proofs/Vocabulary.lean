import LoadLedger.Isa
import LoadLedger.Proofs.TextMaps
import LoadLedger.Proofs.Utf8Forms

/-! # What a vocabulary can hold

The instruction sets of a device come from a table, and no name in it holds anything that would
break the line of a listing.
-/
namespace LoadLedger

/-- No instruction set breaks the line that lists it. -/
structure Vocabulary.Plain (vocabulary : Vocabulary) : Prop where
  comma : ∀ isa, vocabulary.contains isa = true → CodePoint.comma ∉ isa
  lineFeed : ∀ isa, vocabulary.contains isa = true → CodePoint.lineFeed ∉ isa
  carriageReturn : ∀ isa, vocabulary.contains isa = true → CodePoint.carriageReturn ∉ isa

theorem Vocabulary.plain_ofList {isas : List Isa} (h : ∀ isa ∈ isas, CodePoint.comma ∉ isa ∧
    CodePoint.lineFeed ∉ isa ∧ CodePoint.carriageReturn ∉ isa) :
    Vocabulary.Plain (TextSet.ofList isas) where
  comma := fun isa hisa => (h isa (TextSet.contains_ofList.1 hisa)).1
  lineFeed := fun isa hisa => (h isa (TextSet.contains_ofList.1 hisa)).2.1
  carriageReturn := fun isa hisa => (h isa (TextSet.contains_ofList.1 hisa)).2.2

theorem Isa.mem_byAbi_of_mapM {abis : List Text} {isas : List Isa}
    (h : abis.mapM Isa.ofAbi = .ok isas) : ∀ isa ∈ isas, ∃ abi, (abi,isa) ∈ Isa.byAbi := by
  induction abis generalizing isas with
  | nil =>
    obtain rfl := Except.ok.inj h
    simp
  | cons abi abis ih =>
    rw [List.mapM_cons] at h
    cases hfirst : Isa.ofAbi abi with
    | error error => simp [hfirst,bind,Except.bind] at h
    | ok first =>
      cases hrest : abis.mapM Isa.ofAbi with
      | error error => simp [hfirst,hrest,bind,Except.bind] at h
      | ok rest =>
        rw [hfirst,hrest] at h
        obtain rfl := Except.ok.inj h
        refine List.forall_mem_cons.2 ⟨?_,ih hrest⟩
        unfold Isa.ofAbi at hfirst
        split at hfirst
        · rename_i isa hlookup
          obtain rfl := Except.ok.inj hfirst
          obtain ⟨before,after,htable,-⟩ := List.lookup_eq_some_iff.1 hlookup
          exact ⟨abi.strip,by simp [htable]⟩
        · cases hfirst

theorem Vocabulary.mem_byAbi {abis : List Text} {vocabulary : Vocabulary}
    (h : Vocabulary.ofAbis abis = .ok vocabulary) {isa : Isa}
    (hisa : vocabulary.contains isa = true) : ∃ abi, (abi,isa) ∈ Isa.byAbi := by
  unfold Vocabulary.ofAbis at h
  cases hisas : abis.mapM Isa.ofAbi with
  | error error => simp [hisas,Except.map] at h
  | ok isas =>
    rw [hisas] at h
    obtain rfl := Except.ok.inj h
    exact Isa.mem_byAbi_of_mapM hisas isa (TextSet.contains_ofList.1 hisa)

theorem Vocabulary.plain_ofAbis {abis : List Text} {vocabulary : Vocabulary}
    (h : Vocabulary.ofAbis abis = .ok vocabulary) : vocabulary.Plain := by
  have htable : ∀ p ∈ Isa.byAbi, CodePoint.comma ∉ p.2 ∧ CodePoint.lineFeed ∉ p.2 ∧
      CodePoint.carriageReturn ∉ p.2 := by decide
  have hplain (isa : Isa) (hisa : vocabulary.contains isa = true) : CodePoint.comma ∉ isa ∧
      CodePoint.lineFeed ∉ isa ∧ CodePoint.carriageReturn ∉ isa := by
    obtain ⟨abi,hmem⟩ := Vocabulary.mem_byAbi h hisa
    exact htable _ hmem
  exact ⟨fun isa hisa => (hplain isa hisa).1,fun isa hisa => (hplain isa hisa).2.1,
    fun isa hisa => (hplain isa hisa).2.2⟩

theorem Vocabulary.encodable_of_ofAbis {abis : List Text} {vocabulary : Vocabulary}
    (h : Vocabulary.ofAbis abis = .ok vocabulary) {isa : Isa}
    (hisa : vocabulary.contains isa = true) : Utf8.Encodable isa := by
  have htable : ∀ p ∈ Isa.byAbi, Utf8.Encodable p.2 := by decide
  obtain ⟨abi,hmem⟩ := Vocabulary.mem_byAbi h hisa
  exact htable _ hmem

end LoadLedger
