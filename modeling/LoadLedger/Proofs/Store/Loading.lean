import LoadLedger.Proofs.FileLines
import LoadLedger.Store

/-! # Loading takes all or nothing

A store takes over the ledger that its file holds as a whole, as if the file had been decoded at
once and its line ends replaced before the first line was read. If the file holds none, the store
stays as it is, however much of the file could be read.
-/
namespace LoadLedger

namespace Listing

variable {vocabulary : Vocabulary} {version : Int}

/-- A fault spoils the reading, even if all lines delivered before it are read. -/
theorem fault_of_read {feed : LineFeed} {ledger : Ledger}
    (h : (read vocabulary version feed).result = .ok ledger) : feed.fault = none := by
  cases hfault : feed.fault with
  | none => rfl
  | some error =>
    unfold read at h
    cases hlines : feed.lines with
    | nil => simp [hlines] at h
    | cons first rest =>
      simp only [hlines,hfault] at h
      cases hheader : checkHeader version (trimLine first) with
      | error cause => simp [hheader] at h
      | ok _ =>
        cases hrest : (readLines vocabulary {} rest).result <;> simp [hheader,hrest] at h

theorem read_ofBytes_eq_ok_iff {bytes : Bytes} {ledger : Ledger} :
    (read vocabulary version (.ofBytes bytes)).result = .ok ledger ↔
      ∃ text, Utf8.encode text = .ok bytes ∧
        (read vocabulary version (.ofText (LineFeed.replaceReturns text))).result = .ok ledger := by
  constructor
  · intro h
    obtain ⟨text,hencode⟩ := LineFeed.encode_of_fault (fault_of_read h)
    rw [LineFeed.ofBytes_of_encode hencode] at h
    exact ⟨text,hencode,h⟩
  · rintro ⟨text,hencode,h⟩
    rwa [LineFeed.ofBytes_of_encode hencode]

end Listing

namespace Store

/-- The file of a store holds a ledger if it is the encoding of a text that, with its line ends
replaced, is a listing of the ledger. -/
def Holds (store : Store) (files : FileTree) (ledger : Ledger) : Prop :=
  ∃ content text, files.contentOf store.path.text = .ok content ∧ Utf8.encode text = .ok content ∧
    (Listing.read store.vocabulary Listing.currentVersion
      (.ofText (LineFeed.replaceReturns text))).result = .ok ledger

theorem loadBy_files (store : Store) (files : FileTree) (read : Bytes → Listing.Reading Ledger) :
    (store.loadBy files read).files = files := by
  simp only [loadBy]
  split
  · rfl
  · rfl
  · split <;> rfl

theorem loadBy_vocabulary (store : Store) (files : FileTree)
    (read : Bytes → Listing.Reading Ledger) :
    (store.loadBy files read).state.vocabulary = store.vocabulary ∧
      (store.loadBy files read).state.path = store.path := by
  simp only [loadBy]
  split
  · exact ⟨rfl,rfl⟩
  · exact ⟨rfl,rfl⟩
  · split <;> exact ⟨rfl,rfl⟩

/-- A load reports its remarks and then how it ended: a ledger was taken over, or nothing changed. -/
theorem load_cases (store : Store) (files : FileTree) :
    ∃ (remarks : List Listing.Remark) (last : Note),
      (store.load files).notes = remarks.map Note.remark ++ [last] ∧
      ((∃ ledger size path, last = .loaded size path ∧
          (store.load files).state = { store with ledger }) ∨
        ((∃ path, last = .noFile path) ∨ ∃ path cause, last = .loadFailed path cause) ∧
          (store.load files).state = store) := by
  simp only [load,loadBy]
  split
  · exact ⟨[],_,rfl,.inr ⟨.inl ⟨_,rfl⟩,rfl⟩⟩
  · exact ⟨[],_,rfl,.inr ⟨.inr ⟨_,_,rfl⟩,rfl⟩⟩
  · split
    · exact ⟨_,_,rfl,.inr ⟨.inr ⟨_,_,rfl⟩,rfl⟩⟩
    · exact ⟨_,_,rfl,.inl ⟨_,_,_,rfl,rfl⟩⟩

theorem filterMap_remarks {α : Type} {f : Note → Option α} (hf : ∀ remark, f (.remark remark) = none)
    (remarks : List Listing.Remark) (last : Note) :
    (remarks.map Note.remark ++ [last]).filterMap f = (f last).toList := by
  have hremarks : (remarks.map Note.remark).filterMap f = [] := by
    rw [List.filterMap_map,List.filterMap_eq_nil_iff]
    exact fun remark _ => hf remark
  rw [List.filterMap_append,hremarks,List.nil_append]
  cases hlast : f last <;> simp [hlast]

theorem loadBy_of_ok {store : Store} {files : FileTree} {read : Bytes → Listing.Reading Ledger}
    {content : Bytes} {ledger : Ledger} (hcontent : files.contentOf store.path.text = .ok content)
    (hread : (read content).result = .ok ledger) :
    (store.loadBy files read).result = true ∧
      (store.loadBy files read).state = { store with ledger } := by
  simp [loadBy,hcontent,hread]

theorem loadBy_of_not_ok {store : Store} {files : FileTree} {read : Bytes → Listing.Reading Ledger}
    (h : ∀ content ledger, files.contentOf store.path.text = .ok content →
      (read content).result ≠ .ok ledger) :
    (store.loadBy files read).result = false ∧ (store.loadBy files read).state = store := by
  simp only [loadBy]
  split
  · exact ⟨rfl,rfl⟩
  · exact ⟨rfl,rfl⟩
  · rename_i content hcontent
    split
    · exact ⟨rfl,rfl⟩
    · rename_i ledger hread
      exact absurd hread (h content ledger hcontent)

theorem load_of_holds {store : Store} {files : FileTree} {ledger : Ledger}
    (h : store.Holds files ledger) : (store.load files).result = true ∧
      (store.load files).state = { store with ledger } := by
  obtain ⟨content,text,hcontent,hencode,hread⟩ := h
  exact loadBy_of_ok hcontent (Listing.read_ofBytes_eq_ok_iff.2 ⟨text,hencode,hread⟩)

theorem load_of_not_holds {store : Store} {files : FileTree}
    (h : ∀ ledger, ¬store.Holds files ledger) :
    (store.load files).result = false ∧ (store.load files).state = store := by
  apply loadBy_of_not_ok
  intro content ledger hcontent hread
  obtain ⟨text,hencode,htext⟩ := Listing.read_ofBytes_eq_ok_iff.1 hread
  exact h ledger ⟨content,text,hcontent,hencode,htext⟩

theorem holds_of_load {store : Store} {files : FileTree} (h : (store.load files).result = true) :
    ∃ ledger, store.Holds files ledger := by
  apply Classical.byContradiction
  intro hnone
  have hresult := (load_of_not_holds fun ledger hholds => hnone ⟨ledger,hholds⟩).1
  rw [h] at hresult
  cases hresult

/-- Loading succeeds exactly if the file holds a ledger, which then takes the place of the old one.
Otherwise the store is as before, and in no case does loading touch the files, or what is known
of writes that are due. -/
theorem load_takes_all_or_nothing (store : Store) (files : FileTree) :
    ((store.load files).result = true ↔ ∃ ledger, store.Holds files ledger) ∧
    (∀ ledger, store.Holds files ledger → (store.load files).state = { store with ledger }) ∧
    ((store.load files).result = false → (store.load files).state = store) ∧
    (store.load files).files = files ∧
    (store.load files).state.dirty = store.dirty ∧
    (store.load files).state.pending = store.pending := by
  by_cases hholds : ∃ ledger, store.Holds files ledger
  · obtain ⟨ledger,h⟩ := hholds
    obtain ⟨hresult,hstate⟩ := load_of_holds h
    refine ⟨iff_of_true hresult ⟨ledger,h⟩,fun _ h => (load_of_holds h).2,?_,loadBy_files _ _ _,?_,?_⟩
    · intro hfalse
      rw [hresult] at hfalse
      cases hfalse
    · rw [hstate]
    · rw [hstate]
  · obtain ⟨hresult,hstate⟩ := load_of_not_holds fun ledger h => hholds ⟨ledger,h⟩
    have hfalse : ¬(store.load files).result = true := by simp [hresult]
    refine ⟨iff_of_false hfalse hholds,fun ledger h => absurd ⟨ledger,h⟩ hholds,fun _ => hstate,
      loadBy_files _ _ _,?_,?_⟩
    · rw [hstate]
    · rw [hstate]

end Store
end LoadLedger
