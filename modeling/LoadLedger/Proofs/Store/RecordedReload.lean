import LoadLedger.Proofs.Ledger.Recording
import LoadLedger.Proofs.Store.Reloading
import LoadLedger.Proofs.Vocabulary

/-! # Loading what was recorded

Recording takes any name and any path, but the listing escapes nothing. So of the ledgers that a
write puts into the file, those come back that hold no name and no path with a separator or a line
end in the wrong place, and no others.
-/
namespace LoadLedger

variable {vocabulary : Vocabulary}

theorem RecordFrom.storable {path : Text} {dex : DexUse} (hplain : vocabulary.Plain)
    (h : RecordFrom vocabulary Listing.PathStorable Listing.OwnerReadable path dex) :
    Listing.RecordStorable vocabulary path dex where
  path := h.path
  isas := ⟨h.some,fun isa hisa => hplain.comma isa (h.known isa hisa),
    fun isa hisa => hplain.lineFeed isa (h.known isa hisa)⟩
  known := h.known
  bare := fun isa hisa => hplain.carriageReturn isa (h.known isa hisa)
  owner := h.owner

theorem Listing.ownerReadable_of_fits {owner : Owner} (hsome : owner ≠ .noOne)
    (hfits : owner.fits = true) : OwnerReadable owner := by
  cases owner with
  | user id => exact ⟨id,rfl,Numeral.fits_iff.1 hfits⟩
  | noOne => exact absurd rfl hsome

theorem Ledger.Every.storable {ledger : Ledger} (hplain : vocabulary.Plain)
    (h : Ledger.Every Listing.NameStorable
      (RecordFrom vocabulary Listing.PathStorable (· ≠ .noOne)) ledger)
    (hfits : ledger.OwnersFit) : Listing.Storable vocabulary ledger := by
  refine (h.and hfits).imp (fun _ hname => hname.1) fun path dex ⟨hrecord,howner⟩ => ?_
  have hreadable := Listing.ownerReadable_of_fits hrecord.owner howner
  exact RecordFrom.storable hplain ⟨hrecord.path,hreadable,hrecord.some,hrecord.known⟩

namespace Store

/-- A ledger built up by loads and then written is loaded again exactly if its names and paths can be
stored. Otherwise the file cannot be loaded, or another ledger is loaded from it. -/
theorem load_recorded_iff (store : Store) (loads : List Load) (files : FileTree) (delay : Binary64)
    (hplain : store.vocabulary.Plain) (howners : ∀ load ∈ loads, load.owner ≠ .noOne)
    (hledger : store.ledger = loads.foldl (Ledger.enter store.vocabulary) TextMap.empty)
    (hwrite : (store.writeNow files).result = true) :
    let again := (Store.create store.vocabulary store.path delay).load (store.writeNow files).files
    (again.result = true ∧ again.state.ledger = store.ledger) ↔
      Ledger.Every Listing.NameStorable (fun path _ => Listing.PathStorable path) store.ledger := by
  intro again
  constructor
  · rintro ⟨hresult,hsame⟩
    have hstorable : Listing.Storable store.vocabulary again.state.ledger := storable_of_load hresult
    rw [hsame] at hstorable
    exact hstorable.imp (fun _ hname => hname) fun _ _ hrecord => hrecord.path
  · intro hstorable
    obtain ⟨hfits,content,hcontent,hencode⟩ := contentOf_writeNow hwrite
    have hloads : ∀ load ∈ loads, load.Meets (fun _ => True) (fun _ => True) (· ≠ .noOne) :=
      fun load hload => ⟨trivial,fun _ => trivial,fun _ => howners load hload⟩
    have hrecorded : Ledger.Every (fun _ => True)
        (RecordFrom store.vocabulary (fun _ => True) (· ≠ .noOne)) store.ledger := by
      rw [hledger]
      exact Ledger.every_foldl_enter hloads (Ledger.every_empty _ _)
    have hall : Listing.Storable store.vocabulary store.ledger := by
      refine Ledger.Every.storable hplain ((hstorable.and hrecorded).imp ?_ ?_) hfits
      · exact fun name hname => hname.1
      · rintro path dex ⟨hpath,hrecord⟩
        exact ⟨hpath,hrecord.owner,hrecord.some,hrecord.known⟩
    have hagain : again = ⟨true,{ create store.vocabulary store.path delay with
        ledger := store.ledger },_,_⟩ := load_of_encode hall hcontent hencode
    rw [hagain]
    exact ⟨rfl,rfl⟩

def ofLoads (loads : List Load) : Store :=
  { create (TextSet.ofList ["arm"]) (.ofText "list") .zero with
    ledger := loads.foldl (Ledger.enter (TextSet.ofList ["arm"])) TextMap.empty }

/-- In a path, separators may stand anywhere. -/
theorem load_recorded_commaPath :
    let store := ofLoads [⟨"a","#x,\t",.user 7,"arm",true,false⟩]
    Vocabulary.Plain store.vocabulary ∧ (store.writeNow {}).result = true ∧
    ((create store.vocabulary store.path .zero).load (store.writeNow {}).files).result = true := by
  intro store
  have hplain : Vocabulary.Plain store.vocabulary := by
    apply Vocabulary.plain_ofList
    decide
  have hwrite : (store.writeNow {}).result = true := by decide +kernel
  have hname : Listing.NameStorable "a" := ⟨⟨by decide,by decide,by decide⟩,by decide⟩
  have hpath : Listing.PathStorable "#x,\t" := ⟨by decide,by decide⟩
  have hstorable : Ledger.Every Listing.NameStorable (fun path _ => Listing.PathStorable path)
      store.ledger :=
    (Ledger.every_empty _ _).insert hname ((PackageUse.every_flag _ false).setDexFile hpath)
  have hagain := load_recorded_iff store [⟨"a","#x,\t",.user 7,"arm",true,false⟩] {} .zero hplain
    (by decide) rfl hwrite
  exact ⟨hplain,hwrite,(hagain.2 hstorable).1⟩

/-- A comma in the name of a package keeps the whole file from being loaded, and a line end in it
brings up packages that were never recorded. -/
theorem not_load_recorded :
    let comma := ofLoads [⟨"a,b","x",.user 0,"arm",false,false⟩]
    let lineFeed := ofLoads [⟨"a,0\nb","x",.user 0,"arm",false,false⟩]
    let again (store : Store) := (create store.vocabulary store.path .zero).load
      (store.writeNow {}).files
    (comma.writeNow {}).result = true ∧ (again comma).result = false ∧
    (lineFeed.writeNow {}).result = true ∧ (again lineFeed).result = true ∧
    (again lineFeed).state.ledger.contains "a" = true ∧ lineFeed.ledger.contains "a" = false := by
  decide +kernel

end Store
end LoadLedger
