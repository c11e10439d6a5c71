import LoadLedger.Proofs.Listing.Storable
import LoadLedger.Proofs.Store.Loading
import LoadLedger.Proofs.Store.Writing

/-! # Loading what was written

A ledger that was loaded can be stored, so once it has been written it is loaded again as it is and
without a complaint. Loading and writing normalises a file, and a second time changes nothing.
-/
namespace LoadLedger

theorem Listing.Storable.ownersFit {vocabulary : Vocabulary} {ledger : Ledger}
    (h : Storable vocabulary ledger) : ledger.OwnersFit :=
  h.imp (fun _ _ => trivial) fun _ _ hdex => hdex.owner.fits

namespace Store

/-- Whatever a file holds can be stored, however it was spelled there. -/
theorem storable_of_holds {store : Store} {files : FileTree} {ledger : Ledger}
    (h : store.Holds files ledger) : Listing.Storable store.vocabulary ledger := by
  obtain ⟨content,text,-,-,hread⟩ := h
  exact Listing.storable_of_read (LineFeed.carriageReturn_notMem_replaceReturns text) hread

theorem storable_of_load {store : Store} {files : FileTree} (h : (store.load files).result = true) :
    Listing.Storable store.vocabulary (store.load files).state.ledger := by
  obtain ⟨ledger,hholds⟩ := holds_of_load h
  rw [(load_of_holds hholds).2]
  exact storable_of_holds hholds

theorem load_of_encode {store : Store} {files : FileTree} {ledger : Ledger} {content : Bytes}
    (hledger : Listing.Storable store.vocabulary ledger)
    (hcontent : files.contentOf store.path.text = .ok content)
    (hencode : Utf8.encode (Listing.render Listing.currentVersion ledger) = .ok content) :
    store.load files =
      ⟨true,{ store with ledger },files,[.loaded ledger.size store.path.text]⟩ := by
  have hversion := Numeral.fits_iff.1 Listing.fits_currentVersion
  have hread := hledger.read_ofBytes hversion hencode
  simp only [load,loadBy,hcontent,hread]
  rfl

/-- Once a file that loads has been written, a fresh store loads the same ledger from it and neither
warns nor complains of an error; and to write it once more leaves the very same bytes. -/
theorem load_write_load (store : Store) (files : FileTree) (delay : Binary64)
    (hload : (store.load files).result = true)
    (hwrite : ((store.load files).state.writeNow files).result = true) :
    let loaded := (store.load files).state
    let written := (loaded.writeNow files).files
    let again := (Store.create store.vocabulary store.path delay).load written
    again.result = true ∧ again.state.ledger = loaded.ledger ∧
      (∀ note ∈ again.notes, note.severity ≠ .warning ∧ note.severity ≠ .error) ∧
      (again.state.writeNow again.files).result = true ∧
      ∃ content, written.contentOf store.path.text = .ok content ∧
        (again.state.writeNow again.files).files.contentOf store.path.text = .ok content := by
  intro loaded written again
  have hpath : loaded.path = store.path := (store.loadBy_vocabulary files _).2
  have hstorable : Listing.Storable store.vocabulary loaded.ledger := storable_of_load hload
  obtain ⟨-,content,hcontent,hencode⟩ := contentOf_writeNow hwrite
  rw [hpath] at hcontent
  let fresh : Store := { create store.vocabulary store.path delay with ledger := loaded.ledger }
  have hagain : again =
      ⟨true,fresh,written,[.loaded loaded.ledger.size store.path.text]⟩ :=
    load_of_encode hstorable hcontent hencode
  have hreplaceable : written.Replaceable fresh.path := hpath ▸ replaceable_of_writeNow hwrite
  have hrewrite := writeNow_of_replaceable hreplaceable hstorable.ownersFit hencode
  obtain ⟨-,content',hcontent',hencode'⟩ := contentOf_writeNow hrewrite
  obtain rfl : content' = content := Except.ok.inj (hencode'.symm.trans hencode)
  rw [hagain]
  exact ⟨rfl,rfl,by simp [Note.severity],hrewrite,content',hcontent,hcontent'⟩

/-- A file with line ends of two kinds, odd numerals, an unknown instruction set and a package that
is begun twice. -/
def oddFiles : FileTree where
  nodes := [([.plain "list".toUTF8.toList],.file ("PACKAGE_MANAGER__PACKAGE_DEX_USAGE__ +01\r\n" ++
    "a,0\r#p\r\n1_0,1,z,arm\n\na,1\n#q\n+7,0,arm,z,arm").toUTF8.toList)]

def oddStore : Store := .create (TextSet.ofList ["arm"]) (.ofText "list") .zero

theorem load_write_load_oddFiles :
    (oddStore.load oddFiles).result = true ∧
    ((oddStore.load oddFiles).state.writeNow oddFiles).result = true ∧
    ((Store.create oddStore.vocabulary oddStore.path .zero).load
      ((oddStore.load oddFiles).state.writeNow oddFiles).files).result = true := by
  have hload : (oddStore.load oddFiles).result = true := by decide +kernel
  have hwrite : ((oddStore.load oddFiles).state.writeNow oddFiles).result = true := by
    decide +kernel
  exact ⟨hload,hwrite,(load_write_load oddStore oddFiles .zero hload hwrite).1⟩

end Store
end LoadLedger
