import LoadLedger.Proofs.Ledger.Views
import LoadLedger.Proofs.Listing.DataLines
import LoadLedger.Proofs.Store.Reloading
import LoadLedger.Proofs.Tracker.Saved

/-! # Every record lists known instruction sets

Recording refuses instruction sets outside the vocabulary, and reading drops them, together with the
records that are left without any. Nothing else brings in records. So whatever happens in a session,
and whatever files it finds, every record lists an instruction set and none outside the vocabulary.
-/
namespace LoadLedger

/-- Every record lists an instruction set, and none that is not known. -/
def Ledger.Supported (vocabulary : Vocabulary) (ledger : Ledger) : Prop :=
  Ledger.Every (fun _ => True) (RecordFrom vocabulary (fun _ => True) (fun _ => True)) ledger

theorem Store.supported_load {store : Store} (h : store.ledger.Supported store.vocabulary)
    (files : FileTree) : (store.load files).state.ledger.Supported store.vocabulary := by
  by_cases hresult : (store.load files).result = true
  · exact (storable_of_load hresult).imp (fun _ _ => trivial)
      fun _ _ hrecord => ⟨trivial,trivial,hrecord.isas.some,hrecord.known⟩
  · have hnone : ∀ ledger, ¬store.Holds files ledger :=
      fun ledger hholds => hresult (load_of_holds hholds).1
    rw [(load_of_not_holds hnone).2]
    exact h

namespace Session

/-- An operation that finds the files as others have left them. -/
def runAmid (session : Session) (step : FileTree × Operation) : Session :=
  ({ session with files := step.1 } : Session).run step.2

structure Supported (vocabulary : Vocabulary) (session : Session) : Prop where
  ledger : session.tracker.store.ledger.Supported vocabulary
  vocabulary : session.tracker.store.vocabulary = vocabulary

variable {vocabulary : Vocabulary} {session : Session}

theorem Supported.runAmid (h : session.Supported vocabulary) (step : FileTree × Operation) :
    (session.runAmid step).Supported vocabulary := by
  obtain ⟨files,operation⟩ := step
  obtain ⟨-,ledger,hkeeps,happly⟩ := keeps_carryOut session.tracker files operation
  refine ⟨?_,hkeeps.vocabulary.trans h.vocabulary⟩
  by_cases hload : operation = .load
  · subst hload
    exact h.vocabulary ▸ Store.supported_load (h.vocabulary ▸ h.ledger) files
  · obtain rfl := happly hload
    change (operation.carryOut session.tracker files).state.store.ledger.Supported vocabulary
    rw [hkeeps.ledger,h.vocabulary]
    exact Ledger.Every.applyTo h.ledger fun seen _ =>
      ⟨trivial,fun _ => trivial,fun _ => trivial⟩

theorem Supported.foldl (h : session.Supported vocabulary) (steps : List (FileTree × Operation)) :
    (steps.foldl Session.runAmid session).Supported vocabulary := by
  induction steps generalizing session with
  | nil => exact h
  | cons step steps ih => exact ih (h.runAmid step)

/-- In whatever order a session records, prunes, clears, loads and writes, with any files in between:
each record has instruction sets, all of them in the vocabulary. So each of the data lines that stand
in the dump, which is what a successful write puts into the file, has at least three fields, and
however its line ends are read, no reader with any vocabulary refuses its beginning as a data line.
If moreover nothing breaks its line, and no name looks like a path line, no reader of the dump ever
refuses a data line. -/
theorem records_supported (vocabulary : Vocabulary) (path : PathName) (delay : Binary64)
    (autoPersist : Bool) (files : FileTree) (steps : List (FileTree × Operation)) :
    let start : Session := { tracker := { store := .create vocabulary path delay, autoPersist }, files }
    let store := (steps.foldl Session.runAmid start).tracker.store
    (∀ name path dex, store.ledger.dexUse? name path = some dex →
      (∃ isa, dex.isas.contains isa = true) ∧
      ∀ isa, dex.isas.contains isa = true → vocabulary.contains isa = true) ∧
    store.dump = ((Listing.header ++ Numeral.ofInt Listing.currentVersion) ::
      store.ledger.entries.flatMap fun p => Listing.packageLines p.1 p.2).flatMap
        (· ++ Listing.lineEnd) ∧
    (∀ later, (store.writeNow later).result = true → ∃ content,
      (store.writeNow later).files.contentOf store.path.text = .ok content ∧
      Utf8.encode store.dump = .ok content) ∧
    (∀ data ∈ Listing.dataLines store.ledger, 3 ≤ (data.split CodePoint.comma).length ∧
      ∀ rest text, text = data ++ rest ∨ text = LineFeed.replaceReturns (data ++ rest) →
        ∃ line lines, LineFeed.linesOf text = line :: lines ∧ ∀ other cause,
          Listing.readDexData other (Listing.trimLine line) ≠ .error (.invalidDexDataLine cause)) ∧
    (Listing.Lacks store.ledger CodePoint.lineFeed →
      (∀ name, store.ledger.contains name = true → name.head? ≠ some CodePoint.numberSign) →
      ∀ other version cause, (Listing.read other version (.ofText store.dump)).result ≠
        .error (.format (.invalidDexDataLine cause))) := by
  intro start store
  have hstart : start.Supported vocabulary := ⟨Ledger.every_empty _ _,rfl⟩
  have hledger : store.ledger.Supported vocabulary := (hstart.foldl steps).ledger
  have hrecords : ∀ name path dex, store.ledger.dexUse? name path = some dex →
      RecordFrom vocabulary (fun _ => True) (fun _ => True) path dex := by
    intro name path dex hdex
    obtain ⟨use,huse,hdex⟩ := Option.bind_eq_some_iff.1 hdex
    exact (hledger name use huse).2 path dex hdex
  refine ⟨fun name path dex hdex => ?_,Listing.render_eq_flatMap _ _,fun later hwrite => ?_,
    fun data hdata => ?_,fun hfeed hnames other version cause => ?_⟩
  · exact ⟨(hrecords name path dex hdex).some,(hrecords name path dex hdex).known⟩
  · exact (Store.contentOf_writeNow hwrite).2
  · obtain ⟨⟨name,use⟩,huse,hdata⟩ := List.mem_flatMap.1 hdata
    obtain ⟨⟨path,dex⟩,hdex,rfl⟩ := List.mem_map.1 hdata
    have huse := TextMap.find?_eq_some_iff.2 huse
    obtain ⟨isa,hisa⟩ := ((hledger name use huse).2 path dex (TextMap.find?_eq_some_iff.2 hdex)).some
    refine ⟨?_,fun rest text htext => Listing.readDexData_ne_invalidDexDataLine hisa htext⟩
    rw [Listing.dexDataLine_eq_append hisa]
    exact Listing.three_le_fields dex _
  · refine Listing.read_render_ne_invalidDexDataLine hfeed (fun name use huse => ?_) cause
    exact ⟨hnames name (TextMap.contains_iff.2 ⟨use,huse⟩),
      fun path dex hdex => ((hledger name use huse).2 path dex hdex).some⟩

/-- A file with a record of unknown instruction sets only, and a load of an unknown one. -/
example :
    let text : String := "PACKAGE_MANAGER__PACKAGE_DEX_USAGE__1\na,0\n#p\n0,0,z\n#q\n7,0,z,arm\n"
    let files : FileTree := { nodes := [([.plain "list".toUTF8.toList],.file text.toUTF8.toList)] }
    let store : Store := .create (TextSet.ofList ["arm"]) (.ofText "list") .zero
    let steps : List (FileTree × Operation) := [(files,.load),
      ({},.record ⟨"b","#r",.noOne,"z",true,false⟩),({},.record ⟨"b","#r",.noOne,"arm",true,false⟩)]
    let session := steps.foldl Session.runAmid { tracker := { store }, files := {} }
    Listing.dataLines session.tracker.store.ledger = (["7,0,arm","[],1,arm"] : List Text) := by
  decide +kernel

end Session
end LoadLedger
