import LoadLedger.Journal
import LoadLedger.Proofs.Ledger.Views
import LoadLedger.Proofs.Listing.Remarks
import LoadLedger.Proofs.Listing.RoundTrip
import Mathlib.Data.List.Basic

/-! # Reading with another vocabulary

The vocabulary in which loads were recorded plays no part in their listing, so a listing may be read
with any other. What comes back is the ledger as far as the reader's vocabulary reaches: all
packages, and of each record the instruction sets that the reader knows. Every instruction set that
is dropped is remarked upon where it stands, and so is every record that is dropped with its last.
-/
namespace LoadLedger

/-- What a vocabulary leaves of a record. -/
structure DexUse.Narrows (vocabulary : Vocabulary) (narrow whole : DexUse) : Prop where
  owner : narrow.owner = whole.owner
  usedByOthers : narrow.usedByOthers = whole.usedByOthers
  isas : ∀ isa, narrow.isas.contains isa = true ↔
    whole.isas.contains isa = true ∧ vocabulary.contains isa = true
  some : ∃ isa, narrow.isas.contains isa = true

variable (vocabulary : Vocabulary)

/-- A record within a vocabulary, unless none of its instruction sets is known there. -/
def DexUse.within (dex : DexUse) : Option DexUse :=
  let known := dex.isas.filter fun isa _ => vocabulary.contains isa
  if known.isEmpty then none else some { dex with isas := known }

def PackageUse.within (use : PackageUse) : PackageUse :=
  { use with dexFiles := use.dexFiles.filterMap fun _ => DexUse.within vocabulary }

def Ledger.within (ledger : Ledger) : Ledger := ledger.map (PackageUse.within vocabulary)

/-- What a reader has to say about a record: the instruction sets that it does not know, one by one,
and that it knows no other. -/
def DexUse.remarks (path : Text) (dex : DexUse) : List Listing.Remark :=
  (dex.isas.keys.filter (!vocabulary.contains ·)).map .unsupportedIsa ++
    if dex.within vocabulary = none then [.noSupportedIsa path] else []

/-- What a reader has to say about a ledger, record by record as they stand in the listing. -/
def Ledger.remarks (ledger : Ledger) : List Listing.Remark :=
  ledger.entries.flatMap fun p => p.2.dexFiles.entries.flatMap fun q => q.2.remarks vocabulary q.1

variable {vocabulary}

theorem TextMap.keys_filter {β : Type} (keep : Text → Bool) (m : TextMap β) :
    (m.filter fun k _ => keep k).keys = m.keys.filter keep := by
  rw [keys,filter,keys,List.filter_map]
  rfl

theorem DexUse.within_eq_some_iff {narrow whole : DexUse} :
    whole.within vocabulary = some narrow ↔ narrow.Narrows vocabulary whole := by
  have hknown (isa : Isa) : (whole.isas.filter fun isa _ => vocabulary.contains isa).contains isa =
      true ↔ whole.isas.contains isa = true ∧ vocabulary.contains isa = true := by
    simp only [TextMap.contains_iff_mem_keys,TextMap.keys_filter,List.mem_filter]
  simp only [within]
  constructor
  · intro h
    split at h
    · cases h
    · rename_i hsome
      obtain rfl := Option.some.inj h
      refine ⟨rfl,rfl,hknown,?_⟩
      simpa [TextMap.isEmpty_iff] using hsome
  · rintro ⟨howner,hused,hisas,isa,hisa⟩
    have hsame : whole.isas.filter (fun isa _ => vocabulary.contains isa) = narrow.isas :=
      TextSet.ext fun isa => (hknown isa).trans (hisas isa).symm
    have hsome : ¬narrow.isas.isEmpty = true := by
      rw [TextMap.isEmpty_iff]
      exact fun hnone => by simp [hnone isa] at hisa
    rw [hsame,if_neg hsome,← howner,← hused]

namespace Ledger

theorem flag?_within (ledger : Ledger) (name : Text) :
    (ledger.within vocabulary).flag? name = ledger.flag? name := by
  rw [flag?,within,TextMap.find?_map,Option.map_map,flag?]
  rfl

theorem dexUse?_within (ledger : Ledger) (name path : Text) :
    (ledger.within vocabulary).dexUse? name path =
      (ledger.dexUse? name path).bind (DexUse.within vocabulary) := by
  rw [dexUse?,within,TextMap.find?_map,dexUse?,Option.bind_map,Option.bind_assoc]
  refine congrArg _ (funext fun use => ?_)
  exact TextMap.find?_filterMap _ _ _

end Ledger

namespace Listing

/-- A record that does not break its lines, and does not lose the end of them. -/
structure RecordPortable (path : Text) (dex : DexUse) : Prop where
  path : PathReadable path
  isas : IsasReadable dex.isas
  bare : EndReadable dex.isas
  owner : OwnerReadable dex.owner

theorem RecordPortable.writable {path : Text} {dex : DexUse} (h : RecordPortable path dex) :
    RecordWritable path dex := ⟨h.path,h.isas,h.owner⟩

theorem reread_eq_within {dex : DexUse} (h : IsasReadable dex.isas) (hend : EndReadable dex.isas) :
    reread vocabulary dex = dex.within vocabulary := by
  let known := dex.isas.filter fun isa _ => vocabulary.contains isa
  have hkeys : known.keys = dex.isas.keys.filter vocabulary.contains := TextMap.keys_filter _ _
  have hset : TextSet.ofList (dex.isas.keys.filter vocabulary.contains) = known := by
    rw [← hkeys,TextSet.ofList_keys]
  have hempty : known.isEmpty = true ↔ dex.isas.keys.filter vocabulary.contains = [] := by
    rw [← hset,TextSet.isEmpty_ofList]
  simp only [reread,bareTokens_keys h hend,hset,DexUse.within,← hempty]
  rfl

theorem map_rereadPackage_eq_within {ledger : Ledger}
    (h : Ledger.Every NameReadable RecordPortable ledger) :
    ledger.map (rereadPackage vocabulary) = ledger.within vocabulary := by
  apply TextMap.ext_find?
  intro name
  rw [TextMap.find?_map,Ledger.within,TextMap.find?_map]
  cases huse : ledger.find? name with
  | none => rfl
  | some use =>
    have hfiles : use.dexFiles.filterMap (fun _ => reread vocabulary) =
        use.dexFiles.filterMap fun _ => DexUse.within vocabulary := by
      apply TextMap.ext_find?
      intro path
      rw [TextMap.find?_filterMap,TextMap.find?_filterMap]
      cases hdex : use.dexFiles.find? path with
      | none => rfl
      | some dex =>
        have hrecord := (h name use huse).2 path dex hdex
        exact reread_eq_within hrecord.isas hrecord.bare
    rw [Option.map_some,Option.map_some,rereadPackage,PackageUse.within,hfiles]

theorem remarks_dexItem {path : Text} {dex : DexUse} (h : RecordPortable path dex) :
    (dexItem path dex).remarks vocabulary = dex.remarks vocabulary path := by
  have hnone : dex.isas.keys.filter vocabulary.contains = [] ↔ dex.within vocabulary = none := by
    rw [← reread_eq_within h.isas h.bare,reread,bareTokens_keys h.isas h.bare]
    simp
  simp only [dexItem,Item.remarks,bareTokens_keys h.isas h.bare,DexUse.remarks,hnone]

theorem remarks_itemsOf {ledger : Ledger} (h : Ledger.Every NameReadable RecordPortable ledger) :
    (itemsOf ledger).flatMap (Item.remarks vocabulary) = ledger.remarks vocabulary := by
  rw [itemsOf,List.flatMap_assoc,Ledger.remarks]
  refine List.flatMap_congr fun p hp => ?_
  have hrecords := (h p.1 p.2 (TextMap.find?_eq_some_iff.2 hp)).2
  rw [packageItems,List.flatMap_cons,List.flatMap_map]
  refine List.flatMap_congr fun q hq => ?_
  exact remarks_dexItem (hrecords q.1 q.2 (TextMap.find?_eq_some_iff.2 hq))

theorem severity_remark_eq_warning_iff {remark : Remark} :
    (Note.remark remark).severity = .warning ↔ ∃ isa, remark = .unsupportedIsa isa := by
  cases remark <;> simp [Note.severity]

theorem severity_remark_eq_error_iff {remark : Remark} :
    (Note.remark remark).severity = .error ↔ ∃ path, remark = .noSupportedIsa path := by
  cases remark <;> simp [Note.severity]

/-- A ledger whose names, paths and instruction sets do not break their lines can be listed, and from
its listing any vocabulary gets the ledger within it. Every package is there with its flag, and
exactly the records are there of which something is left. There is a warning for each instruction
set outside the vocabulary and an error for each record without any other, in the order of the
listing. -/
theorem read_render_within (vocabulary : Vocabulary) {version : Int} {ledger : Ledger}
    (hversion : version.natAbs < 10 ^ Numeral.digitLimit)
    (hledger : Ledger.Every NameReadable RecordPortable ledger) :
    (∀ piece ∈ pieces version ledger, piece.numbersFit = true) ∧
    read vocabulary version (.ofText (render version ledger)) =
      ⟨ledger.remarks vocabulary,.ok (ledger.within vocabulary)⟩ ∧
    (∀ name, (ledger.within vocabulary).flag? name = ledger.flag? name) ∧
    (∀ name path narrow, (ledger.within vocabulary).dexUse? name path = some narrow ↔
      ∃ whole, ledger.dexUse? name path = some whole ∧ narrow.Narrows vocabulary whole) ∧
    ∀ remark, ((Note.remark remark).severity = .warning ↔ ∃ isa, remark = .unsupportedIsa isa) ∧
      ((Note.remark remark).severity = .error ↔ ∃ path, remark = .noSupportedIsa path) := by
  have hwritable : Ledger.Every NameReadable RecordWritable ledger :=
    hledger.imp (fun _ hname => hname) fun _ _ hrecord => hrecord.writable
  have hfits : ledger.OwnersFit :=
    hledger.imp (fun _ _ => trivial) fun _ _ hrecord => hrecord.owner.fits
  have hresult := read_render vocabulary hversion hwritable
  have hremarks := remarks_of_read (bareLines_render version (lacks_lineFeed hwritable))
    (spells_itemsOf hwritable) hresult
  rw [map_rereadPackage_eq_within hledger] at hresult
  rw [remarks_itemsOf hledger] at hremarks
  refine ⟨numbersFit_pieces_iff.2 ⟨Numeral.fits_iff.2 hversion,hfits⟩,
    congrArg₂ Reading.mk hremarks hresult,ledger.flag?_within,fun name path narrow => ?_,
    fun _ => ⟨severity_remark_eq_warning_iff,severity_remark_eq_error_iff⟩⟩
  rw [Ledger.dexUse?_within,Option.bind_eq_some_iff]
  simp only [DexUse.within_eq_some_iff]

theorem endReadable_ofList {isas : List Isa}
    (h : ∀ isa ∈ isas, isa.getLast? ≠ some CodePoint.carriageReturn) :
    EndReadable (TextSet.ofList isas) := fun isa hisa => h isa (TextSet.contains_ofList.1 hisa.1)

/-- A package with a record that some vocabularies know in part and one that most do not know. -/
def foreignLedger : Ledger :=
  TextMap.empty.insert "a" ((({} : PackageUse).setDexFile "#p,"
    ⟨.user (-1),true,TextSet.ofList ["arm","","x86"]⟩).setDexFile "q"
      ⟨.user 10,false,TextSet.ofList ["mips"]⟩)

theorem read_render_foreignLedger :
    (1 : Int).natAbs < 10 ^ Numeral.digitLimit ∧
    Ledger.Every NameReadable RecordPortable foreignLedger ∧
    read (TextSet.ofList ["arm","arm64"]) 1 (.ofText (render 1 foreignLedger)) =
      ⟨[.unsupportedIsa "",.unsupportedIsa "x86",.unsupportedIsa "mips",.noSupportedIsa "q"],
        .ok (TextMap.empty.insert "a" (({} : PackageUse).setDexFile "#p,"
          ⟨.user (-1),true,TextSet.ofList ["arm"]⟩))⟩ := by
  have hlimit : ∀ n < 10 ^ 2, n < 10 ^ Numeral.digitLimit := fun n hn =>
    Nat.lt_of_lt_of_le hn (Nat.pow_le_pow_right (by decide) (by decide))
  have hversion : (1 : Int).natAbs < 10 ^ Numeral.digitLimit := hlimit 1 (by decide)
  have hledger : Ledger.Every NameReadable RecordPortable foreignLedger := by
    refine (Ledger.every_empty _ _).insert ⟨by decide,by decide,by decide⟩
      (((PackageUse.every_flag _ false).setDexFile ?_).setDexFile ?_)
    · exact ⟨⟨by decide,by decide⟩,isasReadable_ofList (by decide) (by decide),
        endReadable_ofList (by decide),-1,rfl,hlimit 1 (by decide)⟩
    · exact ⟨⟨by decide,by decide⟩,isasReadable_ofList (by decide) (by decide),
        endReadable_ofList (by decide),10,rfl,hlimit 10 (by decide)⟩
  refine ⟨hversion,hledger,?_⟩
  rw [(read_render_within (TextSet.ofList ["arm","arm64"]) hversion hledger).2.1]
  have hremarks : foreignLedger.remarks (TextSet.ofList ["arm","arm64"]) =
      [.unsupportedIsa "",.unsupportedIsa "x86",.unsupportedIsa "mips",.noSupportedIsa "q"] := by
    decide
  have hwithin : foreignLedger.within (TextSet.ofList ["arm","arm64"]) =
      TextMap.empty.insert "a" (({} : PackageUse).setDexFile "#p,"
        ⟨.user (-1),true,TextSet.ofList ["arm"]⟩) := by decide
  rw [hremarks,hwithin]

end Listing
end LoadLedger
