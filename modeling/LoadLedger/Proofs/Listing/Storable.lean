import LoadLedger.Proofs.FileLines
import LoadLedger.Proofs.Listing.Remarks
import LoadLedger.Proofs.Listing.RoundTrip

/-! # What comes back from a file

A file has its line ends replaced when it is read, so no carriage return gets out of it. Whatever
was read from a file is drawn from its text, and written again it comes back as it is and without a
remark.
-/
namespace LoadLedger.Listing

structure NameStorable (name : Text) : Prop extends NameReadable name where
  carriageReturn : CodePoint.carriageReturn ∉ name

structure PathStorable (path : Text) : Prop where
  lineFeed : CodePoint.lineFeed ∉ path
  carriageReturn : CodePoint.carriageReturn ∉ path

structure RecordStorable (vocabulary : Vocabulary) (path : Text) (dex : DexUse) : Prop where
  path : PathStorable path
  isas : IsasReadable dex.isas
  known : IsasKnown vocabulary dex.isas
  bare : ∀ isa, dex.isas.contains isa = true → CodePoint.carriageReturn ∉ isa
  owner : OwnerReadable dex.owner

/-- A ledger that a file can hold. -/
def Storable (vocabulary : Vocabulary) (ledger : Ledger) : Prop :=
  Ledger.Every NameStorable (RecordStorable vocabulary) ledger

variable {vocabulary : Vocabulary} {version : Int}

/-! ## What is read is drawn from the text -/

/-- A record whose path and instruction sets are drawn from a text. -/
structure RecordDrawn (text path : Text) (dex : DexUse) : Prop where
  path : path ⊆ text
  isas : ∀ isa, dex.isas.contains isa = true → isa ⊆ text
  owner : OwnerReadable dex.owner

theorem Item.Spelled.enters_drawn {item : Item} {lines : List Text} {text : Text}
    (h : item.Spelled lines) (hlines : ∀ line ∈ lines, line ⊆ text) :
    item.Enters vocabulary (· ⊆ text) (RecordDrawn text) := by
  cases h with
  | blank => trivial
  | @package name line used hstart hfields =>
    intro c hc
    have hmem : name ∈ line.split CodePoint.comma := by simp [hfields]
    exact hlines line List.mem_cons_self (Text.mem_of_mem_split hmem hc)
  | @dexFile path data field owner used isas hfields howner hisas =>
    intro hknown
    refine ⟨fun c hc => ?_,fun isa hisa c hc => ?_,owner,rfl,Numeral.natAbs_lt_of_read? howner⟩
    · exact hlines (pathLine path) List.mem_cons_self (List.mem_cons_of_mem _ hc)
    · have hisa := (List.mem_filter.1 (TextSet.contains_ofList.1 hisa)).1
      have hmem : isa ∈ data.split CodePoint.comma := by simp [hfields,hisa]
      exact hlines data (by simp) (Text.mem_of_mem_split hmem hc)

theorem Spells.enters_drawn {items : List Item} {lines : List Text} {text : Text}
    (h : Spells items lines) (hlines : ∀ line ∈ lines, line ⊆ text) :
    ∀ item ∈ items, item.Enters vocabulary (· ⊆ text) (RecordDrawn text) := by
  intro item hitem
  obtain ⟨front,hfront,hsubset⟩ := h.spelled_of_mem hitem
  exact hfront.enters_drawn fun line hline => hlines line (hsubset hline)

theorem drawn_of_read {text : Text} {ledger : Ledger}
    (h : (read vocabulary version (.ofText text)).result = .ok ledger) :
    Ledger.Every (· ⊆ text) (RecordDrawn text) ledger := by
  obtain ⟨numeral,lines,items,hlines,-,hspells,-,rfl⟩ := read_ofText_eq_ok_iff.1 h
  have hdrawn : ∀ line ∈ lines, line ⊆ text :=
    fun line hline => subset_of_mem_bareLines (hlines ▸ List.mem_cons_of_mem _ hline)
  exact every_ledgerOf (hspells.enters_drawn hdrawn)

theorem storable_of_read {text : Text} {ledger : Ledger} (htext : CodePoint.carriageReturn ∉ text)
    (h : (read vocabulary version (.ofText text)).result = .ok ledger) :
    Storable vocabulary ledger := by
  refine ((readable_of_read h).and (drawn_of_read h)).imp ?_ ?_
  · rintro name ⟨hreadable,hdrawn⟩
    exact ⟨hreadable,fun hc => htext (hdrawn hc)⟩
  · rintro path dex ⟨⟨hpath,hisas,hknown⟩,hdrawn⟩
    exact ⟨⟨hpath.lineFeed,fun hc => htext (hdrawn.path hc)⟩,hisas,hknown,
      fun isa hisa hc => htext (hdrawn.isas isa hisa hc),hdrawn.owner⟩

/-! ## What is stored is read back -/

theorem Storable.writable {ledger : Ledger} (h : Storable vocabulary ledger) :
    Ledger.Every NameReadable RecordWritable ledger := by
  refine h.imp (fun name hname => hname.toNameReadable) fun path dex hdex => ?_
  have hpath : path.getLast? ≠ some CodePoint.carriageReturn :=
    fun hlast => hdex.path.carriageReturn (List.mem_of_getLast? hlast)
  exact ⟨⟨hdex.path.lineFeed,hpath⟩,hdex.isas,hdex.owner⟩

theorem RecordStorable.endReadable {path : Text} {dex : DexUse}
    (h : RecordStorable vocabulary path dex) : EndReadable dex.isas :=
  fun isa hisa hlast => h.bare isa hisa.1 (List.mem_of_getLast? hlast)

theorem Storable.reread_eq_self {ledger : Ledger} (h : Storable vocabulary ledger) :
    ledger.map (rereadPackage vocabulary) = ledger :=
  map_rereadPackage_eq_self_iff.2 (h.imp (fun _ _ => trivial) fun _ _ hdex =>
    (reread_eq_some_iff hdex.isas).2 ⟨hdex.known,hdex.endReadable⟩)

theorem Storable.remarks_itemsOf {ledger : Ledger} (h : Storable vocabulary ledger) :
    (itemsOf ledger).flatMap (Item.remarks vocabulary) = [] := by
  refine List.flatMap_eq_nil_iff.2 fun item hitem => ?_
  obtain ⟨⟨name,use⟩,huse,hitem⟩ := List.mem_flatMap.1 hitem
  rcases List.mem_cons.1 hitem with rfl | hitem
  · rfl
  · obtain ⟨⟨path,dex⟩,hdex,rfl⟩ := List.mem_map.1 hitem
    have hrecords := (h name use (TextMap.find?_eq_some_iff.2 huse)).2
    have hrecord := hrecords path dex (TextMap.find?_eq_some_iff.2 hdex)
    have hknown : ∀ isa ∈ dex.isas.keys, vocabulary.contains isa = true :=
      fun isa hisa => hrecord.known isa (TextMap.contains_iff_mem_keys.2 hisa)
    have hunknown : dex.isas.keys.filter (!vocabulary.contains ·) = [] := by
      refine List.filter_eq_nil_iff.2 fun isa hisa => ?_
      rw [hknown isa hisa]
      simp
    have hsome : dex.isas.keys ≠ [] := by
      obtain ⟨isa,hisa⟩ := hrecord.isas.some
      exact TextMap.keys_ne_nil hisa
    simp only [dexItem,Item.remarks,bareTokens_keys hrecord.isas hrecord.endReadable,hunknown,
      List.filter_eq_self.2 hknown,if_neg hsome]
    rfl

theorem Storable.read_render {ledger : Ledger} (h : Storable vocabulary ledger)
    (hversion : version.natAbs < 10 ^ Numeral.digitLimit) :
    read vocabulary version (.ofText (render version ledger)) = ⟨[],.ok ledger⟩ := by
  have hresult := Listing.read_render vocabulary hversion h.writable
  have hremarks := remarks_of_read (bareLines_render version (lacks_lineFeed h.writable))
    (spells_itemsOf h.writable) hresult
  rw [h.reread_eq_self] at hresult
  rw [h.remarks_itemsOf] at hremarks
  exact congrArg₂ Reading.mk hremarks hresult

/-- What stands in a listing besides names, paths and instruction sets. -/
def IsScaffold (c : CodePoint) : Prop := c.val < 128 ∧ c ≠ CodePoint.carriageReturn

instance (c : CodePoint) : Decidable (IsScaffold c) := by
  unfold IsScaffold
  infer_instance

theorem isScaffold_of_all {text : Text} (h : text.all (fun c => decide (IsScaffold c)) = true) :
    ∀ c ∈ text, IsScaffold c := by
  simpa using h

theorem notMem_scaffold {text : Text} (htext : ∀ c ∈ text, IsScaffold c) {c : CodePoint}
    (h : ¬IsScaffold c) : c ∉ text := fun hmem => h (htext c hmem)

theorem isScaffold_of_mem_ofInt {n : Int} : ∀ c ∈ Numeral.ofInt n, IsScaffold c := by
  intro c hc
  have hplain := Numeral.isPlain_of_mem_ofInt hc
  refine ⟨?_,hplain.ne (by decide)⟩
  rcases hplain with rfl | hdigit
  · decide
  · omega

theorem isScaffold_of_mem_writeFlag (used : Bool) : ∀ c ∈ writeFlag used, IsScaffold c := by
  cases used
  · exact isScaffold_of_all (by decide)
  · exact isScaffold_of_all (by decide)

theorem isScaffold_of_mem_owner (owner : Owner) : ∀ c ∈ owner.text, IsScaffold c := by
  cases owner with
  | user id => exact isScaffold_of_mem_ofInt
  | noOne => exact isScaffold_of_all (by decide)

theorem foreign_of_not_scaffold {c : CodePoint} (hc : ¬IsScaffold c) : Foreign c where
  comma := fun h => hc (h ▸ by decide)
  numberSign := fun h => hc (h ▸ by decide)
  owner := fun owner => notMem_scaffold (isScaffold_of_mem_owner owner) hc
  flag := fun used => notMem_scaffold (isScaffold_of_mem_writeFlag used) hc

theorem notMem_render {ledger : Ledger} {c : CodePoint} (hc : ¬IsScaffold c)
    (h : Lacks ledger c) : c ∉ render version ledger := by
  have hheader : c ∉ header ++ Numeral.ofInt version := by
    rw [List.mem_append]
    exact not_or.2 ⟨notMem_scaffold (isScaffold_of_all (by decide)) hc,
      notMem_scaffold isScaffold_of_mem_ofInt hc⟩
  rw [render_eq_flatMap,List.mem_flatMap]
  rintro ⟨line,hmem,hin⟩
  rcases List.mem_append.1 hin with hin | hin
  · rcases List.mem_cons.1 hmem with rfl | hmem
    · exact hheader hin
    · exact h.notMem_lines (foreign_of_not_scaffold hc) line hmem hin
  · exact notMem_scaffold (isScaffold_of_all (by decide)) hc hin

theorem Storable.carriageReturn_notMem_render {ledger : Ledger} (h : Storable vocabulary ledger) :
    CodePoint.carriageReturn ∉ render version ledger :=
  notMem_render (by decide) (h.imp (fun _ hname => hname.carriageReturn)
    fun _ _ hrecord => ⟨hrecord.path.carriageReturn,hrecord.bare⟩)

/-- From a file, too, a ledger that can be stored comes back as it is and without a remark. -/
theorem Storable.read_ofBytes {ledger : Ledger} (h : Storable vocabulary ledger)
    (hversion : version.natAbs < 10 ^ Numeral.digitLimit) {bytes : Bytes}
    (hencode : Utf8.encode (render version ledger) = .ok bytes) :
    read vocabulary version (.ofBytes bytes) = ⟨[],.ok ledger⟩ := by
  rw [LineFeed.ofBytes_of_encode hencode,
    LineFeed.replaceReturns_eq_self h.carriageReturn_notMem_render,h.read_render hversion]

end LoadLedger.Listing
