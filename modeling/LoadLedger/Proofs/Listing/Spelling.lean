import LoadLedger.Proofs.Listing.Readable
import LoadLedger.Proofs.PlainNumerals

/-! # What a written listing spells

As long as no part of a ledger breaks its line, the listing spells the items of the ledger, except
that the last instruction set of a record loses the carriage returns at its end. So it is known
beforehand what a reader makes of it.
-/
namespace LoadLedger.Listing

/-! ## The lines of a listing -/

def packageLines (name : Text) (use : PackageUse) : List Text :=
  packageLine name use :: use.dexFiles.entries.flatMap fun p => [pathLine p.1,dexDataLine p.2]

theorem render_eq_flatMap (version : Int) (ledger : Ledger) : render version ledger =
    ((header ++ Numeral.ofInt version) ::
      ledger.entries.flatMap fun p => packageLines p.1 p.2).flatMap (· ++ lineEnd) := by
  have hdex : ∀ l : List (Text × DexUse), (l.flatMap fun p => dexPieces p.1 p.2).flatMap (·.text) =
      (l.flatMap fun p => [pathLine p.1,dexDataLine p.2]).flatMap (· ++ lineEnd) := by
    intro l
    induction l with
    | nil => rfl
    | cons p l ih =>
      rw [List.flatMap_cons,List.flatMap_cons,List.flatMap_append,ih,List.flatMap_append]
      simp [dexPieces]
  have hpackage : ∀ l : List (Text × PackageUse),
      (l.flatMap fun p => packagePieces p.1 p.2).flatMap (·.text) =
        (l.flatMap fun p => packageLines p.1 p.2).flatMap (· ++ lineEnd) := by
    intro l
    induction l with
    | nil => rfl
    | cons p l ih =>
      rw [List.flatMap_cons,List.flatMap_cons,List.flatMap_append,ih,List.flatMap_append]
      simp only [packagePieces,packageLines,List.flatMap_cons,List.append_assoc]
      rw [← hdex]
  rw [render,pieces,List.flatMap_cons,List.flatMap_cons]
  exact congrArg _ (hpackage ledger.entries)

theorem numbersFit_pieces_iff {version : Int} {ledger : Ledger} :
    (∀ piece ∈ pieces version ledger, piece.numbersFit = true) ↔
      Numeral.fits version = true ∧ ledger.OwnersFit := by
  have hentries : (∀ piece ∈ ledger.entries.flatMap fun p => packagePieces p.1 p.2,
      piece.numbersFit = true) ↔ ledger.OwnersFit := by
    simp only [Ledger.OwnersFit,Ledger.Every,PackageUse.Every,TextMap.find?_eq_some_iff,
      List.mem_flatMap,packagePieces,dexPieces,List.mem_cons,List.not_mem_nil]
    constructor
    · intro h name use huse
      exact ⟨trivial,fun path dex hdex => h _ ⟨(name,use),huse,.inr (.inr ⟨(path,dex),hdex,.inl rfl⟩)⟩⟩
    · rintro h piece ⟨⟨name,use⟩,huse,rfl | rfl | ⟨⟨path,dex⟩,hdex,rfl | rfl | rfl | hnone⟩⟩
      · rfl
      · rfl
      · exact (h name use huse).2 path dex hdex
      · rfl
      · rfl
      · exact hnone.elim
  rw [pieces,List.forall_mem_cons]
  exact and_congr_right fun _ => hentries

theorem fits_currentVersion : Numeral.fits currentVersion = true := by decide

theorem notMem_of_isPlain {text : Text} (h : ∀ c ∈ text, Numeral.IsPlain c) {c : CodePoint}
    (hc : c.val < 45) : c ∉ text := fun hmem => (h c hmem).ne hc rfl

theorem writeFlag_notMem (used : Bool) {c : CodePoint} (hc : c.val < 48) : c ∉ writeFlag used := by
  intro h
  have hval : 48 ≤ c.val := by
    cases used
    · exact (List.mem_singleton.1 h) ▸ by decide
    · exact (List.mem_singleton.1 h) ▸ by decide
  omega

theorem ownerText_notMem (owner : Owner) {c : CodePoint} (hc : c.val < 45) : c ∉ owner.text := by
  cases owner with
  | user id => exact notMem_of_isPlain (fun c hmem => Numeral.isPlain_of_mem_ofInt hmem) hc
  | noOne =>
    have hbrackets : (Owner.noOne.text.all fun c => decide (45 ≤ c.val)) = true := by decide
    intro hmem
    have hval := of_decide_eq_true (List.all_eq_true.1 hbrackets c hmem)
    omega

/-! ## What gets onto a line -/

theorem notMem_join {sep c : CodePoint} (hsep : c ≠ sep) {pieces : List Text}
    (h : ∀ piece ∈ pieces, c ∉ piece) : c ∉ Text.join [sep] pieces := by
  induction pieces with
  | nil => simp [Text.join]
  | cons piece pieces ih =>
    have hpiece := h piece List.mem_cons_self
    cases pieces with
    | nil => exact hpiece
    | cons next pieces =>
      have hrest := ih (fun p hp => h p (List.mem_cons_of_mem _ hp))
      rw [Text.join_cons (by simp)]
      simp [hpiece,hsep,hrest]

/-- A code point that is not part of the format. -/
structure Foreign (c : CodePoint) : Prop where
  comma : c ≠ CodePoint.comma
  numberSign : c ≠ CodePoint.numberSign
  owner : ∀ owner : Owner, c ∉ owner.text
  flag : ∀ used, c ∉ writeFlag used

theorem foreign_lineFeed : Foreign CodePoint.lineFeed where
  comma := by decide
  numberSign := by decide
  owner := fun owner => ownerText_notMem owner (by decide)
  flag := fun used => writeFlag_notMem used (by decide)

/-- No name, no path and no instruction set of a ledger holds a code point. -/
def Lacks (ledger : Ledger) (c : CodePoint) : Prop :=
  Ledger.Every (c ∉ ·) (fun path dex => c ∉ path ∧
    ∀ isa, dex.isas.contains isa = true → c ∉ isa) ledger

/-- A code point that is not part of the format gets onto a line only from a name, a path or an
instruction set. -/
theorem Lacks.notMem_lines {ledger : Ledger} {c : CodePoint} (h : Lacks ledger c) (hc : Foreign c) :
    ∀ line ∈ ledger.entries.flatMap fun p => packageLines p.1 p.2, c ∉ line := by
  intro line hline
  obtain ⟨⟨name,use⟩,huse,hline⟩ := List.mem_flatMap.1 hline
  obtain ⟨hname,hrecords⟩ := h name use (TextMap.find?_eq_some_iff.2 huse)
  rcases List.mem_cons.1 hline with rfl | hline
  · exact notMem_join hc.comma
      (List.forall_mem_cons.2 ⟨hname,List.forall_mem_singleton.2 (hc.flag use.usedByOthers)⟩)
  · obtain ⟨⟨path,dex⟩,hdex,hline⟩ := List.mem_flatMap.1 hline
    obtain ⟨hpath,hisas⟩ := hrecords path dex (TextMap.find?_eq_some_iff.2 hdex)
    rcases List.mem_cons.1 hline with rfl | hline
    · exact fun hmem => (List.mem_cons.1 hmem).elim hc.numberSign hpath
    · obtain rfl := List.mem_singleton.1 hline
      refine notMem_join hc.comma (List.forall_mem_cons.2 ⟨hc.owner dex.owner,
        List.forall_mem_cons.2 ⟨hc.flag dex.usedByOthers,fun isa hisa => ?_⟩⟩)
      exact hisas isa (TextMap.contains_iff_mem_keys.2 hisa)

/-- An owner whose number can be read back. -/
def OwnerReadable (owner : Owner) : Prop :=
  ∃ id : Int, owner = .user id ∧ id.natAbs < 10 ^ Numeral.digitLimit

theorem OwnerReadable.fits {owner : Owner} (h : OwnerReadable owner) : owner.fits = true := by
  obtain ⟨id,rfl,hid⟩ := h
  exact Numeral.fits_iff.2 hid

/-- A record that does not break its lines. Its instruction sets need not be known. -/
def RecordWritable (path : Text) (dex : DexUse) : Prop :=
  PathReadable path ∧ IsasReadable dex.isas ∧ OwnerReadable dex.owner

/-- The instruction sets on a data line whose trailing carriage returns are gone. -/
def bareTokens (isas : List Isa) : List Isa := isas.dropLast ++ (isas.getLast?.map dropReturns).toList

theorem bareTokens_concat (start : List Isa) (last : Isa) :
    bareTokens (start ++ [last]) = start ++ [dropReturns last] := by
  simp [bareTokens]

theorem keys_eq_concat {isas : TextSet} (h : IsasReadable isas) : ∃ start last,
    isas.keys = start ++ [last] := by
  obtain ⟨isa,hisa⟩ := h.some
  have hne := TextMap.keys_ne_nil hisa
  exact ⟨_,_,(List.dropLast_concat_getLast hne).symm⟩

/-! ## What the lines spell -/

theorem dropReturns_eq_self {text : Text} (h : text.getLast? ≠ some CodePoint.carriageReturn) :
    dropReturns text = text := by
  apply Text.trimEnd_eq_self
  intro c hc
  have hne : c ≠ CodePoint.carriageReturn := by
    rintro rfl
    exact h hc
  simp [hne]

theorem getLast?_packageLine (name : Text) (use : PackageUse) :
    (packageLine name use).getLast? ≠ some CodePoint.carriageReturn := by
  rw [packageLine,Text.join_cons (by simp),Text.join_singleton]
  cases use.usedByOthers <;> simp [writeFlag,Text.ofString] <;> decide

theorem head?_packageLine {name : Text} (h : name.head? ≠ some CodePoint.numberSign)
    (use : PackageUse) : (packageLine name use).head? ≠ some CodePoint.numberSign := by
  rw [packageLine,Text.join_cons (by simp),Text.join_singleton]
  intro hhead
  cases hname : name with
  | nil =>
    rw [hname] at hhead
    exact absurd (Option.some.inj hhead) (by decide)
  | cons c rest =>
    apply h
    rw [hname] at hhead ⊢
    simpa using hhead

theorem spelled_package {name : Text} (h : NameReadable name) (use : PackageUse) :
    (Item.package name use.usedByOthers).Spelled [packageLine name use] := by
  have hflag := writeFlag_notMem use.usedByOthers (c := CodePoint.comma) (by decide)
  exact .package (head?_packageLine h.numberSign use)
    (Text.split_join (by simp [h.comma,hflag]) (by simp))

/-- The number of an owner; no one counts as the first user. -/
def ownerNumber : Owner → Int
  | .user id => id
  | .noOne => 0

def dexItem (path : Text) (dex : DexUse) : Item :=
  .dexFile path (ownerNumber dex.owner) dex.usedByOthers (bareTokens dex.isas.keys)

theorem mem_fields {dex : DexUse} {path : Text} (h : RecordWritable path dex) {field : Text}
    (hfield : field ∈ dex.owner.text :: writeFlag dex.usedByOthers :: dex.isas.keys) :
    CodePoint.comma ∉ field ∧ CodePoint.lineFeed ∉ field := by
  obtain ⟨-,hisas,-⟩ := h
  rcases List.mem_cons.1 hfield with rfl | hfield
  · exact ⟨ownerText_notMem _ (by decide),ownerText_notMem _ (by decide)⟩
  · rcases List.mem_cons.1 hfield with rfl | hfield
    · exact ⟨writeFlag_notMem _ (by decide),writeFlag_notMem _ (by decide)⟩
    · have hmem := TextMap.contains_iff_mem_keys.2 hfield
      exact ⟨hisas.comma field hmem,hisas.lineFeed field hmem⟩

theorem dropReturns_join (pieces : List Text) (last : Text) :
    dropReturns (Text.join [CodePoint.comma] (pieces ++ [last])) =
      Text.join [CodePoint.comma] (pieces ++ [dropReturns last]) :=
  Text.trimEnd_join (by decide) pieces last

theorem split_dexDataLine {path : Text} {dex : DexUse} (h : RecordWritable path dex) :
    (dropReturns (dexDataLine dex)).split CodePoint.comma =
      dex.owner.text :: writeFlag dex.usedByOthers :: bareTokens dex.isas.keys := by
  obtain ⟨start,last,hkeys⟩ := keys_eq_concat h.2.1
  have hfree : ∀ field ∈ dex.owner.text :: writeFlag dex.usedByOthers :: start ++ [dropReturns last],
      CodePoint.comma ∉ field := by
    intro field hfield
    rcases List.mem_append.1 hfield with hfield | hfield
    · refine (mem_fields h ?_).1
      rw [hkeys]
      exact List.mem_append_left [last] hfield
    · obtain rfl := List.mem_singleton.1 hfield
      have hfield : last ∈ dex.owner.text :: writeFlag dex.usedByOthers :: dex.isas.keys := by
        simp [hkeys]
      exact fun hmem => (mem_fields h hfield).1 (Text.mem_of_mem_trimEnd hmem)
  have hline := dropReturns_join (dex.owner.text :: writeFlag dex.usedByOthers :: start) last
  rw [dexDataLine,hkeys,bareTokens_concat]
  simp only [List.cons_append] at hline hfree ⊢
  rw [hline]
  exact Text.split_join hfree (by simp)

theorem spelled_dexItem {path : Text} {dex : DexUse} (h : RecordWritable path dex) :
    (dexItem path dex).Spelled [pathLine path,dropReturns (dexDataLine dex)] := by
  obtain ⟨start,last,hkeys⟩ := keys_eq_concat h.2.1
  obtain ⟨id,howner,hid⟩ := h.2.2
  refine .dexFile (split_dexDataLine h) ?_ (by rw [hkeys,bareTokens_concat]; simp)
  rw [howner]
  exact Numeral.read?_ofInt hid

/-! ## The items of a ledger -/

def packageItems (name : Text) (use : PackageUse) : List Item :=
  .package name use.usedByOthers :: use.dexFiles.entries.map fun p => dexItem p.1 p.2

def itemsOf (ledger : Ledger) : List Item := ledger.entries.flatMap fun p => packageItems p.1 p.2

theorem Spells.flatMap {α : Type} {l : List α} {items : α → List Item} {lines : α → List Text}
    (h : ∀ a ∈ l, Spells (items a) (lines a)) : Spells (l.flatMap items) (l.flatMap lines) := by
  induction l with
  | nil => exact .nil
  | cons a l ih =>
    exact (h a List.mem_cons_self).append (ih fun b hb => h b (List.mem_cons_of_mem _ hb))

theorem dropReturns_pathLine (path : Text) :
    dropReturns (pathLine path) = pathLine (dropReturns path) :=
  Text.trimEnd_append (by decide) [] path

theorem spells_packageItems {name : Text} {use : PackageUse} (hname : NameReadable name)
    (huse : use.Every RecordWritable) :
    Spells (packageItems name use) ((packageLines name use).map dropReturns) := by
  have hdex : Spells (use.dexFiles.entries.map fun p => dexItem p.1 p.2)
      (use.dexFiles.entries.flatMap fun p => [pathLine p.1,dexDataLine p.2].map dropReturns) := by
    rw [List.map_eq_flatMap]
    apply Spells.flatMap
    intro p hp
    have hrecord := huse p.1 p.2 (TextMap.find?_eq_some_iff.2 hp)
    rw [List.map_cons,List.map_singleton,dropReturns_pathLine,
      dropReturns_eq_self hrecord.1.carriageReturn]
    exact .cons (spelled_dexItem hrecord) .nil
  rw [packageItems,packageLines,List.map_cons,List.map_flatMap,
    dropReturns_eq_self (getLast?_packageLine name use)]
  exact .cons (spelled_package hname use) hdex

theorem header_bare (version : Int) : CodePoint.lineFeed ∉ header ++ Numeral.ofInt version ∧
    dropReturns (header ++ Numeral.ofInt version) = header ++ Numeral.ofInt version := by
  have hplain : ∀ c ∈ Numeral.ofInt version, Numeral.IsPlain c :=
    fun c hc => Numeral.isPlain_of_mem_ofInt hc
  constructor
  · intro hmem
    rcases List.mem_append.1 hmem with hmem | hmem
    · exact absurd hmem (by decide)
    · exact notMem_of_isPlain hplain (by decide) hmem
  · apply dropReturns_eq_self
    rw [List.getLast?_append,List.getLast?_eq_some_getLast (Numeral.ofInt_ne_nil version)]
    intro hlast
    have hmem := List.getLast_mem (Numeral.ofInt_ne_nil version)
    rw [Option.some.inj hlast] at hmem
    exact notMem_of_isPlain hplain (by decide) hmem

theorem spells_itemsOf {ledger : Ledger} (h : Ledger.Every NameReadable RecordWritable ledger) :
    Spells (itemsOf ledger)
      ((ledger.entries.flatMap fun p => packageLines p.1 p.2).map dropReturns) := by
  rw [List.map_flatMap]
  apply Spells.flatMap
  intro p hp
  obtain ⟨hname,huse⟩ := h p.1 p.2 (TextMap.find?_eq_some_iff.2 hp)
  exact spells_packageItems hname huse

theorem anchored_itemsOf (ledger : Ledger) : Anchored (itemsOf ledger) := by
  unfold itemsOf
  cases ledger.entries with
  | nil => exact anchored_nil
  | cons p rest => exact anchored_package

theorem lacks_lineFeed {ledger : Ledger} (h : Ledger.Every NameReadable RecordWritable ledger) :
    Lacks ledger CodePoint.lineFeed :=
  h.imp (fun _ hname => hname.lineFeed) fun _ _ hrecord =>
    ⟨hrecord.1.lineFeed,hrecord.2.1.lineFeed⟩

theorem bareLines_render (version : Int) {ledger : Ledger}
    (h : Lacks ledger CodePoint.lineFeed) :
    bareLines (render version ledger) = (header ++ Numeral.ofInt version) ::
      (ledger.entries.flatMap fun p => packageLines p.1 p.2).map dropReturns := by
  obtain ⟨hfree,hheader⟩ := header_bare version
  rw [render_eq_flatMap,bareLines_flatMap,List.map_cons,hheader]
  intro line hline
  rcases List.mem_cons.1 hline with rfl | hline
  · exact hfree
  · exact h.notMem_lines foreign_lineFeed line hline

/-! ## What the items come to -/

/-- What is left of a record whose data line is read with a vocabulary. -/
def reread (vocabulary : Vocabulary) (dex : DexUse) : Option DexUse :=
  let known := (bareTokens dex.isas.keys).filter vocabulary.contains
  if known = [] then none else some { dex with isas := TextSet.ofList known }

def rereadPackage (vocabulary : Vocabulary) (use : PackageUse) : PackageUse :=
  { use with dexFiles := use.dexFiles.filterMap fun _ => reread vocabulary }

variable {vocabulary : Vocabulary}

theorem add_dexItem (entered : Entered) (name path : Text) (use : PackageUse) {dex : DexUse}
    (h : OwnerReadable dex.owner) :
    (entered.put name use).add vocabulary (dexItem path dex) =
      entered.put name (match reread vocabulary dex with
        | none => use
        | some dex => use.setDexFile path dex) := by
  obtain ⟨id,howner,-⟩ := h
  simp only [Entered.add,Entered.put,dexItem,reread]
  split
  · rfl
  · simp only [TextMap.insert_insert,howner,ownerNumber]

theorem foldl_dexItem (entered : Entered) (name : Text) (use : PackageUse)
    {l : List (Text × DexUse)} (h : ∀ p ∈ l, OwnerReadable p.2.owner) :
    (l.map fun p => dexItem p.1 p.2).foldl (Entered.add vocabulary) (entered.put name use) =
      entered.put name { use with
        dexFiles := (l.filterMap fun p => (reread vocabulary p.2).map (p.1,·)).foldl
          (fun m p => m.insert p.1 p.2) use.dexFiles } := by
  induction l generalizing use with
  | nil => rfl
  | cons p l ih =>
    have hrest : ∀ q ∈ l, OwnerReadable q.2.owner := fun q hq => h q (List.mem_cons_of_mem _ hq)
    rw [List.map_cons,List.foldl_cons,add_dexItem _ _ _ _ (h p List.mem_cons_self),ih _ hrest]
    cases hreread : reread vocabulary p.2 <;> simp [hreread,PackageUse.setDexFile]

theorem foldl_packageItems (entered : Entered) (name : Text) {use : PackageUse}
    (h : use.Every RecordWritable) :
    (packageItems name use).foldl (Entered.add vocabulary) entered =
      entered.put name (rereadPackage vocabulary use) := by
  have howners : ∀ p ∈ use.dexFiles.entries, OwnerReadable p.2.owner :=
    fun p hp => (h p.1 p.2 (TextMap.find?_eq_some_iff.2 hp)).2.2
  have hentries := TextMap.foldl_insert_entries
    (use.dexFiles.filterMap fun _ => reread vocabulary)
  rw [packageItems,List.foldl_cons]
  change List.foldl _ (entered.put name { usedByOthers := use.usedByOthers }) _ = _
  rw [foldl_dexItem _ _ _ howners]
  exact congrArg (fun m => entered.put name { use with dexFiles := m }) hentries

theorem foldl_flatMap_packageItems (entered : Entered) {l : List (Text × PackageUse)}
    (h : ∀ p ∈ l, p.2.Every RecordWritable) :
    ((l.flatMap fun p => packageItems p.1 p.2).foldl (Entered.add vocabulary) entered).ledger =
      (l.map fun p => (p.1,rereadPackage vocabulary p.2)).foldl
        (fun m p => m.insert p.1 p.2) entered.ledger := by
  induction l generalizing entered with
  | nil => rfl
  | cons p l ih =>
    rw [List.flatMap_cons,List.foldl_append,foldl_packageItems _ _ (h p List.mem_cons_self),
      ih _ (fun q hq => h q (List.mem_cons_of_mem _ hq))]
    rfl

theorem ledgerOf_itemsOf {ledger : Ledger} (h : Ledger.Every NameReadable RecordWritable ledger) :
    ledgerOf vocabulary (itemsOf ledger) = ledger.map (rereadPackage vocabulary) := by
  have huses : ∀ p ∈ ledger.entries, p.2.Every RecordWritable :=
    fun p hp => (h p.1 p.2 (TextMap.find?_eq_some_iff.2 hp)).2
  rw [ledgerOf,itemsOf,foldl_flatMap_packageItems _ huses]
  exact TextMap.foldl_insert_entries (ledger.map (rereadPackage vocabulary))

/-- Reading a listing gives the ledger with every record read back from its data line. -/
theorem read_render (vocabulary : Vocabulary) {version : Int} {ledger : Ledger}
    (hversion : version.natAbs < 10 ^ Numeral.digitLimit)
    (h : Ledger.Every NameReadable RecordWritable ledger) :
    (read vocabulary version (.ofText (render version ledger))).result =
      .ok (ledger.map (rereadPackage vocabulary)) :=
  read_ofText_eq_ok_iff.2 ⟨_,_,itemsOf ledger,bareLines_render version (lacks_lineFeed h),
    Numeral.read?_ofInt hversion,spells_itemsOf h,anchored_itemsOf ledger,(ledgerOf_itemsOf h).symm⟩

end LoadLedger.Listing
