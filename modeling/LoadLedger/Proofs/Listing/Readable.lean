import LoadLedger.Proofs.Ledger.Every
import LoadLedger.Proofs.Listing.Reading

/-! # What a reader can enter in a ledger

Names, paths and instruction sets come out of single lines, so a separator never gets into them, and
a record never stays without instruction sets of the vocabulary.
-/
namespace LoadLedger.Listing

/-- A name keeps its line together and does not turn it into a path line. -/
structure NameReadable (name : Text) : Prop where
  comma : CodePoint.comma ∉ name
  lineFeed : CodePoint.lineFeed ∉ name
  numberSign : name.head? ≠ some CodePoint.numberSign

structure PathReadable (path : Text) : Prop where
  lineFeed : CodePoint.lineFeed ∉ path
  carriageReturn : path.getLast? ≠ some CodePoint.carriageReturn

structure IsasReadable (isas : TextSet) : Prop where
  some : ∃ isa, isas.contains isa = true
  comma : ∀ isa, isas.contains isa = true → CodePoint.comma ∉ isa
  lineFeed : ∀ isa, isas.contains isa = true → CodePoint.lineFeed ∉ isa

def IsasKnown (vocabulary : Vocabulary) (isas : TextSet) : Prop :=
  ∀ isa, isas.contains isa = true → vocabulary.contains isa = true

/-- The records that a reader enters. -/
def RecordReadable (vocabulary : Vocabulary) (path : Text) (dex : DexUse) : Prop :=
  PathReadable path ∧ IsasReadable dex.isas ∧ IsasKnown vocabulary dex.isas

variable {vocabulary : Vocabulary}

theorem isasReadable_ofList {isas : List Isa} (hsome : isas ≠ [])
    (h : ∀ isa ∈ isas, CodePoint.comma ∉ isa ∧ CodePoint.lineFeed ∉ isa) :
    IsasReadable (TextSet.ofList isas) := by
  obtain ⟨isa,hisa⟩ := List.exists_mem_of_ne_nil _ hsome
  exact ⟨⟨isa,TextSet.contains_ofList.2 hisa⟩,fun isa hisa => (h isa (TextSet.contains_ofList.1 hisa)).1,
    fun isa hisa => (h isa (TextSet.contains_ofList.1 hisa)).2⟩

def Item.Bare : Item → Prop
  | .blank => True
  | .package name _ => NameReadable name
  | .dexFile path _ _ isas => PathReadable path ∧ ∀ isa ∈ isas, CodePoint.comma ∉ isa ∧ CodePoint.lineFeed ∉ isa

/-- Items spelled by bare lines: a field holds no comma and its line no line feed. -/
theorem Item.Spelled.bare {item : Item} {lines : List Text} (h : item.Spelled lines)
    (hlines : ∀ line ∈ lines, CodePoint.lineFeed ∉ line ∧
      line.getLast? ≠ some CodePoint.carriageReturn) : item.Bare := by
  cases h with
  | blank => trivial
  | @package name line used hstart hfields =>
    obtain ⟨hfeed,-⟩ := hlines line List.mem_cons_self
    have hmem : name ∈ line.split CodePoint.comma := by simp [hfields]
    refine ⟨Text.notMem_of_mem_split hmem,fun h => hfeed (Text.mem_of_mem_split hmem h),?_⟩
    intro hhead
    have hjoin := Text.join_split CodePoint.comma line
    rw [hfields,Text.join_cons (by simp)] at hjoin
    apply hstart
    rw [← hjoin]
    cases name with
    | nil => cases hhead
    | cons c name => simpa using hhead
  | @dexFile path data field owner used isas hfields howner hisas =>
    obtain ⟨hpath,hend⟩ := hlines (pathLine path) List.mem_cons_self
    obtain ⟨hdata,-⟩ := hlines data (by simp)
    refine ⟨⟨fun h => hpath (List.mem_cons_of_mem _ h),?_⟩,fun isa hisa => ?_⟩
    · intro hlast
      apply hend
      cases path with
      | nil => cases hlast
      | cons c path => simpa [pathLine] using hlast
    · have hmem : isa ∈ data.split CodePoint.comma := by simp [hfields,hisa]
      exact ⟨Text.notMem_of_mem_split hmem,fun h => hdata (Text.mem_of_mem_split hmem h)⟩

theorem Spells.bare {items : List Item} {lines : List Text} (h : Spells items lines)
    (hlines : ∀ line ∈ lines, CodePoint.lineFeed ∉ line ∧
      line.getLast? ≠ some CodePoint.carriageReturn) : ∀ item ∈ items, item.Bare := by
  intro item hitem
  obtain ⟨front,hfront,hsubset⟩ := h.spelled_of_mem hitem
  exact hfront.bare fun line hline => hlines line (hsubset hline)

/-! ## What items enter -/

/-- What an item enters: a name, a record, or nothing if none of the instruction sets is known. -/
def Item.Enters (vocabulary : Vocabulary) (named : Text → Prop) (recorded : Text → DexUse → Prop) :
    Item → Prop
  | .blank => True
  | .package name _ => named name
  | .dexFile path owner used isas => isas.filter vocabulary.contains ≠ [] →
    recorded path ⟨.user owner,used,TextSet.ofList (isas.filter vocabulary.contains)⟩

variable {named : Text → Prop} {recorded : Text → DexUse → Prop}

/-- What has been entered so far, and the record of the package begun last. -/
structure Entered.Every (named : Text → Prop) (recorded : Text → DexUse → Prop)
    (entered : Entered) : Prop where
  ledger : Ledger.Every named recorded entered.ledger
  latest : ∀ name use, entered.latest = some (name,use) → named name ∧ use.Every recorded

theorem Entered.every_empty (named : Text → Prop) (recorded : Text → DexUse → Prop) :
    Entered.Every named recorded {} where
  ledger := Ledger.every_empty _ _
  latest := fun _ _ h => by cases h

theorem Entered.Every.put {entered : Entered} {name : Text} {use : PackageUse}
    (h : entered.Every named recorded) (hname : named name) (huse : use.Every recorded) :
    (entered.put name use).Every named recorded where
  ledger := h.ledger.insert hname huse
  latest := by
    intro name' use' hlatest
    obtain ⟨rfl,rfl⟩ := Prod.mk.inj (Option.some.inj hlatest)
    exact ⟨hname,huse⟩

theorem Entered.Every.add {entered : Entered} {item : Item} (h : entered.Every named recorded)
    (hitem : item.Enters vocabulary named recorded) :
    (entered.add vocabulary item).Every named recorded := by
  cases item with
  | blank => exact h
  | package name used => exact h.put hitem (PackageUse.every_flag _ used)
  | dexFile path owner used isas =>
    unfold Entered.add
    cases hlatest : entered.latest with
    | none => exact h
    | some latest =>
      obtain ⟨name,use⟩ := latest
      obtain ⟨hname,huse⟩ := h.latest name use hlatest
      dsimp only
      split
      · exact h
      · rename_i hknown
        exact h.put hname (huse.setDexFile (hitem hknown))

theorem every_ledgerOf {items : List Item}
    (hitems : ∀ item ∈ items, item.Enters vocabulary named recorded) :
    Ledger.Every named recorded (ledgerOf vocabulary items) := by
  suffices hfold : ∀ entered : Entered, entered.Every named recorded →
      (items.foldl (Entered.add vocabulary) entered).Every named recorded from
    (hfold {} (Entered.every_empty _ _)).ledger
  induction items with
  | nil => exact fun _ h => h
  | cons item items ih =>
    obtain ⟨hitem,hrest⟩ := List.forall_mem_cons.1 hitems
    exact fun entered h => ih hrest _ (h.add hitem)

theorem Item.Bare.enters {item : Item} (h : item.Bare) :
    item.Enters vocabulary NameReadable (RecordReadable vocabulary) := by
  cases item with
  | blank => trivial
  | package name used => exact h
  | dexFile path owner used isas =>
    obtain ⟨hpath,hisas⟩ := h
    refine fun hknown => ⟨hpath,isasReadable_ofList hknown fun isa hisa => ?_,fun isa hisa => ?_⟩
    · exact hisas isa (List.mem_filter.1 hisa).1
    · exact (List.mem_filter.1 (TextSet.contains_ofList.1 hisa)).2

theorem readable_of_read {version : Int} {text : Text} {ledger : Ledger}
    (h : (read vocabulary version (.ofText text)).result = .ok ledger) :
    Ledger.Every NameReadable (RecordReadable vocabulary) ledger := by
  obtain ⟨numeral,lines,items,hlines,-,hspells,-,rfl⟩ := read_ofText_eq_ok_iff.1 h
  have hbare : ∀ line ∈ lines, CodePoint.lineFeed ∉ line ∧
      line.getLast? ≠ some CodePoint.carriageReturn :=
    fun line hline => bare_of_mem_bareLines (hlines ▸ List.mem_cons_of_mem _ hline)
  exact every_ledgerOf fun item hitem => (hspells.bare hbare item hitem).enters

end LoadLedger.Listing
