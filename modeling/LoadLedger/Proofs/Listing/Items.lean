import LoadLedger.Listing.Reader
import LoadLedger.Proofs.TextPieces

/-! # The items of a listing

Behind its header a listing is a sequence of items: blank lines, package lines, and pairs of a path
line and a data line. The items fix the ledger; how they are spelled is a matter of their own.
-/
namespace LoadLedger.Listing

inductive Item
  | blank
  | package (name : Text) (usedByOthers : Bool)
  | dexFile (path : Text) (owner : Int) (usedByOthers : Bool) (isas : List Isa)

/-- The bare lines that may stand for an item. A flag has one spelling, an owner has many. -/
inductive Item.Spelled : Item → List Text → Prop
  | blank : Item.Spelled .blank [[]]
  | package {name line : Text} {used : Bool} (hstart : line.head? ≠ some CodePoint.numberSign)
      (hfields : line.split CodePoint.comma = [name,writeFlag used]) :
      Item.Spelled (.package name used) [line]
  | dexFile {path data field : Text} {owner : Int} {used : Bool} {isas : List Isa}
      (hfields : data.split CodePoint.comma = field :: writeFlag used :: isas)
      (howner : Numeral.read? field = some owner) (hisas : isas ≠ []) :
      Item.Spelled (.dexFile path owner used isas) [pathLine path,data]

inductive Spells : List Item → List Text → Prop
  | nil : Spells [] []
  | cons {item : Item} {items : List Item} {lines rest : List Text} (head : item.Spelled lines)
      (tail : Spells items rest) : Spells (item :: items) (lines ++ rest)

def Item.isPackage : Item → Bool
  | .package _ _ => true
  | _ => false

/-- In front of the first package there are blank lines only. -/
def Anchored (items : List Item) : Prop :=
  ∀ item ∈ items.takeWhile fun item => !item.isPackage, item = .blank

/-- What items come to: a ledger, and the package begun last with its record. -/
structure Entered where
  ledger : Ledger := TextMap.empty
  latest : Option (Text × PackageUse) := none

def Entered.put (entered : Entered) (name : Text) (use : PackageUse) : Entered :=
  ⟨entered.ledger.insert name use,some (name,use)⟩

/-- A package starts with a new record, also if its name is known. A dex file is set in the record
of the package begun last, unless the vocabulary has none of its instruction sets. -/
def Entered.add (vocabulary : Vocabulary) (entered : Entered) : Item → Entered
  | .blank => entered
  | .package name used => entered.put name { usedByOthers := used }
  | .dexFile path owner used isas =>
    match entered.latest with
    | none => entered
    | some (name,use) =>
      let known := isas.filter vocabulary.contains
      if known = [] then entered
      else entered.put name (use.setDexFile path ⟨.user owner,used,TextSet.ofList known⟩)

def ledgerOf (vocabulary : Vocabulary) (items : List Item) : Ledger :=
  (items.foldl (Entered.add vocabulary) {}).ledger

/-! ## Spelling line by line -/

variable {items : List Item} {lines : List Text}

@[simp] theorem spells_nil_iff : Spells items [] ↔ items = [] := by
  constructor
  · intro h
    generalize hlines : ([] : List Text) = lines at h
    cases h with
    | nil => rfl
    | cons head tail => cases head <;> simp at hlines
  · rintro rfl
    exact .nil

theorem Spells.append {more : List Item} {rest : List Text} (h : Spells items lines)
    (hmore : Spells more rest) : Spells (items ++ more) (lines ++ rest) := by
  induction h with
  | nil => exact hmore
  | cons head _ ih => simpa only [List.cons_append,List.append_assoc] using Spells.cons head ih

theorem Spells.spelled_of_mem {item : Item} (h : Spells items lines) (hitem : item ∈ items) :
    ∃ front, item.Spelled front ∧ front ⊆ lines := by
  induction h with
  | nil => cases hitem
  | cons head _ ih =>
    rcases List.mem_cons.1 hitem with rfl | hitem
    · exact ⟨_,head,List.subset_append_left _ _⟩
    · obtain ⟨front,hfront,hsubset⟩ := ih hitem
      exact ⟨front,hfront,List.subset_append_of_subset_right _ hsubset⟩

theorem spells_blank_iff :
    Spells items ([] :: lines) ↔ ∃ rest, items = .blank :: rest ∧ Spells rest lines := by
  constructor
  · intro h
    generalize hall : ([] :: lines) = all at h
    cases h with
    | nil => simp at hall
    | cons head tail =>
      cases head with
      | blank =>
        obtain ⟨-,rfl⟩ := List.cons.inj hall
        exact ⟨_,rfl,tail⟩
      | package hstart hfields =>
        obtain ⟨rfl,-⟩ := List.cons.inj hall
        simp at hfields
      | dexFile hfields howner hisas =>
        obtain ⟨hpath,-⟩ := List.cons.inj hall
        simp [pathLine] at hpath
  · rintro ⟨rest,rfl,h⟩
    exact .cons .blank h

theorem spells_package_iff {line : Text} (hne : line ≠ [])
    (hstart : line.head? ≠ some CodePoint.numberSign) :
    Spells items (line :: lines) ↔ ∃ name used rest, items = .package name used :: rest ∧
      line.split CodePoint.comma = [name,writeFlag used] ∧ Spells rest lines := by
  constructor
  · intro h
    generalize hall : (line :: lines) = all at h
    cases h with
    | nil => simp at hall
    | cons head tail =>
      cases head with
      | blank => exact absurd (List.cons.inj hall).1 hne
      | package hstart hfields =>
        obtain ⟨rfl,rfl⟩ := List.cons.inj hall
        exact ⟨_,_,_,rfl,hfields,tail⟩
      | dexFile hfields howner hisas =>
        rw [(List.cons.inj hall).1] at hstart
        simp [pathLine] at hstart
  · rintro ⟨name,used,rest,rfl,hfields,h⟩
    exact .cons (.package hstart hfields) h

theorem spells_pathLine_iff {path : Text} :
    Spells items (pathLine path :: lines) ↔ ∃ data rest field owner used isas more,
      lines = data :: rest ∧ items = .dexFile path owner used isas :: more ∧
      data.split CodePoint.comma = field :: writeFlag used :: isas ∧
      Numeral.read? field = some owner ∧ isas ≠ [] ∧ Spells more rest := by
  constructor
  · intro h
    generalize hall : (pathLine path :: lines) = all at h
    cases h with
    | nil => simp at hall
    | cons head tail =>
      cases head with
      | blank => simp [pathLine] at hall
      | package hstart hfields =>
        rw [← (List.cons.inj hall).1] at hstart
        simp [pathLine] at hstart
      | dexFile hfields howner hisas =>
        obtain ⟨hpath,rfl⟩ := List.cons.inj hall
        obtain rfl := (List.cons.inj hpath).2
        exact ⟨_,_,_,_,_,_,_,rfl,rfl,hfields,howner,hisas,tail⟩
  · rintro ⟨data,rest,field,owner,used,isas,more,rfl,rfl,hfields,howner,hisas,h⟩
    exact .cons (.dexFile hfields howner hisas) h

/-! ## Where the first package stands -/

@[simp] theorem anchored_nil : Anchored [] := by simp [Anchored]

@[simp] theorem anchored_blank : Anchored (.blank :: items) ↔ Anchored items := by
  simp [Anchored,Item.isPackage]

@[simp] theorem anchored_package {name : Text} {used : Bool} :
    Anchored (.package name used :: items) := by
  simp [Anchored,Item.isPackage]

@[simp] theorem not_anchored_dexFile {path : Text} {owner : Int} {used : Bool} {isas : List Isa} :
    ¬Anchored (.dexFile path owner used isas :: items) := by
  simp [Anchored,Item.isPackage]

end LoadLedger.Listing
