import LoadLedger.Proofs.Listing.Reading
import Mathlib.Data.List.Induction

/-! # The items at the front of a listing

Lines that are malformed further down still begin with items. No spelling of an item is the beginning
of another one, so of all items that lines begin with there is a longest sequence: the foremost
items. Lines that spell items as a whole have no others, and otherwise these items end before the
first fault, the line with which no listing goes on.
-/
namespace LoadLedger.Listing

variable {begun : Bool} {item : Item} {items others : List Item} {head lines : List Text}

theorem Item.Spelled.cancel {other : Item} {head' rest rest' : List Text} (h : item.Spelled head)
    (h' : other.Spelled head') (hlines : head ++ rest = head' ++ rest') :
    item = other ∧ rest = rest' := by
  cases h with
  | blank =>
    cases h' with
    | blank => exact ⟨rfl,(List.cons.inj hlines).2⟩
    | package hstart hfields =>
      rw [← (List.cons.inj hlines).1] at hfields
      simp at hfields
    | dexFile => simp [pathLine] at hlines
  | package hstart hfields =>
    cases h' with
    | blank =>
      rw [(List.cons.inj hlines).1] at hfields
      simp at hfields
    | package _ hfields' =>
      obtain ⟨rfl,rfl⟩ := List.cons.inj hlines
      obtain ⟨rfl,hflag⟩ := List.cons.inj (hfields.symm.trans hfields')
      obtain rfl := writeFlag_inj (List.cons.inj hflag).1
      exact ⟨rfl,rfl⟩
    | dexFile =>
      rw [(List.cons.inj hlines).1] at hstart
      simp [pathLine] at hstart
  | dexFile hfields howner hisas =>
    cases h' with
    | blank => simp [pathLine] at hlines
    | package hstart _ =>
      rw [← (List.cons.inj hlines).1] at hstart
      simp [pathLine] at hstart
    | dexFile hfields' howner' _ =>
      obtain ⟨hpath,hrest⟩ := List.cons.inj hlines
      obtain rfl := (List.cons.inj hpath).2
      obtain ⟨rfl,rfl⟩ := List.cons.inj hrest
      obtain ⟨rfl,htokens⟩ := List.cons.inj (hfields.symm.trans hfields')
      obtain ⟨hflag,rfl⟩ := List.cons.inj htokens
      obtain rfl := writeFlag_inj hflag
      obtain rfl := Option.some.inj (howner.symm.trans howner')
      exact ⟨rfl,rfl⟩

theorem Item.Spelled.ne_nil (h : item.Spelled head) : head ≠ [] := by
  cases h <;> exact List.cons_ne_nil _ _

/-- An item that begins with a path line is a dex file, and the next line has its data. -/
theorem Item.Spelled.of_pathLine {path : Text} (h : item.Spelled head)
    (hhead : head <+: pathLine path :: lines) : ∃ data rest field owner used isas,
      lines = data :: rest ∧ item = .dexFile path owner used isas ∧
      data.split CodePoint.comma = field :: writeFlag used :: isas ∧
      Numeral.read? field = some owner ∧ isas ≠ [] := by
  cases h with
  | blank => simp [pathLine] at hhead
  | package hstart _ =>
    rw [(List.cons_prefix_cons.1 hhead).1] at hstart
    simp [pathLine] at hstart
  | dexFile hfields howner hisas =>
    obtain ⟨hpath,rest,rfl⟩ := List.cons_prefix_cons.1 hhead
    obtain rfl := (List.cons.inj hpath).2
    exact ⟨_,rest,_,_,_,_,rfl,rfl,hfields,howner,hisas⟩

/-! ## Where items may stand -/

/-- Items may stand where a package has begun, or begin one before their first dex file. -/
def Placed (begun : Bool) (items : List Item) : Prop := begun = true ∨ Anchored items

@[simp] theorem placed_true : Placed true items := Or.inl rfl

@[simp] theorem placed_nil : Placed begun [] := Or.inr anchored_nil

@[simp] theorem placed_blank : Placed begun (.blank :: items) ↔ Placed begun items := by
  simp [Placed]

@[simp] theorem placed_package {name : Text} {used : Bool} :
    Placed begun (.package name used :: items) := Or.inr anchored_package

@[simp] theorem placed_dexFile {path : Text} {owner : Int} {used : Bool} {isas : List Isa} :
    Placed begun (.dexFile path owner used isas :: items) ↔ begun = true := by
  simp [Placed]

theorem Placed.first (h : Placed begun (item :: items)) : Placed begun [item] := by
  cases item with
  | blank => simp
  | package name used => simp
  | dexFile path owner used isas => simpa using h

/-! ## The longest sequence -/

/-- A front part of the lines spells the items. -/
def Begins (begun : Bool) (items : List Item) (lines : List Text) : Prop :=
  ∃ front, front <+: lines ∧ Spells items front ∧ Placed begun items

/-- The items that lines begin with, up to the first line with which no item goes on. -/
structure Foremost (begun : Bool) (items : List Item) (lines : List Text) : Prop where
  begins : Begins begun items lines
  longest : ∀ others, Begins begun others lines → others <+: items

theorem Foremost.unique (h : Foremost begun items lines) (h' : Foremost begun others lines) :
    items = others :=
  List.IsPrefix.eq_of_length_le (h'.longest items h.begins) (h.longest others h'.begins).length_le

theorem foremost_nil_of_stuck
    (h : ∀ item head, item.Spelled head → head <+: lines → ¬Placed begun [item]) :
    Foremost begun [] lines where
  begins := ⟨[],List.nil_prefix,.nil,placed_nil⟩
  longest := by
    rintro others ⟨front,hfront,hspells,hplaced⟩
    cases hspells with
    | nil => exact List.nil_prefix
    | cons hhead _ =>
      exact absurd hplaced.first (h _ _ hhead ((List.prefix_append _ _).trans hfront))

/-- An item in front of what is foremost behind it is foremost with it. -/
theorem Foremost.cons {begun' : Bool} (hhead : item.Spelled head)
    (hplaced : ∀ more, Placed begun (item :: more) ↔ Placed begun' more)
    (h : Foremost begun' items lines) : Foremost begun (item :: items) (head ++ lines) where
  begins := by
    obtain ⟨front,hfront,hspells,hitems⟩ := h.begins
    exact ⟨head ++ front,(List.prefix_append_right_inj head).2 hfront,.cons hhead hspells,
      (hplaced items).2 hitems⟩
  longest := by
    rintro others ⟨front,⟨rest,hrest⟩,hspells,hothers⟩
    cases hspells with
    | nil => exact List.nil_prefix
    | cons hother htail =>
      rw [List.append_assoc] at hrest
      obtain ⟨rfl,rfl⟩ := hother.cancel hhead hrest
      exact (List.prefix_cons_inj _).2
        (h.longest _ ⟨_,List.prefix_append _ _,htail,(hplaced _).1 hothers⟩)

theorem Spells.foremost (h : Spells items lines) (hplaced : Placed begun items) :
    Foremost begun items lines := by
  induction h generalizing begun with
  | nil =>
    refine foremost_nil_of_stuck fun item head hhead hprefix => ?_
    exact absurd (List.prefix_nil.1 hprefix) hhead.ne_nil
  | cons hhead _ ih =>
    cases hhead with
    | blank => exact (ih (placed_blank.1 hplaced)).cons .blank fun _ => placed_blank
    | package hstart hfields =>
      exact (ih placed_true).cons (.package hstart hfields) fun _ => by simp
    | dexFile hfields howner hisas =>
      obtain rfl := placed_dexFile.1 hplaced
      exact (ih placed_true).cons (.dexFile hfields howner hisas) fun _ => by simp

theorem Spells.unique (h : Spells items lines) (h' : Spells others lines) : items = others :=
  (h.foremost placed_true).unique (h'.foremost placed_true)

/-! ## Up to the first fault -/

/-- Some listing begins with the lines behind its header. -/
def Continuable (lines : List Text) : Prop :=
  ∃ rest items, Spells items (lines ++ rest) ∧ Anchored items

/-- The lines before the first fault: some listing begins with them, and none with one line more. -/
structure BeforeFault (front lines : List Text) : Prop where
  isFront : front <+: lines
  continuable : Continuable front
  fault : ∀ line, front ++ [line] <+: lines → ¬Continuable (front ++ [line])

theorem exists_beforeFault (lines : List Text) : ∃ front, BeforeFault front lines := by
  induction lines using List.reverseRecOn with
  | nil =>
    refine ⟨[],List.prefix_refl _,⟨[],[],.nil,anchored_nil⟩,fun line hline => ?_⟩
    cases List.prefix_nil.1 hline
  | append_singleton lines last ih =>
    by_cases hlast : Continuable (lines ++ [last])
    · refine ⟨lines ++ [last],List.prefix_refl _,hlast,fun line hline => ?_⟩
      have hlength := hline.length_le
      simp at hlength
    · obtain ⟨front,hfront⟩ := ih
      refine ⟨front,hfront.isFront.trans (List.prefix_append _ _),hfront.continuable,?_⟩
      intro line hline
      rcases List.prefix_concat_iff.1 hline with hall | hline
      · rwa [hall]
      · exact hfront.fault line hline

theorem Foremost.beforeFault {front : List Text} (h : Foremost false items lines)
    (hfront : BeforeFault front lines) : Foremost false items front where
  begins := by
    obtain ⟨spelled,hspelled,hspells,hplaced⟩ := h.begins
    refine ⟨spelled,?_,hspells,hplaced⟩
    rcases List.prefix_or_prefix_of_prefix hspelled hfront.isFront with hshort | ⟨rest,rfl⟩
    · exact hshort
    · cases rest with
      | nil => exact ⟨[],by rw [List.append_nil,List.append_nil]⟩
      | cons line rest =>
        rw [List.append_cons] at hspelled hspells
        have hline := (List.prefix_append _ _).trans hspelled
        have hanchored : Anchored items := hplaced.resolve_left Bool.false_ne_true
        exact absurd ⟨rest,items,hspells,hanchored⟩ (hfront.fault line hline)
  longest := by
    rintro others ⟨spelled,hspelled,hothers⟩
    exact h.longest others ⟨spelled,hspelled.trans hfront.isFront,hothers⟩

end LoadLedger.Listing
