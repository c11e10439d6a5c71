import LoadLedger.Journal
import LoadLedger.Proofs.Listing.Foremost

/-! # What a reader remarks

The remarks on a listing are those on its items, one item after the other: the unknown instruction
sets of a dex file, and that there are no others. So the remarks do not depend on what was entered
before. On a listing with a fault they are those on the foremost items, which end before the fault.
-/
namespace LoadLedger.Listing

variable {vocabulary : Vocabulary}

def Item.remarks (vocabulary : Vocabulary) : Item → List Remark
  | .dexFile path _ _ isas => (isas.filter (!vocabulary.contains ·)).map Remark.unsupportedIsa ++
    if isas.filter vocabulary.contains = [] then [.noSupportedIsa path] else []
  | _ => []

/-- There is nothing to remark on items exactly if all their instruction sets are known. -/
theorem Spells.remarks_eq_nil_iff {items : List Item} {lines : List Text}
    (h : Spells items lines) :
    items.flatMap (Item.remarks vocabulary) = [] ↔ ∀ path owner used isas,
      .dexFile path owner used isas ∈ items → ∀ isa ∈ isas, vocabulary.contains isa = true := by
  rw [List.flatMap_eq_nil_iff]
  constructor
  · intro hremarks path owner used isas hitem isa hisa
    have hunknown := (List.append_eq_nil_iff.1 (hremarks _ hitem)).1
    rw [List.map_eq_nil_iff,List.filter_eq_nil_iff] at hunknown
    simpa using hunknown isa hisa
  · intro hknown item hitem
    cases item with
    | blank => rfl
    | package name used => rfl
    | dexFile path owner used isas =>
      have hisas := hknown path owner used isas hitem
      have hunknown : isas.filter (!vocabulary.contains ·) = [] :=
        List.filter_eq_nil_iff.2 fun isa hisa => by simp [hisas isa hisa]
      have hsome : isas ≠ [] := by
        obtain ⟨front,hfront,-⟩ := h.spelled_of_mem hitem
        cases hfront
        assumption
      rw [Item.remarks,hunknown,List.filter_eq_self.2 hisas,if_neg hsome]
      rfl

/-! ## Line by line -/

theorem readLine_of_spelled {progress : Progress} {line : Text} {lines front : List Text}
    {item : Item} (hitem : item.Spelled front) (hplaced : Placed progress.package.isSome [item])
    (hfront : front <+: progress.dueLines ++ line :: lines) :
    ∃ read, readLine vocabulary progress line = .ok read := by
  cases hdue : progress.due with
  | some path =>
    simp only [Progress.dueLines,hdue,List.singleton_append] at hfront
    obtain ⟨data,rest,field,owner,used,isas,hdata,-,hfields,howner,hisas⟩ :=
      hitem.of_pathLine hfront
    obtain ⟨rfl,-⟩ := List.cons.inj hdata
    exact ⟨_,readLine_data hdue
      (readDexData_eq_ok_iff.2 ⟨field,owner,used,isas,hfields,howner,hisas,rfl,rfl⟩)⟩
  | none =>
    simp only [Progress.dueLines,hdue,List.nil_append] at hfront
    simp only [readLine,hdue]
    cases hitem with
    | blank =>
      obtain ⟨rfl,-⟩ := List.cons_prefix_cons.1 hfront
      exact ⟨_,rfl⟩
    | package hstart hfields =>
      obtain ⟨rfl,-⟩ := List.cons_prefix_cons.1 hfront
      split
      · exact ⟨_,rfl⟩
      · rename_i c rest
        have hc : c ≠ CodePoint.numberSign := by simpa using hstart
        rw [if_neg hc,readPackageLine_eq_ok_iff.2 ⟨_,_,hfields,rfl⟩]
        exact ⟨_,rfl⟩
    | dexFile hfields howner hisas =>
      obtain ⟨rfl,-⟩ := List.cons_prefix_cons.1 hfront
      have hbegun : progress.package ≠ none := Option.isSome_iff_ne_none.1 (placed_dexFile.1 hplaced)
      exact ⟨_,(if_pos rfl).trans (if_neg (by simpa using hbegun))⟩

/-- A line finishes items, the first of which may have begun with the path that is due: in front of
what is foremost behind the line, they are foremost with it. -/
def Finishes (progress : Progress) (line : Text) (next : Progress) (done : List Item) : Prop :=
  ∀ items lines, Foremost next.package.isSome items (next.dueLines ++ lines) →
    Foremost progress.package.isSome (done ++ items) (progress.dueLines ++ line :: lines)

theorem finishes_data {progress : Progress} {path line field : Text} {owner : Int} {used : Bool}
    {isas : List Isa} (dex : DexUse) (hdue : progress.due = some path)
    (hpackage : progress.package.isSome)
    (hfields : line.split CodePoint.comma = field :: writeFlag used :: isas)
    (howner : Numeral.read? field = some owner) (hisas : isas ≠ []) :
    Finishes progress line (progress.settle path dex) [.dexFile path owner used isas] := by
  intro items lines h
  simp only [Progress.dueLines,Progress.settle_due,List.nil_append,Progress.settle_package,
    hpackage] at h
  simp only [Progress.dueLines,hdue,hpackage]
  have hforemost : Foremost true (.dexFile path owner used isas :: items)
      ([pathLine path,line] ++ lines) :=
    h.cons (.dexFile hfields howner hisas) fun _ => iff_of_true placed_true placed_true
  exact hforemost

theorem finishes_blank {progress : Progress} (hdue : progress.due = none) :
    Finishes progress [] progress [.blank] := by
  intro items lines h
  simp only [Progress.dueLines,hdue,List.nil_append] at h ⊢
  exact h.cons .blank fun _ => placed_blank

theorem finishes_path {progress : Progress} (path : Text) (hdue : progress.due = none) :
    Finishes progress (pathLine path) { progress with due := some path } [] := by
  intro items lines h
  simp only [Progress.dueLines,hdue,List.nil_append]
  exact h

theorem finishes_package {progress : Progress} {name line : Text} {used : Bool} (use : PackageUse)
    (hdue : progress.due = none) (hstart : line.head? ≠ some CodePoint.numberSign)
    (hfields : line.split CodePoint.comma = [name,writeFlag used]) :
    Finishes progress line (progress.put name use) [.package name used] := by
  intro items lines h
  simp only [Progress.dueLines,hdue,List.nil_append]
  exact h.cons (.package hstart hfields) fun _ => iff_of_true placed_package placed_true

/-- The remarks on a line are those on the items that it finishes, and data is still due only within
a package. -/
theorem readLine_remarks {progress next : Progress} {line : Text} {remarks : List Remark}
    (hpackage : progress.due.isSome → progress.package.isSome)
    (hline : readLine vocabulary progress line = .ok (next,remarks)) :
    (next.due.isSome → next.package.isSome) ∧ ∃ done, Finishes progress line next done ∧
      remarks = done.flatMap (Item.remarks vocabulary) := by
  cases hdue : progress.due with
  | some path =>
    cases hread : readDexData vocabulary line with
    | error error =>
      simp only [readLine,hdue,hread] at hline
      cases hline
    | ok read =>
      obtain ⟨dex,unknown⟩ := read
      rw [readLine_data hdue hread] at hline
      obtain ⟨rfl,rfl⟩ := Prod.mk.inj (Except.ok.inj hline)
      obtain ⟨field,owner,used,isas,hfields,howner,hisas,rfl,rfl⟩ := readDexData_eq_ok_iff.1 hread
      have hbegun : progress.package.isSome := hpackage (by rw [hdue]; rfl)
      refine ⟨by simp [Progress.settle_due],_,
        finishes_data _ hdue hbegun hfields howner hisas,?_⟩
      rw [List.flatMap_singleton,Item.remarks]
      simp only [TextSet.isEmpty_ofList]
  | none =>
    simp only [readLine,hdue] at hline
    cases line with
    | nil =>
      obtain ⟨rfl,rfl⟩ := Prod.mk.inj (Except.ok.inj hline)
      exact ⟨hpackage,_,finishes_blank hdue,rfl⟩
    | cons c path =>
      simp only [] at hline
      split at hline
      · rename_i hc
        subst hc
        split at hline
        · cases hline
        · rename_i hbegun
          obtain ⟨rfl,rfl⟩ := Prod.mk.inj (Except.ok.inj hline)
          exact ⟨fun _ => Option.isSome_iff_ne_none.2 (by simpa using hbegun),_,
            finishes_path path hdue,rfl⟩
      · rename_i hc
        cases hread : readPackageLine progress (c :: path) with
        | error error =>
          rw [hread] at hline
          cases hline
        | ok after =>
          rw [hread] at hline
          obtain ⟨rfl,rfl⟩ := Prod.mk.inj (Except.ok.inj hline)
          obtain ⟨name,used,hfields,rfl⟩ := readPackageLine_eq_ok_iff.1 hread
          exact ⟨(fun h => by cases h),_,finishes_package _ hdue (by simp [hc]) hfields,rfl⟩

theorem Progress.foremost_dueLines (progress : Progress) (begun : Bool) :
    Foremost begun [] progress.dueLines := by
  refine foremost_nil_of_stuck fun item front hitem hfront _ => ?_
  cases hdue : progress.due with
  | none =>
    rw [Progress.dueLines,hdue] at hfront
    exact hitem.ne_nil (List.prefix_nil.1 hfront)
  | some path =>
    rw [Progress.dueLines,hdue] at hfront
    obtain ⟨_,_,_,_,_,_,hnil,-⟩ := hitem.of_pathLine hfront
    cases hnil

theorem readLines_remarks (vocabulary : Vocabulary) (progress : Progress) (lines : List Text)
    (hpackage : progress.due.isSome → progress.package.isSome) :
    ∃ items, Foremost progress.package.isSome items (progress.dueLines ++ lines.map trimLine) ∧
      (readLines vocabulary progress lines).remarks = items.flatMap (Item.remarks vocabulary) := by
  induction lines generalizing progress with
  | nil =>
    rw [List.map_nil,List.append_nil]
    exact ⟨[],progress.foremost_dueLines _,rfl⟩
  | cons line lines ih =>
    rw [readLines]
    cases hline : readLine vocabulary progress (trimLine line) with
    | error error =>
      refine ⟨[],foremost_nil_of_stuck fun item front hitem hfront hplaced => ?_,rfl⟩
      obtain ⟨read,hread⟩ := readLine_of_spelled hitem hplaced hfront
      rw [hread] at hline
      cases hline
    | ok read =>
      obtain ⟨next,remarks⟩ := read
      obtain ⟨hnext,done,hdone,rfl⟩ := readLine_remarks hpackage hline
      obtain ⟨items,hitems,hremarks⟩ := ih next hnext
      refine ⟨done ++ items,hdone items _ hitems,?_⟩
      simp only [hremarks,List.flatMap_append]

/-! ## The whole listing -/

theorem remarks_of_header (vocabulary : Vocabulary) {version : Int} {text first : Text}
    {lines : List Text} (hlines : bareLines text = first :: lines) (hheader : checkHeader version first = .ok ()) :
    ∃ items, Foremost false items lines ∧
      (read vocabulary version (.ofText text)).remarks = items.flatMap (Item.remarks vocabulary) := by
  rw [← map_trimLine_linesOf] at hlines
  obtain ⟨line,rest,hfeed,rfl,rfl⟩ := List.map_eq_cons_iff.1 hlines
  simp only [read,LineFeed.ofText,hfeed,hheader]
  exact readLines_remarks vocabulary {} rest fun h => by cases h

theorem remarks_of_not_header {version : Int} {text : Text}
    (h : ∀ first lines, bareLines text = first :: lines → checkHeader version first ≠ .ok ()) :
    (read vocabulary version (.ofText text)).remarks = [] := by
  simp only [← map_trimLine_linesOf] at h
  simp only [read,LineFeed.ofText]
  cases hfeed : LineFeed.linesOf text with
  | nil => rfl
  | cons first rest =>
    simp only []
    cases hheader : checkHeader version (trimLine first) with
    | error error => rfl
    | ok _ => exact absurd hheader (h _ _ (by rw [hfeed]; rfl))

theorem remarks_of_read {version : Int} {text : Text} {first : Text} {lines : List Text}
    {items : List Item} {ledger : Ledger} (hlines : bareLines text = first :: lines)
    (hspells : Spells items lines)
    (h : (read vocabulary version (.ofText text)).result = .ok ledger) :
    (read vocabulary version (.ofText text)).remarks = items.flatMap (Item.remarks vocabulary) := by
  obtain ⟨numeral,_,others,hlines',hnumeral,hothers,hanchored,-⟩ := read_ofText_eq_ok_iff.1 h
  obtain ⟨rfl,rfl⟩ := List.cons.inj (hlines.symm.trans hlines')
  obtain rfl := hspells.unique hothers
  obtain ⟨foremost,hforemost,hremarks⟩ :=
    remarks_of_header vocabulary hlines (checkHeader_eq_ok_iff.2 ⟨numeral,rfl,hnumeral⟩)
  rw [hremarks,hforemost.unique (hspells.foremost (Or.inr hanchored))]

/-- Behind a header with the version, the remarks are those on the items that are complete before the
first fault, one item after the other. These items are all there is exactly if the text is accepted,
and there is no remark exactly if all their instruction sets are known. Without such a header there
is no remark either. An unknown instruction set gives a warning, and a dex file without any other an
error that names its path. -/
theorem remarks_up_to_fault (vocabulary : Vocabulary) (version : Int) (text : Text) :
    (∀ numeral lines, bareLines text = (header ++ numeral) :: lines →
      Numeral.read? numeral = some version → ∃ front items,
        BeforeFault front lines ∧ Foremost false items front ∧
        (read vocabulary version (.ofText text)).remarks =
          items.flatMap (Item.remarks vocabulary) ∧
        ((∃ ledger, (read vocabulary version (.ofText text)).result = .ok ledger) ↔
          Spells items lines) ∧
        ((read vocabulary version (.ofText text)).remarks = [] ↔ ∀ path owner used isas,
          .dexFile path owner used isas ∈ items →
          ∀ isa ∈ isas, vocabulary.contains isa = true)) ∧
    ((∀ numeral lines, bareLines text = (header ++ numeral) :: lines →
      Numeral.read? numeral ≠ some version) →
      (read vocabulary version (.ofText text)).remarks = [] ∧
      ∀ ledger, (read vocabulary version (.ofText text)).result ≠ .ok ledger) ∧
    (∀ isa, (Note.remark (.unsupportedIsa isa)).severity = .warning) ∧
    ∀ path, (Note.remark (.noSupportedIsa path)).severity = .error ∧
      path <:+ (Note.remark (.noSupportedIsa path)).message := by
  refine ⟨fun numeral lines hlines hnumeral => ?_,fun hnot => ⟨?_,fun ledger h => ?_⟩,
    fun isa => rfl,fun path => ⟨rfl,List.suffix_append _ _⟩⟩
  · obtain ⟨items,hforemost,hremarks⟩ :=
      remarks_of_header vocabulary hlines (checkHeader_eq_ok_iff.2 ⟨numeral,rfl,hnumeral⟩)
    obtain ⟨front,hfront⟩ := exists_beforeFault lines
    obtain ⟨spelled,-,hspelled,hplaced⟩ := hforemost.begins
    refine ⟨front,items,hfront,hforemost.beforeFault hfront,hremarks,⟨?_,fun hspells => ?_⟩,?_⟩
    · rintro ⟨ledger,h⟩
      obtain ⟨_,_,others,hlines',-,hothers,hanchored,-⟩ := read_ofText_eq_ok_iff.1 h
      obtain ⟨-,rfl⟩ := List.cons.inj (hlines.symm.trans hlines')
      rwa [hforemost.unique (hothers.foremost (Or.inr hanchored))]
    · have hanchored : Anchored items := hplaced.resolve_left Bool.false_ne_true
      exact ⟨_,read_ofText_eq_ok_iff.2 ⟨numeral,lines,items,hlines,hnumeral,hspells,hanchored,rfl⟩⟩
    · rw [hremarks,hspelled.remarks_eq_nil_iff]
  · refine remarks_of_not_header fun first lines hlines hheader => ?_
    obtain ⟨numeral,rfl,hnumeral⟩ := checkHeader_eq_ok_iff.1 hheader
    exact hnot numeral lines hlines hnumeral
  · obtain ⟨numeral,lines,_,hlines,hnumeral,-⟩ := read_ofText_eq_ok_iff.1 h
    exact hnot numeral lines hlines hnumeral

/-- The third data line has a flag that is none, so only the first two are remarked on. -/
example : (read (TextSet.ofList ["arm"]) 1 (.ofText
    "PACKAGE_MANAGER__PACKAGE_DEX_USAGE__1\na,0\n#p\n0,1,x,,arm,x\n#q\n7,0,x\n#r\n7,2,x\n")).remarks =
    [.unsupportedIsa "x",.unsupportedIsa "",.unsupportedIsa "x",.unsupportedIsa "x",
      .noSupportedIsa "q"] := by decide +kernel

end LoadLedger.Listing
