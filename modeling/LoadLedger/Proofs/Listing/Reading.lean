import LoadLedger.Proofs.BareLines
import LoadLedger.Proofs.Listing.Items
import LoadLedger.Proofs.TextMaps

/-! # A reader accepts the items and nothing else

The reader keeps the ledger, the name of the package begun last and a path whose data is due. It
follows the items: a path that is due counts as a path line still to be read, and the record of the
package begun last is always there to be changed.
-/
namespace LoadLedger.Listing

variable {vocabulary : Vocabulary}

/-! ## Single lines -/

theorem readFlag_eq_ok_iff {field : Text} {used : Bool} :
    readFlag field = .ok used ↔ field = writeFlag used := by
  unfold readFlag
  constructor
  · intro h
    split at h
    · rename_i hfield
      obtain rfl := Except.ok.inj h
      exact hfield
    · split at h
      · rename_i hfield
        obtain rfl := Except.ok.inj h
        exact hfield
      · cases h
  · rintro rfl
    cases used <;> rfl

theorem writeFlag_inj {used used' : Bool} (h : writeFlag used = writeFlag used') : used = used' :=
  Except.ok.inj ((readFlag_eq_ok_iff.2 h).symm.trans (readFlag_eq_ok_iff.2 rfl)) |>.symm

/-- The reader at the beginning of a package, or after a change of its record. -/
def Progress.put (progress : Progress) (name : Text) (use : PackageUse) : Progress where
  ledger := progress.ledger.insert name use
  package := some name

theorem readPackageLine_eq_ok_iff {progress next : Progress} {line : Text} :
    readPackageLine progress line = .ok next ↔ ∃ name used,
      line.split CodePoint.comma = [name,writeFlag used] ∧
      next = progress.put name { usedByOthers := used } := by
  unfold readPackageLine
  constructor
  · intro h
    split at h
    · rename_i name flag hfields
      cases hflag : readFlag flag with
      | error error => simp [hflag] at h
      | ok used =>
        rw [hflag] at h
        exact ⟨name,used,readFlag_eq_ok_iff.1 hflag ▸ hfields,(Except.ok.inj h).symm⟩
    · cases h
  · rintro ⟨name,used,hfields,rfl⟩
    simp only [hfields,readFlag_eq_ok_iff.2 rfl]
    rfl

theorem readDexData_eq_ok_iff {line : Text} {dex : DexUse} {unknown : List Isa} :
    readDexData vocabulary line = .ok (dex,unknown) ↔ ∃ field owner used isas,
      line.split CodePoint.comma = field :: writeFlag used :: isas ∧
      Numeral.read? field = some owner ∧ isas ≠ [] ∧
      dex = ⟨.user owner,used,TextSet.ofList (isas.filter vocabulary.contains)⟩ ∧
      unknown = isas.filter (!vocabulary.contains ·) := by
  unfold readDexData
  constructor
  · intro h
    split at h
    · rename_i field flag isa isas hfields
      cases howner : Numeral.read? field with
      | none => simp [howner] at h
      | some owner =>
        cases hflag : readFlag flag with
        | error error => simp [howner,hflag] at h
        | ok used =>
          simp only [howner,hflag,List.partition_eq_filter_filter,Except.ok.injEq,Prod.mk.injEq] at h
          exact ⟨field,owner,used,isa :: isas,readFlag_eq_ok_iff.1 hflag ▸ hfields,howner,
            List.cons_ne_nil _ _,h.1.symm,h.2.symm⟩
    · cases h
  · rintro ⟨field,owner,used,isas,hfields,howner,hisas,rfl,rfl⟩
    cases isas with
    | nil => exact absurd rfl hisas
    | cons isa isas =>
      simp only [hfields,howner,readFlag_eq_ok_iff.2 rfl,List.partition_eq_filter_filter]
      rfl

/-! ## The reader between two lines -/

/-- The lines that a reader has taken in but not yet dealt with. -/
def Progress.dueLines (progress : Progress) : List Text :=
  match progress.due with
  | none => []
  | some path => [pathLine path]

/-- A reader agrees with what has been entered: it has the same ledger, in which the package begun
last has its record, and no data is due before the first package. -/
structure Progress.Agrees (progress : Progress) (entered : Entered) : Prop where
  ledger : progress.ledger = entered.ledger
  package : progress.package = entered.latest.map (·.1)
  record : ∀ name use, entered.latest = some (name,use) → entered.ledger.find? name = some use
  due : progress.due.isSome → progress.package.isSome

theorem Progress.agrees_empty : Progress.Agrees {} {} where
  ledger := rfl
  package := rfl
  record := fun _ _ h => by cases h
  due := fun h => by cases h

theorem Progress.Agrees.put {progress : Progress} {entered : Entered} (name : Text) (use : PackageUse)
    (h : progress.Agrees entered) :
    (progress.put name use).Agrees (entered.put name use) where
  ledger := by
    rw [Progress.put,h.ledger]
    rfl
  package := rfl
  record := by
    intro name' use' hlatest
    obtain ⟨rfl,rfl⟩ := Prod.mk.inj (Option.some.inj hlatest)
    simp [Entered.put,TextMap.find?_insert]
  due := fun h => by cases h

/-- The reader behind a data line, which may have left the record without instruction sets. -/
def Progress.settle (progress : Progress) (path : Text) (dex : DexUse) : Progress :=
  if dex.isas.isEmpty then { progress with due := none } else progress.enter path dex

theorem Progress.Agrees.settle {progress : Progress} {entered : Entered} {path : Text} {owner : Int}
    {used : Bool} {isas : List Isa} (h : progress.Agrees entered) (hdue : progress.due = some path) :
    (progress.settle path ⟨.user owner,used,TextSet.ofList (isas.filter vocabulary.contains)⟩).Agrees
      (entered.add vocabulary (.dexFile path owner used isas)) := by
  cases hlatest : entered.latest with
  | none =>
    have hpackage := h.due (by rw [hdue]; rfl)
    rw [h.package,hlatest] at hpackage
    cases hpackage
  | some latest =>
    obtain ⟨name,use⟩ := latest
    have hfind := h.record name use hlatest
    have hname : progress.package = some name := by rw [h.package,hlatest]; rfl
    simp only [Entered.add,hlatest,Progress.settle]
    by_cases hknown : isas.filter vocabulary.contains = []
    · rw [if_pos (TextSet.isEmpty_ofList.2 hknown),if_pos hknown]
      exact ⟨h.ledger,h.package,h.record,fun hnone => by cases hnone⟩
    · rw [if_neg (fun hempty => hknown (TextSet.isEmpty_ofList.1 hempty)),if_neg hknown]
      have hput := h.put name (use.setDexFile path
        ⟨.user owner,used,TextSet.ofList (isas.filter vocabulary.contains)⟩)
      simpa only [Progress.enter,hname,Option.bind_some,h.ledger,hfind,Option.map_some,
        Progress.put] using hput

theorem Progress.settle_due (progress : Progress) (path : Text) (dex : DexUse) :
    (progress.settle path dex).due = none := by
  unfold Progress.settle Progress.enter
  split
  · rfl
  · split <;> rfl

theorem Progress.settle_package (progress : Progress) (path : Text) (dex : DexUse) :
    (progress.settle path dex).package = progress.package := by
  unfold Progress.settle Progress.enter
  split
  · rfl
  · split <;> rfl

/-! ## All lines -/

/-- What the reader gives for the lines from here on. -/
def readRest (vocabulary : Vocabulary) (progress : Progress) (lines : List Text) :
    Except ReadError Ledger :=
  (readLines vocabulary progress lines).result.bind finish

theorem readRest_cons (progress : Progress) (line : Text) (lines : List Text) :
    readRest vocabulary progress (line :: lines) =
      match readLine vocabulary progress (trimLine line) with
      | .error error => .error (.format error)
      | .ok (next,_) => readRest vocabulary next lines := by
  unfold readRest
  rw [readLines]
  cases readLine vocabulary progress (trimLine line) <;> rfl

theorem readRest_blank {progress : Progress} {line : Text} {lines : List Text}
    (hdue : progress.due = none) (hline : trimLine line = []) :
    readRest vocabulary progress (line :: lines) = readRest vocabulary progress lines := by
  simp only [readRest_cons,readLine,hdue,hline]

theorem readRest_package {progress : Progress} {line : Text} {lines : List Text} {ledger : Ledger}
    (hdue : progress.due = none) (hne : trimLine line ≠ [])
    (hstart : (trimLine line).head? ≠ some CodePoint.numberSign) :
    readRest vocabulary progress (line :: lines) = .ok ledger ↔ ∃ name used,
      (trimLine line).split CodePoint.comma = [name,writeFlag used] ∧
      readRest vocabulary (progress.put name { usedByOthers := used }) lines = .ok ledger := by
  have hline : readLine vocabulary progress (trimLine line) =
      (readPackageLine progress (trimLine line)).map (·,[]) := by
    simp only [readLine,hdue]
    cases htrim : trimLine line with
    | nil => exact absurd htrim hne
    | cons c rest =>
      have hc : c ≠ CodePoint.numberSign := by
        rintro rfl
        exact hstart (by rw [htrim]; rfl)
      exact if_neg hc
  rw [readRest_cons,hline]
  cases hread : readPackageLine progress (trimLine line) with
  | error error =>
    constructor
    · intro h
      cases h
    · rintro ⟨name,used,hfields,-⟩
      rw [readPackageLine_eq_ok_iff.2 ⟨name,used,hfields,rfl⟩] at hread
      cases hread
  | ok next =>
    obtain ⟨name,used,hfields,rfl⟩ := readPackageLine_eq_ok_iff.1 hread
    constructor
    · intro h
      exact ⟨name,used,hfields,h⟩
    · rintro ⟨name',used',hfields',h⟩
      obtain ⟨rfl,hflag⟩ := List.cons.inj (hfields.symm.trans hfields')
      obtain rfl := writeFlag_inj (List.cons.inj hflag).1
      exact h

theorem readLine_data {progress : Progress} {path line : Text} {dex : DexUse} {unknown : List Isa}
    (hdue : progress.due = some path) (hread : readDexData vocabulary line = .ok (dex,unknown)) :
    readLine vocabulary progress line = .ok (progress.settle path dex,
      unknown.map Remark.unsupportedIsa ++ if dex.isas.isEmpty then [.noSupportedIsa path] else []) := by
  simp only [readLine,hdue,hread,Progress.settle]
  split
  · rfl
  · rw [List.append_nil]

theorem readRest_data {progress : Progress} {path line : Text} {lines : List Text} {ledger : Ledger}
    (hdue : progress.due = some path) :
    readRest vocabulary progress (line :: lines) = .ok ledger ↔ ∃ field owner used isas,
      (trimLine line).split CodePoint.comma = field :: writeFlag used :: isas ∧
      Numeral.read? field = some owner ∧ isas ≠ [] ∧
      readRest vocabulary (progress.settle path
        ⟨.user owner,used,TextSet.ofList (isas.filter vocabulary.contains)⟩) lines = .ok ledger := by
  rw [readRest_cons]
  cases hread : readDexData vocabulary (trimLine line) with
  | error error =>
    constructor
    · intro h
      simp only [readLine,hdue,hread] at h
      cases h
    · rintro ⟨field,owner,used,isas,hfields,howner,hisas,-⟩
      rw [readDexData_eq_ok_iff.2 ⟨field,owner,used,isas,hfields,howner,hisas,rfl,rfl⟩] at hread
      cases hread
  | ok read =>
    obtain ⟨dex,unknown⟩ := read
    have hline := readLine_data hdue hread
    obtain ⟨field,owner,used,isas,hfields,howner,hisas,rfl,rfl⟩ := readDexData_eq_ok_iff.1 hread
    rw [hline]
    constructor
    · intro h
      exact ⟨field,owner,used,isas,hfields,howner,hisas,h⟩
    · rintro ⟨field',owner',used',isas',hfields',howner',-,h⟩
      obtain ⟨rfl,hrest⟩ := List.cons.inj (hfields.symm.trans hfields')
      obtain ⟨hflag,rfl⟩ := List.cons.inj hrest
      obtain rfl := writeFlag_inj hflag
      obtain rfl := Option.some.inj (howner.symm.trans howner')
      exact h

/-- The bare lines from here on, behind the one that is due, spell items that lead from what has
been entered to a ledger. -/
def LeadsTo (vocabulary : Vocabulary) (progress : Progress) (entered : Entered) (lines : List Text)
    (ledger : Ledger) : Prop :=
  ∃ items, Spells items (progress.dueLines ++ lines) ∧
    (progress.package = none → Anchored items) ∧
    ledger = (items.foldl (Entered.add vocabulary) entered).ledger

theorem leadsTo_nil_iff {progress : Progress} {entered : Entered} {ledger : Ledger} :
    LeadsTo vocabulary progress entered [] ledger ↔
      progress.due = none ∧ ledger = entered.ledger := by
  unfold LeadsTo Progress.dueLines
  cases hdue : progress.due with
  | none =>
    simp only [List.append_nil,spells_nil_iff]
    constructor
    · rintro ⟨_,rfl,-,hledger⟩
      exact ⟨trivial,hledger⟩
    · rintro ⟨-,hledger⟩
      exact ⟨[],rfl,fun _ => anchored_nil,hledger⟩
  | some path => simp [spells_pathLine_iff]

theorem leadsTo_blank_iff {progress : Progress} {entered : Entered} {lines : List Text}
    {ledger : Ledger} (hdue : progress.due = none) :
    LeadsTo vocabulary progress entered ([] :: lines) ledger ↔
      LeadsTo vocabulary progress entered lines ledger := by
  simp only [LeadsTo,Progress.dueLines,hdue,List.nil_append,spells_blank_iff]
  constructor
  · rintro ⟨-,⟨items,rfl,hspells⟩,hanchored,hledger⟩
    exact ⟨items,hspells,fun hnone => anchored_blank.1 (hanchored hnone),hledger⟩
  · rintro ⟨items,hspells,hanchored,hledger⟩
    exact ⟨_,⟨items,rfl,hspells⟩,fun hnone => anchored_blank.2 (hanchored hnone),hledger⟩

theorem leadsTo_package_iff {progress : Progress} {entered : Entered} {line : Text}
    {lines : List Text} {ledger : Ledger} (hdue : progress.due = none) (hne : line ≠ [])
    (hstart : line.head? ≠ some CodePoint.numberSign) :
    LeadsTo vocabulary progress entered (line :: lines) ledger ↔ ∃ name used,
      line.split CodePoint.comma = [name,writeFlag used] ∧
      LeadsTo vocabulary (progress.put name { usedByOthers := used })
        (entered.put name { usedByOthers := used }) lines ledger := by
  simp only [LeadsTo,Progress.dueLines,hdue,List.nil_append,spells_package_iff hne hstart]
  constructor
  · rintro ⟨-,⟨name,used,items,rfl,hfields,hspells⟩,-,hledger⟩
    exact ⟨name,used,hfields,items,hspells,(fun hnone => by cases hnone),hledger⟩
  · rintro ⟨name,used,hfields,items,hspells,-,hledger⟩
    exact ⟨_,⟨name,used,items,rfl,hfields,hspells⟩,fun _ => anchored_package,hledger⟩

theorem not_leadsTo_path {progress : Progress} {entered : Entered} {path : Text} {lines : List Text}
    {ledger : Ledger} (hdue : progress.due = none) (hnone : progress.package = none) :
    ¬LeadsTo vocabulary progress entered (pathLine path :: lines) ledger := by
  simp only [LeadsTo,Progress.dueLines,hdue,List.nil_append,spells_pathLine_iff]
  rintro ⟨-,⟨_,_,_,_,_,_,_,-,rfl,-⟩,hanchored,-⟩
  exact not_anchored_dexFile (hanchored hnone)

theorem leadsTo_path_iff {progress : Progress} {entered : Entered} {path : Text} {lines : List Text}
    {ledger : Ledger} (hdue : progress.due = none) :
    LeadsTo vocabulary progress entered (pathLine path :: lines) ledger ↔
      LeadsTo vocabulary { progress with due := some path } entered lines ledger := by
  simp only [LeadsTo,Progress.dueLines,hdue,List.nil_append,List.singleton_append]

theorem leadsTo_data_iff {progress : Progress} {entered : Entered} {path line : Text}
    {lines : List Text} {ledger : Ledger} (h : progress.Agrees entered)
    (hdue : progress.due = some path) :
    LeadsTo vocabulary progress entered (line :: lines) ledger ↔ ∃ field owner used isas,
      line.split CodePoint.comma = field :: writeFlag used :: isas ∧
      Numeral.read? field = some owner ∧ isas ≠ [] ∧
      LeadsTo vocabulary
        (progress.settle path ⟨.user owner,used,TextSet.ofList (isas.filter vocabulary.contains)⟩)
        (entered.add vocabulary (.dexFile path owner used isas)) lines ledger := by
  have hsome : progress.package ≠ none := Option.isSome_iff_ne_none.1 (h.due (by rw [hdue]; rfl))
  simp only [LeadsTo,Progress.dueLines,hdue,Progress.settle_due,Progress.settle_package,
    List.singleton_append,List.nil_append,spells_pathLine_iff]
  constructor
  · rintro ⟨-,⟨_,_,field,owner,used,isas,items,heq,rfl,hfields,howner,hisas,hspells⟩,-,hledger⟩
    obtain ⟨rfl,rfl⟩ := List.cons.inj heq
    exact ⟨field,owner,used,isas,hfields,howner,hisas,items,hspells,
      fun hnone => absurd hnone hsome,hledger⟩
  · rintro ⟨field,owner,used,isas,hfields,howner,hisas,items,hspells,-,hledger⟩
    exact ⟨_,⟨_,_,field,owner,used,isas,items,rfl,rfl,hfields,howner,hisas,hspells⟩,
      fun hnone => absurd hnone hsome,hledger⟩

/-- The reader accepts the lines that items spell, and gives the ledger that they come to. -/
theorem readRest_eq_ok_iff {progress : Progress} {entered : Entered} (h : progress.Agrees entered)
    (lines : List Text) (ledger : Ledger) :
    readRest vocabulary progress lines = .ok ledger ↔
      LeadsTo vocabulary progress entered (lines.map trimLine) ledger := by
  induction lines generalizing progress entered with
  | nil =>
    rw [List.map_nil,leadsTo_nil_iff]
    cases hdue : progress.due <;>
      simp [readRest,readLines,Except.bind,finish,hdue,h.ledger,eq_comm]
  | cons line lines ih =>
    rw [List.map_cons]
    cases hdue : progress.due with
    | some path =>
      rw [readRest_data hdue,leadsTo_data_iff h hdue]
      simp only [ih (h.settle hdue)]
    | none =>
      cases htrim : trimLine line with
      | nil => rw [readRest_blank hdue htrim,leadsTo_blank_iff hdue,ih h]
      | cons c path =>
        by_cases hc : c = CodePoint.numberSign
        · subst hc
          change _ ↔ LeadsTo vocabulary progress entered (pathLine path :: lines.map trimLine) ledger
          by_cases hnone : progress.package = none
          · refine iff_of_false ?_ (not_leadsTo_path hdue hnone)
            simp [readRest_cons,htrim,readLine,hdue,hnone]
          · have hline : readLine vocabulary progress (trimLine line) =
                .ok ({ progress with due := some path },[]) := by
              simp [readLine,hdue,htrim,hnone]
            rw [readRest_cons,hline,leadsTo_path_iff hdue]
            exact ih ⟨h.ledger,h.package,h.record,fun _ => Option.isSome_iff_ne_none.2 hnone⟩
        · have hne : trimLine line ≠ [] := by simp [htrim]
          have hstart : (trimLine line).head? ≠ some CodePoint.numberSign := by simp [htrim,hc]
          rw [← htrim,readRest_package hdue hne hstart,leadsTo_package_iff hdue hne hstart]
          simp only [ih (h.put _ _)]

/-! ## The whole listing -/

theorem checkHeader_eq_ok_iff {version : Int} {line : Text} :
    checkHeader version line = .ok () ↔
      ∃ numeral, line = header ++ numeral ∧ Numeral.read? numeral = some version := by
  unfold checkHeader
  constructor
  · intro h
    split at h
    · cases h
    · rename_i found hfound
      obtain ⟨numeral,hstart,hread⟩ := Option.bind_eq_some_iff.1 hfound
      split at h
      · rename_i hversion
        exact ⟨numeral,Text.dropStart?_eq_some_iff.1 hstart,hversion ▸ hread⟩
      · cases h
  · rintro ⟨numeral,hline,hread⟩
    simp [Text.dropStart?_eq_some_iff.2 hline,hread]

theorem read_ofText (vocabulary : Vocabulary) (version : Int) (text : Text) :
    (read vocabulary version (.ofText text)).result =
      match LineFeed.linesOf text with
      | [] => .error (.format .noVersionLine)
      | first :: rest =>
        match checkHeader version (trimLine first) with
        | .error error => .error (.format error)
        | .ok () => readRest vocabulary {} rest := by
  simp only [read,LineFeed.ofText,readRest]
  cases LineFeed.linesOf text with
  | nil => rfl
  | cons first rest =>
    simp only []
    cases checkHeader version (trimLine first) with
    | error error => rfl
    | ok _ =>
      simp only []
      cases (readLines vocabulary {} rest).result <;> rfl

theorem readLines_error {progress : Progress} {lines : List Text} {error : ReadError}
    (h : (readLines vocabulary progress lines).result = .error error) :
    ∃ cause, error = .format cause := by
  induction lines generalizing progress with
  | nil => cases h
  | cons line lines ih =>
    rw [readLines] at h
    cases hline : readLine vocabulary progress (trimLine line) with
    | error cause =>
      rw [hline] at h
      exact ⟨cause,(Except.error.inj h).symm⟩
    | ok next =>
      rw [hline] at h
      exact ih h

theorem read_ofText_eq_ok_iff {vocabulary : Vocabulary} {version : Int} {text : Text}
    {ledger : Ledger} : (read vocabulary version (.ofText text)).result = .ok ledger ↔
      ∃ numeral lines items, bareLines text = (header ++ numeral) :: lines ∧
        Numeral.read? numeral = some version ∧ Spells items lines ∧ Anchored items ∧
        ledger = ledgerOf vocabulary items := by
  rw [read_ofText,← map_trimLine_linesOf]
  cases LineFeed.linesOf text with
  | nil => simp
  | cons first rest =>
    simp only [List.map_cons]
    cases hheader : checkHeader version (trimLine first) with
    | error error =>
      constructor
      · intro h
        cases h
      · rintro ⟨numeral,lines,items,hlines,hread,-⟩
        rw [checkHeader_eq_ok_iff.2 ⟨numeral,(List.cons.inj hlines).1,hread⟩] at hheader
        cases hheader
    | ok _ =>
      obtain ⟨numeral,hfirst,hread⟩ := checkHeader_eq_ok_iff.1 hheader
      change readRest vocabulary {} rest = .ok ledger ↔ _
      rw [readRest_eq_ok_iff Progress.agrees_empty]
      constructor
      · rintro ⟨items,hspells,hanchored,hledger⟩
        exact ⟨numeral,rest.map trimLine,items,by rw [hfirst],hread,hspells,hanchored rfl,hledger⟩
      · rintro ⟨_,lines,items,hlines,-,hspells,hanchored,hledger⟩
        obtain ⟨-,rfl⟩ := List.cons.inj hlines
        exact ⟨items,hspells,fun _ => hanchored,hledger⟩

theorem read_ofText_error {vocabulary : Vocabulary} {version : Int} {text : Text}
    {error : ReadError} (h : (read vocabulary version (.ofText text)).result = .error error) :
    ∃ cause, error = .format cause := by
  rw [read_ofText] at h
  split at h
  · exact ⟨_,(Except.error.inj h).symm⟩
  · split at h
    · exact ⟨_,(Except.error.inj h).symm⟩
    · unfold readRest at h
      cases hlines : (readLines vocabulary {} _).result with
      | error cause =>
        rw [hlines] at h
        obtain rfl := Except.error.inj h
        exact readLines_error hlines
      | ok progress =>
        rw [hlines] at h
        change finish progress = .error error at h
        unfold finish at h
        split at h
        · exact ⟨_,(Except.error.inj h).symm⟩
        · cases h

/-- A text is read exactly if behind a header with the version it spells items, none of them a dex
file before the first package. The result is the ledger that the items come to, and anything else
is an error of the format. -/
theorem read_text_eq_ok_iff (vocabulary : Vocabulary) (version : Int) (text : Text) :
    (∀ ledger, (read vocabulary version (.ofText text)).result = .ok ledger ↔
      ∃ numeral lines items, bareLines text = (header ++ numeral) :: lines ∧
        Numeral.read? numeral = some version ∧ Spells items lines ∧ Anchored items ∧
        ledger = ledgerOf vocabulary items) ∧
    ∀ error, (read vocabulary version (.ofText text)).result = .error error →
      ∃ cause, error = .format cause :=
  ⟨fun _ => read_ofText_eq_ok_iff,fun _ => read_ofText_error⟩

end LoadLedger.Listing
