import LoadLedger.Proofs.FileLines
import LoadLedger.Proofs.Listing.Spelling

/-! # Data lines of enough fields

A reader refuses a data line that has no field behind the owner and the flag. These two hold no
separator and no line end. So the data line of a record that has an instruction set is not refused
for that, whatever else stands on it; and if the parts of a ledger keep to their lines, a reader of
its listing comes upon no other data lines.
-/
namespace LoadLedger.Listing

variable {vocabulary : Vocabulary}

def dataLines (ledger : Ledger) : List Text :=
  ledger.entries.flatMap fun p => p.2.dexFiles.entries.map fun q => dexDataLine q.2

/-! ## The beginning of a data line -/

/-- What stands on a data line in front of the instruction sets. -/
def dataStart (dex : DexUse) : Text :=
  dex.owner.text ++ [CodePoint.comma] ++ writeFlag dex.usedByOthers ++ [CodePoint.comma]

theorem dexDataLine_eq_append {dex : DexUse} {isa : Isa} (h : dex.isas.contains isa = true) :
    dexDataLine dex = dataStart dex ++ Text.join [CodePoint.comma] dex.isas.keys := by
  rw [dexDataLine,Text.join_cons (List.cons_ne_nil _ _),Text.join_cons (TextMap.keys_ne_nil h),
    dataStart]
  simp only [List.append_assoc]

theorem notMem_dataStart (dex : DexUse) {c : CodePoint} (hc : c.val < 44) : c ∉ dataStart dex := by
  have hcomma : c ≠ CodePoint.comma := by
    rintro rfl
    exact absurd hc (by decide)
  have howner := ownerText_notMem dex.owner (Nat.lt_succ_of_lt hc)
  have hflag := writeFlag_notMem dex.usedByOthers (Nat.lt_trans hc (by decide))
  simp [dataStart,howner,hflag,hcomma]

theorem split_dataStart_append (dex : DexUse) (rest : Text) :
    (dataStart dex ++ rest).split CodePoint.comma =
      dex.owner.text :: writeFlag dex.usedByOthers :: rest.split CodePoint.comma := by
  have howner := ownerText_notMem dex.owner (c := CodePoint.comma) (by decide)
  have hflag := writeFlag_notMem dex.usedByOthers (c := CodePoint.comma) (by decide)
  simp only [dataStart,List.append_assoc,List.cons_append,List.nil_append]
  rw [Text.split_append_cons howner,Text.split_append_cons hflag]

theorem three_le_fields (dex : DexUse) (rest : Text) :
    3 ≤ ((dataStart dex ++ rest).split CodePoint.comma).length := by
  have hrest := List.length_pos_iff.2 (Text.split_ne_nil CodePoint.comma rest)
  rw [split_dataStart_append,List.length_cons,List.length_cons]
  omega

theorem dropReturns_dataStart_append (dex : DexUse) (rest : Text) :
    dropReturns (dataStart dex ++ rest) = dataStart dex ++ dropReturns rest :=
  Text.trimEnd_append (by decide) _ rest

/-- However a text goes on that begins like a data line, so does its first line. -/
theorem linesOf_dataStart_append (dex : DexUse) (rest : Text) :
    ∃ line lines tail, LineFeed.linesOf (dataStart dex ++ rest) = line :: lines ∧
      trimLine line = dataStart dex ++ tail := by
  obtain ⟨first,more,hsplit⟩ := List.exists_cons_of_ne_nil (Text.split_ne_nil CodePoint.lineFeed rest)
  have hpieces : (dataStart dex ++ rest).split CodePoint.lineFeed =
      (dataStart dex ++ first) :: more := by
    rw [Text.split_append (notMem_dataStart dex (by decide)),hsplit,List.modifyHead_cons]
  have hbare : ∃ lines, bareLines (dataStart dex ++ rest) =
      (dataStart dex ++ dropReturns first) :: lines := by
    rw [← dropReturns_dataStart_append,bareLines,hpieces]
    cases more with
    | nil => exact ⟨[],by simp [dataStart]⟩
    | cons second more =>
      split
      · exact ⟨_,rfl⟩
      · exact ⟨_,rfl⟩
  obtain ⟨lines,hlines⟩ := hbare
  rw [← map_trimLine_linesOf] at hlines
  obtain ⟨line,others,hothers,hline,-⟩ := List.map_eq_cons_iff.1 hlines
  exact ⟨line,others,_,hothers,hline⟩

/-! ## What a reader refuses -/

theorem readFlag_error {field : Text} {error : FormatError} (h : readFlag field = .error error) :
    error = .unknownFlag field := by
  unfold readFlag at h
  split at h
  · cases h
  · split at h
    · cases h
    · exact (Except.error.inj h).symm

theorem fields_lt_three {line cause : Text}
    (h : readDexData vocabulary line = .error (.invalidDexDataLine cause)) :
    (line.split CodePoint.comma).length < 3 := by
  unfold readDexData at h
  split at h
  · split at h
    · cases h
    · split at h
      · rename_i error hflag
        rw [readFlag_error hflag] at h
        cases h
      · cases h
  · rename_i hfew
    match hfields : line.split CodePoint.comma with
    | [] => simp
    | [_] => simp
    | [_,_] => simp
    | owner :: flag :: isa :: isas => exact absurd hfields (hfew owner flag isa isas)

/-- Whatever follows a data line, and whether or not its carriage returns count as line ends: what
comes first is not refused as a data line. -/
theorem readDexData_ne_invalidDexDataLine {dex : DexUse} {isa : Isa}
    (hisa : dex.isas.contains isa = true) {rest text : Text}
    (htext : text = dexDataLine dex ++ rest ∨
      text = LineFeed.replaceReturns (dexDataLine dex ++ rest)) :
    ∃ line lines, LineFeed.linesOf text = line :: lines ∧ ∀ vocabulary cause,
      readDexData vocabulary (trimLine line) ≠ .error (.invalidDexDataLine cause) := by
  have hstart : ∃ more, text = dataStart dex ++ more := by
    rw [dexDataLine_eq_append hisa,List.append_assoc] at htext
    rcases htext with rfl | rfl
    · exact ⟨_,rfl⟩
    · exact ⟨_,LineFeed.replaceReturns_append (notMem_dataStart dex (by decide)) _⟩
  obtain ⟨more,rfl⟩ := hstart
  obtain ⟨line,lines,tail,hlines,hline⟩ := linesOf_dataStart_append dex more
  refine ⟨line,lines,hlines,fun vocabulary cause hrefused => ?_⟩
  have hfew := fields_lt_three hrefused
  have hmany := three_le_fields dex tail
  rw [← hline] at hmany
  omega

/-- What a line can come to: no data is due behind it, or it is refused, but not as a data line. -/
inductive Settled : Except FormatError (Progress × List Remark) → Prop
  | ok {next : Progress} (remarks : List Remark) (hdue : next.due = none) :
      Settled (.ok (next,remarks))
  | error {error : FormatError} (h : ∀ cause, error ≠ .invalidDexDataLine cause) :
      Settled (.error error)

theorem settled_package {progress : Progress} (hdue : progress.due = none) {line : Text}
    (hstart : line.head? ≠ some CodePoint.numberSign) :
    Settled (readLine vocabulary progress line) := by
  cases line with
  | nil =>
    simp only [readLine,hdue]
    exact .ok [] hdue
  | cons c rest =>
    have hc : c ≠ CodePoint.numberSign := fun h => hstart (congrArg some h)
    simp only [readLine,hdue,if_neg hc,readPackageLine]
    split
    · split
      · rename_i hflag
        exact .error fun cause h => by
          rw [readFlag_error hflag] at h
          cases h
      · exact .ok [] rfl
    · exact .error fun cause h => by cases h

theorem settled_data {progress : Progress} {path : Text} (hdue : progress.due = some path)
    {line : Text} (hfields : 3 ≤ (line.split CodePoint.comma).length) :
    Settled (readLine vocabulary progress line) := by
  cases hread : readDexData vocabulary line with
  | error error =>
    simp only [readLine,hdue,hread]
    refine .error fun cause hcause => ?_
    have hfew := fields_lt_three (hcause ▸ hread)
    omega
  | ok read =>
    rw [readLine_data hdue hread]
    exact .ok _ (progress.settle_due path read.1)

theorem Settled.readRest_cons {progress : Progress} {line : Text} {lines : List Text} {cause : Text}
    (h : Settled (readLine vocabulary progress (trimLine line)))
    (hrest : ∀ next : Progress, next.due = none →
      readRest vocabulary next lines ≠ .error (.format (.invalidDexDataLine cause))) :
    readRest vocabulary progress (line :: lines) ≠
      .error (.format (.invalidDexDataLine cause)) := by
  rw [Listing.readRest_cons]
  generalize readLine vocabulary progress (trimLine line) = step at h ⊢
  cases h with
  | ok remarks hdue => exact hrest _ hdue
  | error h =>
    intro hrefused
    exact h cause (ReadError.format.inj (Except.error.inj hrefused))

/-! ## Whole listings -/

/-- Bare lines in which each path line is followed by a line of at least three fields. -/
inductive Paired : List Text → Prop
  | nil : Paired []
  | package {line : Text} {rest : List Text} (hstart : line.head? ≠ some CodePoint.numberSign)
      (tail : Paired rest) : Paired (line :: rest)
  | dexFile {path data : Text} {rest : List Text} (hfields : 3 ≤ (data.split CodePoint.comma).length)
      (tail : Paired rest) : Paired (pathLine path :: data :: rest)

theorem Paired.append {lines rest : List Text} (h : Paired lines) (hrest : Paired rest) :
    Paired (lines ++ rest) := by
  induction h with
  | nil => exact hrest
  | package hstart _ ih => exact .package hstart ih
  | dexFile hfields _ ih => exact .dexFile hfields ih

theorem Paired.flatMap {α : Type} {l : List α} {lines : α → List Text}
    (h : ∀ a ∈ l, Paired (lines a)) : Paired (l.flatMap lines) := by
  induction l with
  | nil => exact .nil
  | cons a l ih =>
    exact (h a List.mem_cons_self).append (ih fun b hb => h b (List.mem_cons_of_mem _ hb))

theorem Paired.readRest_ne {bare : List Text} (h : Paired bare) {lines : List Text}
    (hlines : lines.map trimLine = bare) {progress : Progress} (hdue : progress.due = none)
    (cause : Text) :
    readRest vocabulary progress lines ≠ .error (.format (.invalidDexDataLine cause)) := by
  induction h generalizing lines progress with
  | nil =>
    obtain rfl := List.map_eq_nil_iff.1 hlines
    intro hrefused
    simp [readRest,readLines,Except.bind,finish,hdue] at hrefused
  | package hstart _ ih =>
    obtain ⟨line,lines,rfl,rfl,hrest⟩ := List.map_eq_cons_iff.1 hlines
    exact (settled_package hdue hstart).readRest_cons fun next hnext => ih hrest hnext
  | @dexFile path data rest hfields _ ih =>
    obtain ⟨first,others,rfl,hpath,hothers⟩ := List.map_eq_cons_iff.1 hlines
    obtain ⟨line,lines,rfl,rfl,hrest⟩ := List.map_eq_cons_iff.1 hothers
    rw [Listing.readRest_cons,hpath]
    cases hnone : progress.package.isNone with
    | true => simp [readLine,pathLine,hdue,hnone]
    | false =>
      simp only [readLine,pathLine,hdue,hnone]
      exact (settled_data rfl hfields).readRest_cons fun next hnext => ih hrest hnext

theorem paired_lines {ledger : Ledger}
    (h : Ledger.Every (fun name => name.head? ≠ some CodePoint.numberSign)
      (fun _ dex => ∃ isa, dex.isas.contains isa = true) ledger) :
    Paired ((ledger.entries.flatMap fun p => packageLines p.1 p.2).map dropReturns) := by
  rw [List.map_flatMap]
  apply Paired.flatMap
  intro p hp
  obtain ⟨hname,hrecords⟩ := h p.1 p.2 (TextMap.find?_eq_some_iff.2 hp)
  rw [packageLines,List.map_cons,List.map_flatMap,dropReturns_eq_self (getLast?_packageLine p.1 p.2)]
  refine .package (head?_packageLine hname p.2) (Paired.flatMap fun q hq => ?_)
  obtain ⟨isa,hisa⟩ := hrecords q.1 q.2 (TextMap.find?_eq_some_iff.2 hq)
  rw [List.map_cons,List.map_singleton,dropReturns_pathLine,dexDataLine_eq_append hisa,
    dropReturns_dataStart_append]
  exact .dexFile (three_le_fields q.2 _) .nil

theorem read_render_ne_invalidDexDataLine {version found : Int} {ledger : Ledger}
    (hfeed : Lacks ledger CodePoint.lineFeed)
    (h : Ledger.Every (fun name => name.head? ≠ some CodePoint.numberSign)
      (fun _ dex => ∃ isa, dex.isas.contains isa = true) ledger) (cause : Text) :
    (read vocabulary version (.ofText (render found ledger))).result ≠
      .error (.format (.invalidDexDataLine cause)) := by
  have hbare := bareLines_render found hfeed
  rw [← map_trimLine_linesOf] at hbare
  obtain ⟨first,rest,hlines,-,hrest⟩ := List.map_eq_cons_iff.1 hbare
  simp only [read_ofText,hlines]
  cases hheader : checkHeader version (trimLine first) with
  | error error =>
    intro hrefused
    obtain rfl := ReadError.format.inj (Except.error.inj hrefused)
    unfold checkHeader at hheader
    split at hheader
    · cases hheader
    · split at hheader <;> cases hheader
  | ok _ => exact (paired_lines h).readRest_ne hrest rfl cause

end LoadLedger.Listing
