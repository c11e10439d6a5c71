import LoadLedger.Listing.Reader
import LoadLedger.Proofs.TextPieces

/-! # Lines without their ends

A reader is handed lines with their line feeds and trims each of them. What it looks at are the
bare lines: the pieces between line feeds, without the carriage returns behind them.
-/
namespace LoadLedger.Listing

def dropReturns (text : Text) : Text := text.trimEnd (· = CodePoint.carriageReturn)

/-- The bare lines of a text. Behind a line feed at the very end of the text there is no line. -/
def bareLines (text : Text) : List Text :=
  let pieces := text.split CodePoint.lineFeed
  (if pieces.getLast? = some [] then pieces.dropLast else pieces).map dropReturns

theorem trimLine_of_notMem {line : Text} (h : CodePoint.lineFeed ∉ line) :
    trimLine line = dropReturns line := by
  apply Text.trimEnd_congr
  intro c hc
  have hne : c ≠ CodePoint.lineFeed := by
    rintro rfl
    exact h hc
  simp [hne]

theorem trimLine_concat {line : Text} (h : CodePoint.lineFeed ∉ line) :
    trimLine (line ++ lineEnd) = dropReturns line := by
  rw [← trimLine_of_notMem h,trimLine,lineEnd,Text.trimEnd_concat]
  simp [trimLine]

/-- Breaking a text into lines and splitting it at line feeds give the same pieces. -/
theorem breakLines_eq_split (text : Text) : ∃ lines last, LineFeed.breakLines text =
    (lines.map (· ++ lineEnd),last) ∧ text.split CodePoint.lineFeed = lines ++ [last] := by
  induction text with
  | nil => exact ⟨[],[],rfl,rfl⟩
  | cons c text ih =>
    obtain ⟨lines,last,hbreak,hsplit⟩ := ih
    rw [LineFeed.breakLines,Text.split_cons,hbreak,hsplit]
    by_cases hc : c = CodePoint.lineFeed
    · exact ⟨[] :: lines,last,by simp [hc,lineEnd],by simp [hc]⟩
    · cases lines with
      | nil => exact ⟨[],c :: last,by simp [hc],by simp [hc]⟩
      | cons line lines => exact ⟨(c :: line) :: lines,last,by simp [hc],by simp [hc]⟩

theorem map_trimLine_linesOf (text : Text) :
    (LineFeed.linesOf text).map trimLine = bareLines text := by
  obtain ⟨lines,last,hbreak,hsplit⟩ := breakLines_eq_split text
  have hfree : ∀ line ∈ lines ++ [last], CodePoint.lineFeed ∉ line :=
    fun line h => Text.notMem_of_mem_split (hsplit ▸ h)
  have hlines : (lines.map (· ++ lineEnd)).map trimLine = lines.map dropReturns := by
    rw [List.map_map]
    exact List.map_congr_left fun line h => trimLine_concat (hfree line (by simp [h]))
  rw [LineFeed.linesOf,hbreak,bareLines,hsplit]
  cases last with
  | nil => simp [hlines]
  | cons c last =>
    have hlast := trimLine_of_notMem (hfree (c :: last) (by simp))
    simp [hlines,hlast]

theorem split_flatMap_lineEnd {lines : List Text} (h : ∀ line ∈ lines, CodePoint.lineFeed ∉ line) :
    Text.split CodePoint.lineFeed (lines.flatMap (· ++ lineEnd)) = lines ++ [[]] := by
  induction lines with
  | nil => rfl
  | cons line lines ih =>
    have hrest := ih (fun l hl => h l (List.mem_cons_of_mem _ hl))
    have hfirst := Text.split_append_cons (h line List.mem_cons_self) (lines.flatMap (· ++ lineEnd))
    rw [hrest] at hfirst
    simpa [List.flatMap_cons,lineEnd] using hfirst

/-- Lines written one after another are the bare lines of what was written. -/
theorem bareLines_flatMap {lines : List Text} (h : ∀ line ∈ lines, CodePoint.lineFeed ∉ line) :
    bareLines (lines.flatMap (· ++ lineEnd)) = lines.map dropReturns := by
  rw [bareLines,split_flatMap_lineEnd h]
  simp

theorem piece_of_mem_bareLines {text line : Text} (h : line ∈ bareLines text) :
    ∃ piece ∈ text.split CodePoint.lineFeed, dropReturns piece = line := by
  obtain ⟨piece,hpiece,rfl⟩ := List.mem_map.1 h
  refine ⟨piece,?_,rfl⟩
  split at hpiece
  · exact (List.dropLast_sublist _).mem hpiece
  · exact hpiece

theorem bare_of_mem_bareLines {text line : Text} (h : line ∈ bareLines text) :
    CodePoint.lineFeed ∉ line ∧ line.getLast? ≠ some CodePoint.carriageReturn := by
  obtain ⟨piece,hpiece,rfl⟩ := piece_of_mem_bareLines h
  constructor
  · intro hfeed
    exact Text.notMem_of_mem_split hpiece (Text.mem_of_mem_trimEnd hfeed)
  · intro hlast
    have hkept := Text.getLast?_trimEnd hlast
    simp at hkept

theorem subset_of_mem_bareLines {text line : Text} (h : line ∈ bareLines text) : line ⊆ text := by
  obtain ⟨piece,hpiece,rfl⟩ := piece_of_mem_bareLines h
  exact fun c hc => Text.mem_of_mem_split hpiece (Text.mem_of_mem_trimEnd hc)

end LoadLedger.Listing
