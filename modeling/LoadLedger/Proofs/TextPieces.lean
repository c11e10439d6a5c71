import LoadLedger.Text

/-! # Texts taken apart and put together

Splitting at a separator and joining with it are inverse to each other as long as no piece holds
the separator. Trimming takes a run off the end and stops at the first code point it must keep.
-/
namespace LoadLedger.Text

variable {sep : CodePoint} {drop : CodePoint → Bool}

/-! ## Splitting and joining -/

@[simp] theorem split_nil (sep : CodePoint) : split sep [] = [[]] := rfl

theorem split_cons (sep c : CodePoint) (rest : Text) :
    split sep (c :: rest) =
      if c = sep then [] :: split sep rest else (split sep rest).modifyHead (c :: ·) := by
  rw [split]
  split
  · rfl
  · cases h : split sep rest with
    | nil => exact absurd h (split_ne_nil sep rest)
    | cons piece pieces => rfl

@[simp] theorem join_singleton (sep piece : Text) : join sep [piece] = piece := rfl

theorem join_cons {sep piece : Text} {pieces : List Text} (h : pieces ≠ []) :
    join sep (piece :: pieces) = piece ++ sep ++ join sep pieces := by
  cases pieces with
  | nil => exact absurd rfl h
  | cons _ _ => rfl

/-- A text without separators becomes the beginning of the first piece. -/
theorem split_append {start : Text} (hstart : sep ∉ start) (rest : Text) :
    split sep (start ++ rest) = (split sep rest).modifyHead (start ++ ·) := by
  induction start with
  | nil => exact (congrFun List.modifyHead_id (split sep rest)).symm
  | cons c start ih =>
    obtain ⟨hc,hrest⟩ : sep ≠ c ∧ sep ∉ start := by simpa using hstart
    rw [List.cons_append,split_cons,if_neg (Ne.symm hc),ih hrest,List.modifyHead_modifyHead]
    rfl

theorem split_append_cons {piece : Text} (hpiece : sep ∉ piece) (rest : Text) :
    split sep (piece ++ sep :: rest) = piece :: split sep rest := by
  rw [split_append hpiece,split_cons,if_pos rfl,List.modifyHead_cons,List.append_nil]

theorem split_of_notMem {text : Text} (h : sep ∉ text) : split sep text = [text] := by
  simpa using split_append h []

theorem join_split (sep : CodePoint) (text : Text) : join [sep] (split sep text) = text := by
  induction text with
  | nil => rfl
  | cons c text ih =>
    rw [split_cons]
    split
    · rename_i hc
      rw [join_cons (split_ne_nil sep text),ih,hc]
      rfl
    · cases h : split sep text with
      | nil => exact absurd h (split_ne_nil sep text)
      | cons piece pieces =>
        rw [h] at ih
        cases pieces with
        | nil => simpa using ih
        | cons _ _ => simpa [List.modifyHead,join] using ih

theorem split_join {pieces : List Text} (hpieces : ∀ piece ∈ pieces, sep ∉ piece)
    (hne : pieces ≠ []) : split sep (join [sep] pieces) = pieces := by
  induction pieces with
  | nil => exact absurd rfl hne
  | cons piece pieces ih =>
    have hpiece := hpieces piece List.mem_cons_self
    cases pieces with
    | nil => exact split_of_notMem hpiece
    | cons next pieces =>
      have hih := ih (fun p hp => hpieces p (List.mem_cons_of_mem _ hp)) (by simp)
      rw [join_cons (by simp),List.append_assoc,List.singleton_append,split_append_cons hpiece,hih]

theorem notMem_of_mem_split {text piece : Text} (h : piece ∈ split sep text) : sep ∉ piece := by
  induction text generalizing piece with
  | nil => simp_all
  | cons c text ih =>
    rw [split_cons] at h
    split at h
    · rcases List.mem_cons.1 h with rfl | h
      · simp
      · exact ih h
    · rename_i hc
      cases hs : split sep text with
      | nil => exact absurd hs (split_ne_nil sep text)
      | cons first pieces =>
        rw [hs] at ih h
        rcases List.mem_cons.1 h with rfl | h
        · simpa [Ne.symm hc] using ih List.mem_cons_self
        · exact ih (List.mem_cons_of_mem _ h)

theorem mem_of_mem_split {text piece : Text} (h : piece ∈ split sep text) {c : CodePoint}
    (hc : c ∈ piece) : c ∈ text := by
  induction text generalizing piece with
  | nil => simp_all
  | cons a text ih =>
    rw [split_cons] at h
    split at h
    · rcases List.mem_cons.1 h with rfl | h
      · simp at hc
      · exact List.mem_cons_of_mem _ (ih h hc)
    · cases hs : split sep text with
      | nil => exact absurd hs (split_ne_nil sep text)
      | cons first pieces =>
        rw [hs] at ih h
        rcases List.mem_cons.1 h with rfl | h
        · rcases List.mem_cons.1 hc with rfl | hc
          · exact List.mem_cons_self
          · exact List.mem_cons_of_mem _ (ih List.mem_cons_self hc)
        · exact List.mem_cons_of_mem _ (ih (List.mem_cons_of_mem _ h) hc)

/-! ## Cutting -/

theorem cut_append_cons {before : Text} (h : sep ∉ before) (after : Text) :
    cut sep (before ++ sep :: after) = (before,some after) := by
  induction before with
  | nil => exact if_pos rfl
  | cons c before ih =>
    obtain ⟨hc,hrest⟩ : sep ≠ c ∧ sep ∉ before := by simpa using h
    rw [List.cons_append,cut,if_neg (Ne.symm hc),ih hrest]

theorem cut_of_notMem {text : Text} (h : sep ∉ text) : cut sep text = (text,none) := by
  induction text with
  | nil => rfl
  | cons c text ih =>
    obtain ⟨hc,hrest⟩ : sep ≠ c ∧ sep ∉ text := by simpa using h
    rw [cut,if_neg (Ne.symm hc),ih hrest]

/-! ## Beginnings and ends -/

theorem dropStart?_eq_some_iff {text start rest : Text} :
    dropStart? text start = some rest ↔ text = start ++ rest := by
  induction start generalizing text with
  | nil => cases text <;> simp [dropStart?]
  | cons a start ih =>
    cases text with
    | nil => simp [dropStart?]
    | cons c text =>
      simp only [dropStart?]
      split
      · rename_i hc
        rw [ih,hc,List.cons_append,List.cons.injEq,and_iff_right rfl]
      · rename_i hc
        simp [hc]

@[simp] theorem trimEnd_nil (drop : CodePoint → Bool) : trimEnd drop [] = [] := rfl

theorem trimEnd_concat (drop : CodePoint → Bool) (text : Text) (c : CodePoint) :
    trimEnd drop (text ++ [c]) = if drop c then trimEnd drop text else text ++ [c] := by
  simp only [trimEnd,List.reverse_append,List.reverse_singleton,List.singleton_append,
    List.dropWhile_cons]
  split <;> simp

theorem trimEnd_eq_self {text : Text} (h : ∀ c, text.getLast? = some c → drop c = false) :
    trimEnd drop text = text := by
  rcases List.eq_nil_or_concat text with rfl | ⟨start,c,rfl⟩
  · rfl
  · have hc := h c (by simp)
    simp [trimEnd_concat,hc]

/-- Trimming does not reach past a code point to be kept. -/
theorem trimEnd_append {last : CodePoint} (hlast : drop last = false) (start text : Text) :
    trimEnd drop (start ++ [last] ++ text) = start ++ [last] ++ trimEnd drop text := by
  simp only [trimEnd,List.reverse_append,List.dropWhile_append]
  split
  · rename_i h
    rw [List.isEmpty_iff.1 h]
    simp [hlast]
  · simp

/-- Trimming joined pieces trims the last of them, if the separator is to be kept. -/
theorem trimEnd_join (hsep : drop sep = false) (pieces : List Text) (last : Text) :
    trimEnd drop (join [sep] (pieces ++ [last])) = join [sep] (pieces ++ [trimEnd drop last]) := by
  induction pieces with
  | nil => rfl
  | cons piece pieces ih =>
    rw [List.cons_append,join_cons (by simp),trimEnd_append hsep,ih,List.cons_append,
      join_cons (by simp)]

theorem getLast?_trimEnd {text : Text} {c : CodePoint} (h : (trimEnd drop text).getLast? = some c) :
    drop c = false := by
  rw [trimEnd,List.getLast?_reverse] at h
  have hd := List.head?_dropWhile_not drop text.reverse
  rw [h] at hd
  simpa using hd

theorem trimEnd_congr {drop' : CodePoint → Bool} {text : Text} (h : ∀ c ∈ text, drop c = drop' c) :
    trimEnd drop text = trimEnd drop' text := by
  have hcongr : ∀ l : Text, (∀ c ∈ l, drop c = drop' c) → l.dropWhile drop = l.dropWhile drop' := by
    intro l hl
    induction l with
    | nil => rfl
    | cons c l ih =>
      simp only [List.dropWhile_cons,hl c List.mem_cons_self]
      rw [ih (fun a ha => hl a (List.mem_cons_of_mem _ ha))]
  rw [trimEnd,trimEnd,hcongr _ (fun c hc => h c (List.mem_reverse.1 hc))]

theorem mem_of_mem_trimEnd {text : Text} {c : CodePoint} (h : c ∈ trimEnd drop text) : c ∈ text := by
  have hd := (List.dropWhile_sublist drop).mem (List.mem_reverse.1 h)
  exact List.mem_reverse.1 hd

end LoadLedger.Text
