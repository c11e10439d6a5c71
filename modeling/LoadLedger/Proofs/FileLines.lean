import LoadLedger.FileText
import LoadLedger.Proofs.Utf8Forms

/-! # The lines of a whole file

However a file is cut into chunks, its lines are those of the whole text with its line ends
replaced, provided that the bytes are the encoding of a text. If they are not, a fault is reported
behind the lines. The invariant: what is kept between two chunks stands for what has been read and
not delivered yet.
-/
namespace LoadLedger.LineFeed

/-! ## Line ends -/

/-- The text without the carriage returns that stand right before a line feed. -/
def dropPaired : Text → Text
  | [] => []
  | c :: rest =>
    if c = CodePoint.carriageReturn ∧ rest.head? = some CodePoint.lineFeed then dropPaired rest
    else c :: dropPaired rest

/-- The text with a line feed in place of each pair of carriage return and line feed, and of each
other carriage return. -/
def replaceReturns (text : Text) : Text :=
  (dropPaired text).map fun c => if c = CodePoint.carriageReturn then CodePoint.lineFeed else c

theorem replaceReturns_eq_self {text : Text} (h : CodePoint.carriageReturn ∉ text) :
    replaceReturns text = text := by
  induction text with
  | nil => rfl
  | cons c text ih =>
    obtain ⟨hc,htext⟩ : CodePoint.carriageReturn ≠ c ∧ CodePoint.carriageReturn ∉ text := by
      simpa using h
    have hrest := ih htext
    rw [replaceReturns] at hrest ⊢
    rw [dropPaired,if_neg fun hpair => hc hpair.1.symm,List.map_cons,if_neg (Ne.symm hc),hrest]

theorem carriageReturn_notMem_replaceReturns (text : Text) :
    CodePoint.carriageReturn ∉ replaceReturns text := by
  intro hmem
  obtain ⟨c,-,hc⟩ := List.mem_map.1 hmem
  split at hc
  · exact absurd hc (by decide)
  · rename_i hne
    exact hne hc

def finishEnds : Text × Bool → Text
  | (text,held) => text ++ if held then [CodePoint.lineFeed] else []

theorem unifyFrom_cons (held : Bool) (c : CodePoint) (text : Text) : unifyFrom held (c :: text) =
    ((if held ∧ c ≠ CodePoint.lineFeed then [CodePoint.lineFeed] else []) ++
      (if c = CodePoint.carriageReturn then [] else [c]) ++
      (unifyFrom (c = CodePoint.carriageReturn) text).1,
      (unifyFrom (c = CodePoint.carriageReturn) text).2) := by
  rw [unifyFrom]
  obtain ⟨rest,holds⟩ := unifyFrom (c = CodePoint.carriageReturn) text
  simp only []
  by_cases hfeed : held ∧ c ≠ CodePoint.lineFeed
  · rw [if_pos hfeed,if_pos hfeed]
    split <;> rfl
  · rw [if_neg hfeed,if_neg hfeed]
    split <;> rfl

theorem unifyFrom_append (held : Bool) (text rest : Text) :
    unifyFrom held (text ++ rest) = ((unifyFrom held text).1 ++
      (unifyFrom (unifyFrom held text).2 rest).1,(unifyFrom (unifyFrom held text).2 rest).2) := by
  induction text generalizing held with
  | nil => rfl
  | cons c text ih =>
    rw [List.cons_append,unifyFrom_cons,unifyFrom_cons,ih]
    simp only [List.append_assoc]

theorem finishEnds_append (held : Bool) (text rest : Text) :
    finishEnds (unifyFrom held (text ++ rest)) =
      (unifyFrom held text).1 ++ finishEnds (unifyFrom (unifyFrom held text).2 rest) := by
  rw [unifyFrom_append]
  simp [finishEnds]

theorem replaceReturns_cons (c : CodePoint) (text : Text) : replaceReturns (c :: text) =
    if c = CodePoint.carriageReturn ∧ text.head? = some CodePoint.lineFeed then replaceReturns text
    else (if c = CodePoint.carriageReturn then CodePoint.lineFeed else c) :: replaceReturns text := by
  rw [replaceReturns,dropPaired]
  split <;> rfl

theorem replaceReturns_append {start : Text} (h : CodePoint.carriageReturn ∉ start) (rest : Text) :
    replaceReturns (start ++ rest) = start ++ replaceReturns rest := by
  induction start with
  | nil => rfl
  | cons c start ih =>
    obtain ⟨hc,hstart⟩ : CodePoint.carriageReturn ≠ c ∧ CodePoint.carriageReturn ∉ start := by
      simpa using h
    rw [List.cons_append,replaceReturns_cons,if_neg fun hpair => hc hpair.1.symm,
      if_neg (Ne.symm hc),ih hstart,List.cons_append]

/-- A carriage return held back counts like one in front of the text. -/
theorem finishEnds_unifyFrom (held : Bool) (text : Text) : finishEnds (unifyFrom held text) =
    replaceReturns ((if held then [CodePoint.carriageReturn] else []) ++ text) := by
  induction text generalizing held with
  | nil => cases held <;> simp [finishEnds,unifyFrom,replaceReturns,dropPaired]
  | cons c text ih =>
    have hcons : finishEnds (unifyFrom held (c :: text)) =
        (if held ∧ c ≠ CodePoint.lineFeed then [CodePoint.lineFeed] else []) ++
          (if c = CodePoint.carriageReturn then [] else [c]) ++
          finishEnds (unifyFrom (c = CodePoint.carriageReturn) text) := by
      rw [unifyFrom_cons]
      simp [finishEnds]
    rw [hcons,ih]
    have hne : CodePoint.lineFeed ≠ CodePoint.carriageReturn := by decide
    by_cases hc : c = CodePoint.carriageReturn
    · subst hc
      cases held <;> simp [replaceReturns_cons,hne.symm]
    · by_cases hfeed : c = CodePoint.lineFeed
      · subst hfeed
        cases held <;> simp [replaceReturns_cons,hne]
      · cases held <;> simp [replaceReturns_cons,hc,hfeed]

theorem unify_eq_replaceReturns (text : Text) : unify text = replaceReturns text := by
  have hfinish : unify text = finishEnds (unifyFrom false text) := by
    rw [unify]
    obtain ⟨ends,held⟩ := unifyFrom false text
    cases held <;> simp [finishEnds]
  simpa using hfinish.trans (finishEnds_unifyFrom false text)

/-! ## Lines -/

theorem breakLines_append (text rest : Text) :
    breakLines (text ++ rest) = ((breakLines text).1 ++ (breakLines ((breakLines text).2 ++ rest)).1,
      (breakLines ((breakLines text).2 ++ rest)).2) := by
  induction text with
  | nil => rfl
  | cons c text ih =>
    rw [List.cons_append,breakLines,breakLines,ih]
    by_cases hc : c = CodePoint.lineFeed
    · simp [hc]
    · cases hlines : (breakLines text).1 with
      | nil => simp [hc,hlines,breakLines]
      | cons line lines => simp [hc,hlines]

theorem linesOf_append (text rest : Text) :
    linesOf (text ++ rest) = (breakLines text).1 ++ linesOf ((breakLines text).2 ++ rest) := by
  rw [linesOf,breakLines_append,linesOf]
  simp only []
  split <;> simp

/-! ## Chunks -/

theorem flatten_chunks {size : Nat} (hsize : 0 < size) (bytes : Bytes) :
    (chunks size bytes).flatten = bytes := by
  have hfuel {fuel : Nat} {bytes : Bytes} (h : bytes.length < fuel) :
      (chunksFrom size fuel bytes).flatten = bytes := by
    induction fuel generalizing bytes with
    | zero => omega
    | succ fuel ih =>
      rw [chunksFrom]
      cases bytes with
      | nil => rfl
      | cons b bytes =>
        have hdrop : ((b :: bytes).drop size).length < fuel := by
          rw [List.length_drop]
          simp at h ⊢
          omega
        rw [if_neg (by simp),List.flatten_cons,ih hdrop,List.take_append_drop]
  exact hfuel (Nat.lt_succ_self _)

theorem ofChunks_of_decodeFrom (rest : Rest) {chunks : List Bytes} {text : Text}
    (h : Utf8.decodeFrom rest.pending 0 chunks.flatten = .ok (text,[])) :
    ofChunks rest chunks = ⟨linesOf (rest.line ++ finishEnds (unifyFrom rest.held text)),none⟩ := by
  induction chunks generalizing rest text with
  | nil =>
    obtain ⟨rfl,hpending⟩ := Prod.mk.inj (Except.ok.inj h)
    rw [ofChunks,Rest.last,hpending]
    rfl
  | cons chunk chunks ih =>
    rw [List.flatten_cons,Utf8.decodeFrom_append_eq_ok_iff] at h
    obtain ⟨before,more,after,hchunk,hchunks,rfl⟩ := h
    -- what the chunk leaves over is where the induction hypothesis goes on
    have hnext : rest.next chunk = .ok ((breakLines (rest.line ++ (unifyFrom rest.held before).1)).1,
        ⟨more,(unifyFrom rest.held before).2,
          (breakLines (rest.line ++ (unifyFrom rest.held before).1)).2⟩) := by
      rw [Rest.next,hchunk]
    rw [finishEnds_append,← List.append_assoc,linesOf_append,ofChunks,hnext]
    simp only []
    rw [ih _ hchunks]

theorem exists_decodeFrom_of_fault {rest : Rest} {chunks : List Bytes}
    (h : (ofChunks rest chunks).fault = none) :
    ∃ text, Utf8.decodeFrom rest.pending 0 chunks.flatten = .ok (text,[]) := by
  induction chunks generalizing rest with
  | nil =>
    cases hpending : rest.pending with
    | nil => exact ⟨[],rfl⟩
    | cons b pending => simp [ofChunks,Rest.last,hpending] at h
  | cons chunk chunks ih =>
    cases hchunk : Utf8.decodeFrom rest.pending 0 chunk with
    | error error => simp [ofChunks,Rest.next,hchunk] at h
    | ok result =>
      obtain ⟨before,more⟩ := result
      simp only [ofChunks,Rest.next,hchunk] at h
      obtain ⟨after,hafter⟩ := ih h
      exact ⟨before ++ after,Utf8.decodeFrom_append_eq_ok_iff.2 ⟨before,more,after,hchunk,hafter,rfl⟩⟩

/-- The lines of a file that encodes a text are those of the text in memory, once its line ends
are replaced. -/
theorem ofBytes_of_encode {text : Text} {bytes : Bytes} (h : Utf8.encode text = .ok bytes) :
    ofBytes bytes = ofText (replaceReturns text) := by
  have hflat : (chunks chunkSize bytes).flatten = bytes := flatten_chunks (by decide) bytes
  have hdecode := Utf8.decodeFrom_of_encode h 0
  rw [← hflat] at hdecode
  rw [ofBytes,ofChunks_of_decodeFrom {} hdecode,ofText,finishEnds_unifyFrom]
  simp

theorem encode_of_fault {bytes : Bytes} (h : (ofBytes bytes).fault = none) :
    ∃ text, Utf8.encode text = .ok bytes := by
  obtain ⟨text,hdecode⟩ := exists_decodeFrom_of_fault h
  rw [flatten_chunks (by decide)] at hdecode
  exact ⟨text,(Utf8.decodeFrom_eq_ok_iff 0).1 hdecode⟩

end LoadLedger.LineFeed

namespace LoadLedger.FileTree

/-- A file can be read line by line exactly if it can be read at once, and has the same lines. -/
theorem linesAt_eq_ok_iff {tree : FileTree} {path : Text} {lines : List Text} :
    tree.linesAt path = .ok lines ↔
      ∃ text, tree.textAt path = .ok text ∧ lines = LineFeed.linesOf text := by
  unfold linesAt textAt
  cases tree.contentOf path with
  | error error => simp
  | ok content =>
    simp only []
    cases hdecode : Utf8.decode content with
    | ok text =>
      have hlines := LineFeed.ofBytes_of_encode (Utf8.decode_eq_ok_iff.1 hdecode)
      simp [hlines,LineFeed.ofText,LineFeed.unify_eq_replaceReturns,eq_comm]
    | error error =>
      cases hfeed : LineFeed.ofBytes content with
      | mk found fault =>
        cases fault with
        | some fault => simp
        | none =>
          have hnone : (LineFeed.ofBytes content).fault = none := by rw [hfeed]
          obtain ⟨text,hencode⟩ := LineFeed.encode_of_fault hnone
          rw [Utf8.decode_eq_ok_iff.2 hencode] at hdecode
          cases hdecode

end LoadLedger.FileTree
