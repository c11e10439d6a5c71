import LoadLedger.Utf8

/-! # Decoding undoes encoding

The bytes kept between two steps of the decoder begin the form of a code point, so what it emits is
a code point whose form it has just read. Bytes are therefore decoded exactly if they are the
encoding of a text. Where decoding starts and stops matters for the positions in errors only.
-/
namespace LoadLedger.Utf8

/-! ## Single bytes as numbers -/

theorem isContinuation_iff {b : UInt8} : isContinuation b = true ↔ 128 ≤ b.toNat ∧ b.toNat < 192 := by
  simp [isContinuation,UInt8.le_iff_toNat_le,UInt8.lt_iff_toNat_lt]

theorem canFollow_iff {a b : UInt8} : canFollow a b = true ↔ 128 ≤ b.toNat ∧ b.toNat < 192 ∧
    (a.toNat = 224 → 160 ≤ b.toNat) ∧ (a.toNat = 240 → 144 ≤ b.toNat) ∧
    (a.toNat = 244 → b.toNat < 144) := by
  unfold canFollow
  simp only [← UInt8.toNat_inj]
  repeat' split
  all_goals
    simp_all [isContinuation_iff,UInt8.le_iff_toNat_le,UInt8.lt_iff_toNat_lt]
    try omega

theorem val_ofNat {n : Nat} (h : n < 0x110000) : (CodePoint.ofNat n).val = n := Nat.mod_eq_of_lt h

def Unfinished : Bytes → Prop
  | [] => True
  | [a] => 194 ≤ a.toNat ∧ a.toNat < 245
  | [a,b] => 224 ≤ a.toNat ∧ a.toNat < 245 ∧ canFollow a b
  | [a,b,c] => 240 ≤ a.toNat ∧ a.toNat < 245 ∧ canFollow a b ∧ isContinuation c
  | _ => False

theorem unfinished_nil : Unfinished [] := trivial

theorem unfinished_of_step {pending more : Bytes} {b : UInt8} (h : Unfinished pending)
    (hstep : step pending b = .wait more) : more = pending ++ [b] ∧ Unfinished more := by
  match pending,h with
  | [],_ =>
    simp only [step] at hstep
    split at hstep
    · cases hstep
    · split at hstep
      · rename_i hb
        obtain rfl := Step.wait.inj hstep
        simp [UInt8.le_iff_toNat_le,UInt8.lt_iff_toNat_lt] at hb
        exact ⟨rfl,hb⟩
      · cases hstep
  | [a],h =>
    simp only [step] at hstep
    split at hstep
    · rename_i hfollow
      split at hstep
      · cases hstep
      · rename_i ha
        obtain rfl := Step.wait.inj hstep
        simp [UInt8.lt_iff_toNat_lt] at ha
        exact ⟨rfl,by omega,h.2,hfollow⟩
    · cases hstep
  | [a,b],h =>
    simp only [step] at hstep
    split at hstep
    · cases hstep
    · split at hstep
      · rename_i hc
        split at hstep
        · cases hstep
        · rename_i ha
          obtain rfl := Step.wait.inj hstep
          simp [UInt8.lt_iff_toNat_lt] at ha
          exact ⟨rfl,by omega,h.2.1,h.2.2,hc⟩
      · cases hstep
  | [a,b,c],h =>
    simp only [step] at hstep
    split at hstep <;> cases hstep

theorem encodePoint_two {c : CodePoint} (h : 0x80 ≤ c.val) (h' : c.val < 0x800) :
    encodePoint c = [UInt8.ofNat (0xC0 + c.val / 64),UInt8.ofNat (0x80 + c.val % 64)] := by
  unfold encodePoint
  rw [if_neg (by omega),if_pos h']

theorem encodePoint_three {c : CodePoint} (h : 0x800 ≤ c.val) (h' : c.val < 0x10000) :
    encodePoint c = [UInt8.ofNat (0xE0 + c.val / 4096),UInt8.ofNat (0x80 + c.val / 64 % 64),
      UInt8.ofNat (0x80 + c.val % 64)] := by
  unfold encodePoint
  rw [if_neg (by omega),if_neg (by omega),if_pos h']

theorem encodePoint_four {c : CodePoint} (h : 0x10000 ≤ c.val) :
    encodePoint c = [UInt8.ofNat (0xF0 + c.val / 262144),UInt8.ofNat (0x80 + c.val / 4096 % 64),
      UInt8.ofNat (0x80 + c.val / 64 % 64),UInt8.ofNat (0x80 + c.val % 64)] := by
  unfold encodePoint
  rw [if_neg (by omega),if_neg (by omega),if_neg (by omega)]

/-! ## What a step emits -/

theorem emit_first {a : UInt8} {c : CodePoint} (hstep : step [] a = .emit c) :
    encodePoint c = [a] ∧ ¬c.IsSurrogate := by
  simp only [step] at hstep
  split at hstep
  · rename_i ha
    obtain rfl := Step.emit.inj hstep
    simp [UInt8.lt_iff_toNat_lt] at ha
    have hval := val_ofNat (n := a.toNat) (by omega)
    simp [encodePoint,CodePoint.IsSurrogate,hval,ha]
    omega
  · split at hstep <;> cases hstep

theorem emit_second {a b : UInt8} {c : CodePoint} (h : Unfinished [a])
    (hstep : step [a] b = .emit c) : encodePoint c = [a,b] ∧ ¬c.IsSurrogate := by
  simp only [step,payload] at hstep
  split at hstep
  · rename_i hfollow
    split at hstep
    · rename_i ha
      obtain rfl := Step.emit.inj hstep
      simp [UInt8.lt_iff_toNat_lt] at ha
      obtain ⟨hlow,-⟩ := h
      obtain ⟨hb,hb',-⟩ := canFollow_iff.1 hfollow
      have hval := val_ofNat (n := a.toNat % 32 * 64 + b.toNat % 64) (by omega)
      rw [encodePoint_two (by omega) (by omega),CodePoint.IsSurrogate]
      refine ⟨?_,by omega⟩
      simp only [List.cons.injEq,← UInt8.toNat_inj,UInt8.toNat_ofNat',and_true]
      omega
    · cases hstep
  · cases hstep

theorem emit_third {a a' b : UInt8} {c : CodePoint} (h : Unfinished [a,a'])
    (hstep : step [a,a'] b = .emit c) : encodePoint c = [a,a',b] ∧ ¬c.IsSurrogate := by
  simp only [step,payload] at hstep
  split at hstep
  · cases hstep
  · rename_i hsurrogate
    split at hstep
    · rename_i hb
      split at hstep
      · rename_i ha
        obtain rfl := Step.emit.inj hstep
        simp only [← UInt8.toNat_inj,UInt8.le_iff_toNat_le] at hsurrogate
        simp [UInt8.lt_iff_toNat_lt] at ha hsurrogate
        obtain ⟨hlow,-,hfollow⟩ := h
        obtain ⟨ha',ha'',hthree,-,-⟩ := canFollow_iff.1 hfollow
        obtain ⟨hb,hb'⟩ := isContinuation_iff.1 hb
        have hval := val_ofNat (n := (a.toNat % 16 * 64 + a'.toNat % 64) * 64 + b.toNat % 64)
          (by omega)
        rw [encodePoint_three (by omega) (by omega),CodePoint.IsSurrogate]
        refine ⟨?_,by omega⟩
        simp only [List.cons.injEq,← UInt8.toNat_inj,UInt8.toNat_ofNat',and_true]
        omega
      · cases hstep
    · cases hstep

theorem emit_fourth {a a' a'' b : UInt8} {c : CodePoint} (h : Unfinished [a,a',a''])
    (hstep : step [a,a',a''] b = .emit c) : encodePoint c = [a,a',a'',b] ∧ ¬c.IsSurrogate := by
  simp only [step,payload] at hstep
  split at hstep
  · rename_i hb
    obtain rfl := Step.emit.inj hstep
    obtain ⟨hlow,hhigh,hfollow,hthird⟩ := h
    obtain ⟨ha,ha',-,hfour,hlast⟩ := canFollow_iff.1 hfollow
    obtain ⟨hc,hc'⟩ := isContinuation_iff.1 hthird
    obtain ⟨hb,hb'⟩ := isContinuation_iff.1 hb
    have hval := val_ofNat
      (n := ((a.toNat % 8 * 64 + a'.toNat % 64) * 64 + a''.toNat % 64) * 64 + b.toNat % 64) (by omega)
    rw [encodePoint_four (by omega),CodePoint.IsSurrogate]
    refine ⟨?_,by omega⟩
    simp only [List.cons.injEq,← UInt8.toNat_inj,UInt8.toNat_ofNat',and_true]
    omega
  · cases hstep

/-- What is emitted is no surrogate, and the bytes just read are its form. -/
theorem encodePoint_of_step {pending : Bytes} {b : UInt8} {c : CodePoint} (h : Unfinished pending)
    (hstep : step pending b = .emit c) : encodePoint c = pending ++ [b] ∧ ¬c.IsSurrogate := by
  match pending,h with
  | [],_ => exact emit_first hstep
  | [_],h => exact emit_second h hstep
  | [_,_],h => exact emit_third h hstep
  | [_,_,_],h => exact emit_fourth h hstep

theorem ofNat_eq {c : CodePoint} {n : Nat} (h : n = c.val) : CodePoint.ofNat n = c := by
  apply Fin.ext
  rw [h]
  exact val_ofNat c.isLt

theorem step_start {a : UInt8} (h : 194 ≤ a.toNat) (h' : a.toNat < 245) : step [] a = .wait [a] := by
  simp [step,UInt8.le_iff_toNat_le,UInt8.lt_iff_toNat_lt,h,h']
  omega

theorem step_second {a b : UInt8} (h : 224 ≤ a.toNat) (hfollow : canFollow a b) :
    step [a] b = .wait [a,b] := by
  simp [step,UInt8.lt_iff_toNat_lt,hfollow]
  omega

theorem step_third {a b c : UInt8} (h : 240 ≤ a.toNat) (hc : isContinuation c) :
    step [a,b] c = .wait [a,b,c] := by
  simp only [step,UInt8.lt_iff_toNat_lt,← UInt8.toNat_inj]
  rw [if_neg (by simp; omega),if_pos hc,if_neg (by simp; omega)]

/-! ## Where decoding starts and stops -/

theorem decodeFrom_of_start {pending : Bytes} {start : Nat} {bytes : Bytes} {result : Text × Bytes}
    (h : decodeFrom pending start bytes = .ok result) (other : Nat) :
    decodeFrom pending other bytes = .ok result := by
  induction bytes generalizing pending start other result with
  | nil => exact h
  | cons b bytes ih =>
    simp only [decodeFrom] at h ⊢
    cases hstep : step pending b with
    | wait more =>
      rw [hstep] at h
      exact ih h other
    | emit c =>
      simp only [hstep] at h ⊢
      cases hrest : decodeFrom [] (start + pending.length + 1) bytes with
      | error error => rw [hrest] at h; cases h
      | ok rest =>
        rw [hrest] at h
        rw [ih hrest]
        exact h
    | fail fault length => rw [hstep] at h; cases h

theorem decodeFrom_append_eq_ok_iff {pending front bytes left : Bytes} {start : Nat} {text : Text} :
    decodeFrom pending start (front ++ bytes) = .ok (text,left) ↔ ∃ before more after,
      decodeFrom pending start front = .ok (before,more) ∧
      decodeFrom more 0 bytes = .ok (after,left) ∧ text = before ++ after := by
  induction front generalizing pending start text with
  | nil =>
    simp only [List.nil_append,decodeFrom,Except.ok.injEq,Prod.mk.injEq]
    constructor
    · intro h
      exact ⟨[],pending,text,⟨rfl,rfl⟩,decodeFrom_of_start h 0,rfl⟩
    · rintro ⟨_,_,after,⟨rfl,rfl⟩,h,rfl⟩
      exact decodeFrom_of_start h start
  | cons b front ih =>
    rw [List.cons_append,decodeFrom,decodeFrom]
    cases step pending b with
    | wait more => exact ih
    | fail fault length => simp
    | emit c =>
      simp only []
      constructor
      · intro h
        split at h
        · rename_i rest left' hrest
          obtain ⟨rfl,rfl⟩ := Prod.mk.inj (Except.ok.inj h)
          obtain ⟨before,more,after,hfront,hbytes,rfl⟩ := ih.1 hrest
          exact ⟨c :: before,more,after,by rw [hfront],hbytes,rfl⟩
        · cases h
      · rintro ⟨_,more,after,hfront,hbytes,rfl⟩
        split at hfront
        · rename_i before more' hbefore
          obtain ⟨rfl,rfl⟩ := Prod.mk.inj (Except.ok.inj hfront)
          rw [ih.2 ⟨before,_,after,hbefore,hbytes,rfl⟩]
          rfl
        · cases hfront

/-- All bytes of the form of a code point but the last make the decoder wait, and the last one
brings it out. -/
def Emerges (c : CodePoint) : Prop := ∃ pending b,
  encodePoint c = pending ++ [b] ∧ step pending b = .emit c ∧
  ∀ start rest, decodeFrom [] start (pending ++ rest) = decodeFrom pending start rest

theorem toNat_ofNat {n : Nat} (h : n < 256) : (UInt8.ofNat n).toNat = n := UInt8.toNat_ofNat_of_lt' h

theorem emerges_one {c : CodePoint} (h : c.val < 0x80) : Emerges c := by
  have ha := toNat_ofNat (n := c.val) (by omega)
  refine ⟨[],_,if_pos h,?_,fun _ _ => rfl⟩
  simp only [step,UInt8.lt_iff_toNat_lt,ha]
  rw [if_pos (by simpa using h),ofNat_eq rfl]

theorem emerges_two {c : CodePoint} (h : 0x80 ≤ c.val) (h' : c.val < 0x800) : Emerges c := by
  have ha := toNat_ofNat (n := 0xC0 + c.val / 64) (by omega)
  have hb := toNat_ofNat (n := 0x80 + c.val % 64) (by omega)
  have hfollow : canFollow (UInt8.ofNat (0xC0 + c.val / 64)) (UInt8.ofNat (0x80 + c.val % 64)) :=
    canFollow_iff.2 (by omega)
  refine ⟨[_],_,encodePoint_two h h',?_,fun _ _ => ?_⟩
  · simp only [step,UInt8.lt_iff_toNat_lt,ha,payload,hb]
    rw [if_pos hfollow,if_pos (by simp; omega),ofNat_eq (c := c) (by omega)]
  · simp only [List.cons_append,List.nil_append,decodeFrom]
    rw [step_start (by omega) (by omega)]

theorem emerges_three {c : CodePoint} (hc : ¬c.IsSurrogate) (h : 0x800 ≤ c.val)
    (h' : c.val < 0x10000) : Emerges c := by
  unfold CodePoint.IsSurrogate at hc
  have ha := toNat_ofNat (n := 0xE0 + c.val / 4096) (by omega)
  have ha' := toNat_ofNat (n := 0x80 + c.val / 64 % 64) (by omega)
  have hb := toNat_ofNat (n := 0x80 + c.val % 64) (by omega)
  have hfollow : canFollow (UInt8.ofNat (0xE0 + c.val / 4096))
      (UInt8.ofNat (0x80 + c.val / 64 % 64)) := canFollow_iff.2 (by omega)
  refine ⟨[_,_],_,encodePoint_three h h',?_,fun _ _ => ?_⟩
  · simp only [step,UInt8.le_iff_toNat_le,UInt8.lt_iff_toNat_lt,← UInt8.toNat_inj,ha,ha',payload,hb]
    rw [if_neg (by simp; omega),if_pos (isContinuation_iff.2 (by omega)),if_pos (by simp; omega),
      ofNat_eq (c := c) (by omega)]
  · simp only [List.cons_append,List.nil_append,decodeFrom]
    rw [step_start (by omega) (by omega)]
    simp only []
    rw [step_second (by omega) hfollow]

theorem emerges_four {c : CodePoint} (h : 0x10000 ≤ c.val) : Emerges c := by
  have hbound := c.isLt
  have ha := toNat_ofNat (n := 0xF0 + c.val / 262144) (by omega)
  have ha' := toNat_ofNat (n := 0x80 + c.val / 4096 % 64) (by omega)
  have ha'' := toNat_ofNat (n := 0x80 + c.val / 64 % 64) (by omega)
  have hb := toNat_ofNat (n := 0x80 + c.val % 64) (by omega)
  have hfollow : canFollow (UInt8.ofNat (0xF0 + c.val / 262144))
      (UInt8.ofNat (0x80 + c.val / 4096 % 64)) := canFollow_iff.2 (by omega)
  have hthird : isContinuation (UInt8.ofNat (0x80 + c.val / 64 % 64)) :=
    isContinuation_iff.2 (by omega)
  refine ⟨[_,_,_],_,encodePoint_four h,?_,fun _ _ => ?_⟩
  · simp only [step,ha,ha',ha'',payload,hb]
    rw [if_pos (isContinuation_iff.2 (by omega)),ofNat_eq (c := c) (by omega)]
  · simp only [List.cons_append,List.nil_append,decodeFrom]
    rw [step_start (by omega) (by omega)]
    simp only []
    rw [step_second (by omega) hfollow]
    simp only []
    rw [step_third (by omega) hthird]

theorem emerges {c : CodePoint} (hc : ¬c.IsSurrogate) : Emerges c := by
  by_cases h1 : c.val < 0x80
  · exact emerges_one h1
  by_cases h2 : c.val < 0x800
  · exact emerges_two (Nat.le_of_not_lt h1) h2
  by_cases h3 : c.val < 0x10000
  · exact emerges_three hc (Nat.le_of_not_lt h2) h3
  · exact emerges_four (Nat.le_of_not_lt h3)

theorem decodeFrom_encodePoint {c : CodePoint} (hc : ¬c.IsSurrogate) {bytes : Bytes} {text : Text}
    {left : Bytes} {start : Nat} (h : decodeFrom [] start bytes = .ok (text,left)) (other : Nat) :
    decodeFrom [] other (encodePoint c ++ bytes) = .ok (c :: text,left) := by
  obtain ⟨pending,b,hform,hemit,hwait⟩ := emerges hc
  rw [hform,List.append_assoc,hwait,List.singleton_append,decodeFrom,hemit]
  simp only []
  rw [decodeFrom_of_start h]

/-! ## Encoding a text -/

theorem firstFailure?_eq_none_iff {fails : CodePoint → Bool} {position : Nat} {text : Text} :
    firstFailure? fails position text = none ↔ ∀ c ∈ text, fails c = false := by
  induction text generalizing position with
  | nil => simp [firstFailure?]
  | cons c text ih =>
    rw [firstFailure?]
    cases hc : fails c <;> simp [hc,ih]

theorem encode_eq_ok_iff {text : Text} {bytes : Bytes} : encode text = .ok bytes ↔
    (∀ c ∈ text, ¬c.IsSurrogate) ∧ bytes = text.flatMap encodePoint := by
  unfold encode
  cases hfirst : firstFailure? (fun c => c.IsSurrogate) 0 text with
  | some error =>
    have hsome := mt firstFailure?_eq_none_iff.2 (by rw [hfirst]; simp)
    constructor
    · intro h
      cases h
    · intro h
      exact absurd (fun c hc => by simpa using h.1 c hc) hsome
  | none =>
    have hnone := firstFailure?_eq_none_iff.1 hfirst
    constructor
    · intro h
      exact ⟨fun c hc => by simpa using hnone c hc,(Except.ok.inj h).symm⟩
    · rintro ⟨-,rfl⟩
      rfl

/-- A text without surrogates. -/
def Encodable (text : Text) : Prop := ∀ c ∈ text, ¬c.IsSurrogate

instance (text : Text) : Decidable (Encodable text) :=
  List.decidableBAll (fun c : CodePoint => ¬c.IsSurrogate) text

theorem Encodable.encode {text : Text} (h : Encodable text) :
    ∃ bytes, Utf8.encode text = .ok bytes := ⟨_,encode_eq_ok_iff.2 ⟨h,rfl⟩⟩

theorem encode_singleton {c : CodePoint} (hc : ¬c.IsSurrogate) :
    encode [c] = .ok (encodePoint c) :=
  encode_eq_ok_iff.2 ⟨by simpa using hc,by simp⟩

theorem encode_append {text rest : Text} {bytes restBytes : Bytes} (h : encode text = .ok bytes)
    (hrest : encode rest = .ok restBytes) : encode (text ++ rest) = .ok (bytes ++ restBytes) := by
  obtain ⟨htext,rfl⟩ := encode_eq_ok_iff.1 h
  obtain ⟨hafter,rfl⟩ := encode_eq_ok_iff.1 hrest
  refine encode_eq_ok_iff.2 ⟨?_,by rw [List.flatMap_append]⟩
  intro c hc
  rcases List.mem_append.1 hc with hc | hc
  · exact htext c hc
  · exact hafter c hc

/-! ## Decoding undoes encoding -/

theorem encode_of_decodeFrom {pending : Bytes} (hpending : Unfinished pending) {start : Nat}
    {bytes : Bytes} {text : Text} (h : decodeFrom pending start bytes = .ok (text,[])) :
    encode text = .ok (pending ++ bytes) := by
  -- the bytes kept are part of what is encoded, so they vary with the induction
  induction bytes generalizing pending start text with
  | nil =>
    obtain ⟨rfl,rfl⟩ := Prod.mk.inj (Except.ok.inj h)
    rfl
  | cons b bytes ih =>
    rw [decodeFrom] at h
    cases hstep : step pending b with
    | wait more =>
      rw [hstep] at h
      obtain ⟨rfl,hmore⟩ := unfinished_of_step hpending hstep
      simpa using ih hmore h
    | emit c =>
      rw [hstep] at h
      obtain ⟨hform,hc⟩ := encodePoint_of_step hpending hstep
      cases hrest : decodeFrom [] (start + pending.length + 1) bytes with
      | error error => simp [hrest] at h
      | ok rest =>
        obtain ⟨rest,left⟩ := rest
        simp only [hrest,Except.ok.injEq,Prod.mk.injEq] at h
        obtain ⟨rfl,rfl⟩ := h
        have hencode := encode_append (encode_singleton hc) (ih unfinished_nil hrest)
        simpa [hform] using hencode
    | fail fault length => simp [hstep] at h

theorem decodeFrom_of_encode {text : Text} {bytes : Bytes} (h : encode text = .ok bytes)
    (start : Nat) : decodeFrom [] start bytes = .ok (text,[]) := by
  obtain ⟨htext,rfl⟩ := encode_eq_ok_iff.1 h
  clear h
  induction text with
  | nil => rfl
  | cons c text ih =>
    have hrest := ih fun d hd => htext d (List.mem_cons_of_mem c hd)
    rw [List.flatMap_cons]
    exact decodeFrom_encodePoint (htext c List.mem_cons_self) hrest start

/-- Bytes are decoded to their end exactly if they encode the text that comes out. -/
theorem decodeFrom_eq_ok_iff (start : Nat) {bytes : Bytes} {text : Text} :
    decodeFrom [] start bytes = .ok (text,[]) ↔ encode text = .ok bytes :=
  ⟨encode_of_decodeFrom unfinished_nil,fun h => decodeFrom_of_encode h start⟩

theorem decode_eq_ok_iff {bytes : Bytes} {text : Text} :
    decode bytes = .ok text ↔ encode text = .ok bytes := by
  rw [← decodeFrom_eq_ok_iff 0,decode]
  cases hdecode : decodeFrom [] 0 bytes with
  | error error => simp
  | ok result =>
    obtain ⟨found,left⟩ := result
    cases left <;> simp

end LoadLedger.Utf8
