import LoadLedger.Numeral
import LoadLedger.Proofs.TextPieces
import Mathlib.Algebra.Group.Nat.Defs

/-! # Plain numerals

What is written as a number consists of digits behind at most one minus sign, and is read back as
that number as long as it has no more digits than a reader takes. However a number was spelled that
a reader took, it can be written.
-/
namespace LoadLedger.Numeral

/-- The code points of written numbers. -/
def IsPlain (c : CodePoint) : Prop := c = CodePoint.minusSign ∨ (48 ≤ c.val ∧ c.val < 58)

theorem val_ofChar (c : Char) : (CodePoint.ofChar c).val = c.toNat := rfl

theorem val_minusSign : CodePoint.minusSign.val = 45 := rfl

theorem decimal_of_mem_ofNat {n : Nat} {c : CodePoint} (h : c ∈ ofNat n) :
    48 ≤ c.val ∧ c.val < 58 := by
  obtain ⟨d,hd,rfl⟩ := List.mem_map.1 h
  have hdigit := Nat.isDigit_of_mem_toDigits (by decide) (by decide) hd
  simp only [Char.isDigit,ge_iff_le,Bool.and_eq_true,decide_eq_true_eq,UInt32.le_iff_toNat_le] at hdigit
  change 48 ≤ d.toNat ∧ d.toNat ≤ 57 at hdigit
  rw [val_ofChar]
  omega

theorem isPlain_of_mem_ofInt {n : Int} {c : CodePoint} (h : c ∈ ofInt n) : IsPlain c := by
  cases n with
  | ofNat n => exact Or.inr (decimal_of_mem_ofNat h)
  | negSucc n =>
    rcases List.mem_cons.1 h with rfl | h
    · exact Or.inl rfl
    · exact Or.inr (decimal_of_mem_ofNat h)

theorem ofNat_ne_nil (n : Nat) : ofNat n ≠ [] := by
  simp [ofNat,Nat.toDigits_ne_nil]

theorem ofInt_ne_nil (n : Int) : ofInt n ≠ [] := by
  cases n with
  | ofNat n => exact ofNat_ne_nil n
  | negSucc n => exact List.cons_ne_nil _ _

theorem IsPlain.ne {c d : CodePoint} (h : IsPlain c) (hd : d.val < 45) : c ≠ d := by
  rintro rfl
  rcases h with rfl | h
  · rw [val_minusSign] at hd
    omega
  · omega

theorem IsPlain.not_blank {c : CodePoint} (h : IsPlain c) : c.isNumeralBlank = false := by
  have hval : 45 ≤ c.val ∧ c.val < 58 := by
    rcases h with rfl | h
    · exact ⟨by decide,by decide⟩
    · omega
  simp only [CodePoint.isNumeralBlank,CodePoint.isBlank]
  grind

theorem digit?_of_decimal {c : CodePoint} (h : 48 ≤ c.val ∧ c.val < 58) :
    c.digit? = some (c.val - 48) := by
  rw [CodePoint.digit?,if_pos (by omega),if_pos h]

theorem digitValues?_map (digits : List Char) (afterDigit : Bool)
    (h : ∀ c ∈ digits, 48 ≤ c.toNat ∧ c.toNat < 58) (hne : afterDigit = true ∨ digits ≠ []) :
    digitValues? afterDigit (digits.map CodePoint.ofChar) = some (digits.map fun c => c.toNat - 48) := by
  induction digits generalizing afterDigit with
  | nil =>
    obtain rfl : afterDigit = true := hne.resolve_right (fun h => h rfl)
    rfl
  | cons c digits ih =>
    have hc := h c List.mem_cons_self
    have hrest := ih true (fun d hd => h d (List.mem_cons_of_mem _ hd)) (Or.inl rfl)
    rw [List.map_cons,digitValues?,digit?_of_decimal (by simpa only [val_ofChar] using hc)]
    simp only [hrest,val_ofChar,Option.map_some,List.map_cons]

theorem value_map (digits : List Char) :
    value (digits.map fun c => c.toNat - 48) = Nat.ofDigitChars 10 digits 0 := by
  rw [value,List.foldl_map]
  rfl

theorem digitValues?_ofNat (n : Nat) :
    ∃ digits, digitValues? false (ofNat n) = some digits ∧ value digits = n ∧
      digits.length = (Nat.toDigits 10 n).length := by
  refine ⟨_,digitValues?_map (Nat.toDigits 10 n) false ?_ (Or.inr Nat.toDigits_ne_nil),?_,by simp⟩
  · intro c hc
    have h := decimal_of_mem_ofNat (n := n) (List.mem_map_of_mem hc)
    simpa only [val_ofChar] using h
  · rw [value_map,Nat.ofDigitChars_ten_toDigits]

theorem trim_eq_self {drop : CodePoint → Bool} {text : Text} (h : ∀ c ∈ text, drop c = false) :
    text.trim drop = text := by
  have hfront : text.dropWhile drop = text := by
    cases text with
    | nil => rfl
    | cons c text => simp [h c List.mem_cons_self]
  rw [Text.trim,hfront,Text.trimEnd_eq_self (fun c hc => h c (List.mem_of_getLast? hc))]

theorem splitSign_ofNat (n : Nat) : splitSign (ofNat n) = (false,ofNat n) := by
  cases h : ofNat n with
  | nil => exact absurd h (ofNat_ne_nil n)
  | cons c rest =>
    have hc := decimal_of_mem_ofNat (n := n) (h ▸ List.mem_cons_self)
    have hminus : c ≠ CodePoint.minusSign := by
      rintro rfl
      exact absurd hc.1 (by decide)
    have hplus : c ≠ CodePoint.plusSign := by
      rintro rfl
      exact absurd hc.1 (by decide)
    rw [splitSign,if_neg hminus,if_neg hplus]

theorem read?_ofInt {n : Int} (hn : n.natAbs < 10 ^ digitLimit) : read? (ofInt n) = some n := by
  rw [read?,trim_eq_self (fun c hc => (isPlain_of_mem_ofInt hc).not_blank)]
  cases n with
  | ofNat n =>
    obtain ⟨digits,hdigits,hvalue,hlength⟩ := digitValues?_ofNat n
    have hlimit : digits.length ≤ digitLimit :=
      hlength ▸ (Nat.length_toDigits_le_iff (by decide) (by decide)).2 hn
    simp only [ofInt,splitSign_ofNat,hdigits,if_pos hlimit,hvalue]
    rfl
  | negSucc n =>
    obtain ⟨digits,hdigits,hvalue,hlength⟩ := digitValues?_ofNat (n + 1)
    have hlimit : digits.length ≤ digitLimit :=
      hlength ▸ (Nat.length_toDigits_le_iff (by decide) (by decide)).2 hn
    simp only [ofInt,splitSign,↓reduceIte,hdigits,if_pos hlimit,hvalue]
    rfl

/-! ## The size of numbers -/

theorem fits_iff {n : Int} : fits n = true ↔ n.natAbs < 10 ^ digitLimit := by
  rw [fits,decide_eq_true_iff,ofNat,List.length_map]
  exact Nat.length_toDigits_le_iff (by decide) (by decide)

theorem digit?_lt {c : CodePoint} {d : Nat} (h : c.digit? = some d) : d < 10 := by
  unfold CodePoint.digit? at h
  split at h
  · split at h
    · obtain rfl := Option.some.inj h
      omega
    · cases h
  · obtain ⟨first,hfirst,rfl⟩ := Option.map_eq_some_iff.1 h
    have hrange := List.find?_some hfirst
    simp only [Bool.and_eq_true,decide_eq_true_eq] at hrange
    omega

theorem digitValues?_lt {text : Text} {afterDigit : Bool} {digits : List Nat}
    (h : digitValues? afterDigit text = some digits) : ∀ d ∈ digits, d < 10 := by
  induction text generalizing afterDigit digits with
  | nil =>
    simp only [digitValues?] at h
    split at h
    · obtain rfl := Option.some.inj h
      simp
    · cases h
  | cons c text ih =>
    simp only [digitValues?] at h
    split at h
    · rename_i d hd
      obtain ⟨rest,hrest,rfl⟩ := Option.map_eq_some_iff.1 h
      exact List.forall_mem_cons.2 ⟨digit?_lt hd,ih hrest⟩
    · split at h
      · exact ih h
      · cases h

theorem foldl_digits_lt {digits : List Nat} (h : ∀ d ∈ digits, d < 10) (n : Nat) :
    digits.foldl (fun n d => 10 * n + d) n < (n + 1) * 10 ^ digits.length := by
  induction digits generalizing n with
  | nil => simp
  | cons d digits ih =>
    obtain ⟨hd,hrest⟩ := List.forall_mem_cons.1 h
    have hstep : 10 * n + d + 1 ≤ 10 * (n + 1) := by omega
    calc List.foldl (fun n d => 10 * n + d) (10 * n + d) digits
        < (10 * n + d + 1) * 10 ^ digits.length := ih hrest _
      _ ≤ 10 * (n + 1) * 10 ^ digits.length := Nat.mul_le_mul_right _ hstep
      _ = (n + 1) * 10 ^ (d :: digits).length := by
        rw [List.length_cons,Nat.pow_succ,Nat.mul_comm 10,Nat.mul_assoc,Nat.mul_comm 10]

theorem value_lt {digits : List Nat} (h : ∀ d ∈ digits, d < 10) :
    value digits < 10 ^ digits.length := by
  have hvalue := foldl_digits_lt h 0
  rwa [Nat.zero_add,Nat.one_mul] at hvalue

theorem natAbs_lt_of_read? {text : Text} {n : Int} (h : read? text = some n) :
    n.natAbs < 10 ^ digitLimit := by
  simp only [read?] at h
  split at h
  · cases h
  · rename_i digits hdigits
    split at h
    · rename_i hlimit
      have hvalue := value_lt (digitValues?_lt hdigits)
      have hbound := Nat.pow_le_pow_right (n := 10) (by decide) hlimit
      have hn : n.natAbs = value digits := by
        obtain rfl := Option.some.inj h
        split <;> omega
      omega
    · cases h

end LoadLedger.Numeral
