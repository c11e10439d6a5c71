/-! # Texts as sequences of code points

A name taken from a file system or a command line may hold a lone surrogate, so a text is a list
of code points rather than a `String`. Texts are compared code point by code point.
-/
namespace LoadLedger

/-- A Unicode code point, surrogates included. -/
abbrev CodePoint := Fin 0x110000

abbrev Text := List CodePoint

namespace CodePoint

def ofChar (c : Char) : CodePoint := ⟨c.val.toNat, by
  have h := c.valid
  unfold UInt32.isValidChar Nat.isValidChar at h
  omega⟩

def IsSurrogate (c : CodePoint) : Prop := 0xD800 ≤ c.val ∧ c.val < 0xE000

instance (c : CodePoint) : Decidable (IsSurrogate c) := by
  unfold IsSurrogate; infer_instance

/-- The code point with the given number; numbers past the last code point wrap. -/
def ofNat (n : Nat) : CodePoint := Fin.ofNat 0x110000 n

instance (n : Nat) : OfNat CodePoint n := ⟨ofNat n⟩

def lineFeed : CodePoint := 10
def carriageReturn : CodePoint := 13
def space : CodePoint := 32
def doubleQuote : CodePoint := 34
def numberSign : CodePoint := 35
def dollarSign : CodePoint := 36
def singleQuote : CodePoint := 39
def plusSign : CodePoint := 43
def comma : CodePoint := 44
def minusSign : CodePoint := 45
def point : CodePoint := 46
def slash : CodePoint := 47
def digitZero : CodePoint := 48
def colon : CodePoint := 58
def equalsSign : CodePoint := 61
def backslash : CodePoint := 92
def underscore : CodePoint := 95
def openBrace : CodePoint := 123
def closeBrace : CodePoint := 125
def byteOrderMark : CodePoint := 0xFEFF

end CodePoint

namespace Text

def ofString (s : String) : Text := s.toList.map CodePoint.ofChar

instance : Coe String Text := ⟨ofString⟩

/-- The order of texts: at the first difference the smaller code point comes first, and a text comes
before its own continuations. -/
def before : Text → Text → Bool
  | _, [] => false
  | [], _ :: _ => true
  | a :: s, b :: t => if a.val = b.val then before s t else decide (a.val < b.val)

/-- The pieces between separators; a text without separator is its own only piece. -/
def split (sep : CodePoint) : Text → List Text
  | [] => [[]]
  | c :: rest =>
    if c = sep then [] :: split sep rest
    else match split sep rest with
      | [] => [[c]]
      | piece :: pieces => (c :: piece) :: pieces

def join (sep : Text) : List Text → Text
  | [] => []
  | [piece] => piece
  | piece :: pieces => piece ++ sep ++ join sep pieces

def dropStart? : (text start : Text) → Option Text
  | text, [] => some text
  | [], _ :: _ => none
  | c :: text, a :: start => if c = a then dropStart? text start else none

def startsWith (text start : Text) : Bool := (dropStart? text start).isSome

def trimEnd (drop : CodePoint → Bool) (text : Text) : Text :=
  (text.reverse.dropWhile drop).reverse

def trim (drop : CodePoint → Bool) (text : Text) : Text :=
  trimEnd drop (text.dropWhile drop)

def cut (sep : CodePoint) : Text → Text × Option Text
  | [] => ([], none)
  | c :: rest =>
    if c = sep then ([], some rest)
    else let (before, after) := cut sep rest; (c :: before, after)

def spaces (n : Nat) : Text := List.replicate n CodePoint.space

theorem before_irrefl (s : Text) : before s s = false := by
  induction s with
  | nil => rfl
  | cons a s ih => simpa [before] using ih

theorem before_trans {s t u : Text} (hst : before s t = true) (htu : before t u = true) :
    before s u = true := by
  induction s generalizing t u with
  | nil => cases t <;> cases u <;> simp_all [before]
  | cons a s ih =>
    cases t with
    | nil => simp [before] at hst
    | cons b t =>
      cases u with
      | nil => simp [before] at htu
      | cons c u =>
        simp only [before] at hst htu ⊢
        split at hst <;> split at htu <;> split <;> simp_all
        · exact ih hst htu
        · omega
        · omega

theorem eq_of_not_before {s t : Text} (hst : before s t = false) (hts : before t s = false) :
    s = t := by
  induction s generalizing t with
  | nil => cases t <;> simp_all [before]
  | cons a s ih =>
    cases t with
    | nil => simp [before] at hts
    | cons b t =>
      simp only [before] at hst hts
      split at hst
      · rename_i hab
        rw [if_pos hab.symm] at hts
        rw [Fin.eq_of_val_eq hab, ih hst hts]
      · rename_i hab
        rw [if_neg fun h => hab h.symm] at hts
        simp at hst hts
        omega

theorem split_ne_nil (sep : CodePoint) (text : Text) : split sep text ≠ [] := by
  cases text with
  | nil => simp [split]
  | cons c rest =>
    unfold split
    split
    · simp
    · split <;> simp

end Text
end LoadLedger
