import LoadLedger.Text.Escape
import LoadLedger.Numeral

/-! # UTF-8

Decoding takes one byte at a time and keeps the bytes of an unfinished code point, so it can stop
between any two bytes and go on later. It refuses overlong forms and surrogates. Encoding refuses
surrogates too.
-/
namespace LoadLedger

abbrev Bytes := List UInt8

namespace Utf8

inductive Fault
  | invalidStart
  | invalidContinuation
  | unexpectedEnd
  deriving DecidableEq

def Fault.message : Fault → Text
  | .invalidStart => "invalid start byte"
  | .invalidContinuation => "invalid continuation byte"
  | .unexpectedEnd => "unexpected end of data"

/-- The bytes that cannot be decoded: where they begin, how many they are, and the first of them. -/
structure DecodeError where
  fault : Fault
  position : Nat
  length : Nat
  first : UInt8
  deriving DecidableEq

structure EncodeError where
  position : Nat
  length : Nat
  first : CodePoint
  deriving DecidableEq

def place (single : Text) (many : Text) (position length : Nat) : Text :=
  if length ≤ 1 then single ++ " in position " ++ Numeral.ofNat position
  else many ++ " in position " ++ Numeral.ofNat position ++ "-" ++
    Numeral.ofNat (position + length - 1)

def DecodeError.message (error : DecodeError) : Text :=
  "'utf-8' codec can't decode " ++
    place ("byte 0x" ++ Text.hex 2 error.first.toNat) "bytes" error.position error.length ++
    ": " ++ error.fault.message

def EncodeError.message (error : EncodeError) : Text :=
  "'utf-8' codec can't encode " ++
    place ("character '" ++ Text.escapeByWidth error.first ++ "'") "characters"
      error.position error.length ++
    ": surrogates not allowed"

def isContinuation (b : UInt8) : Bool := 0x80 ≤ b && b < 0xC0

/-- Whether `second` can follow the first byte of a sequence. After E0, F0 and F4 only part of the
continuation bytes keep the code point within the range of its length; surrogates, which begin with
ED, are refused one byte later. -/
def canFollow (first second : UInt8) : Bool :=
  if first = 0xE0 then 0xA0 ≤ second && second < 0xC0
  else if first = 0xF0 then 0x90 ≤ second && second < 0xC0
  else if first = 0xF4 then 0x80 ≤ second && second < 0x90
  else isContinuation second

def payload (b : UInt8) : Nat := b.toNat % 64

inductive Step
  | wait (pending : Bytes)
  | emit (c : CodePoint)
  | fail (fault : Fault) (length : Nat)

/-- What a byte does after the bytes of an unfinished code point. -/
def step : (pending : Bytes) → UInt8 → Step
  | [], b =>
    if b < 0x80 then .emit (CodePoint.ofNat b.toNat)
    else if 0xC2 ≤ b && b < 0xF5 then .wait [b]
    else .fail .invalidStart 1
  | [a], b =>
    if canFollow a b then
      if a < 0xE0 then .emit (CodePoint.ofNat (a.toNat % 32 * 64 + payload b)) else .wait [a, b]
    else .fail .invalidContinuation 1
  | [a, b], c =>
    if a = 0xED ∧ 0xA0 ≤ b then .fail .invalidContinuation 1
    else if isContinuation c then
      if a < 0xF0 then
        .emit (CodePoint.ofNat ((a.toNat % 16 * 64 + payload b) * 64 + payload c))
      else .wait [a, b, c]
    else .fail .invalidContinuation 2
  | a :: b :: c :: _, d =>
    if isContinuation d then
      .emit (CodePoint.ofNat (((a.toNat % 8 * 64 + payload b) * 64 + payload c) * 64 + payload d))
    else .fail .invalidContinuation 3

/-- Decodes as far as the bytes go: the text, and the bytes of the code point left unfinished. The
unfinished code point handed in began at `start`. -/
def decodeFrom (pending : Bytes) (start : Nat) : Bytes → Except DecodeError (Text × Bytes)
  | [] => .ok ([], pending)
  | b :: rest =>
    match step pending b with
    | .wait more => decodeFrom more start rest
    | .emit c =>
      match decodeFrom [] (start + pending.length + 1) rest with
      | .ok (text, left) => .ok (c :: text, left)
      | .error error => .error error
    | .fail fault length => .error ⟨fault, start, length, pending.headD b⟩

def cutOff (pending : Bytes) (start : Nat) : DecodeError :=
  match pending with
  | [a, b] =>
    if a = 0xED ∧ 0xA0 ≤ b then ⟨.invalidContinuation, start, 1, a⟩
    else ⟨.unexpectedEnd, start, 2, a⟩
  | pending => ⟨.unexpectedEnd, start, pending.length, pending.headD 0⟩

def decode (bytes : Bytes) : Except DecodeError Text :=
  match decodeFrom [] 0 bytes with
  | .ok (text, []) => .ok text
  | .ok (_, pending) => .error (cutOff pending (bytes.length - pending.length))
  | .error error => .error error

def withoutMark : Text → Text
  | [] => []
  | c :: rest => if c = CodePoint.byteOrderMark then rest else c :: rest

/-- The form of a code point; a surrogate gets the form its number would have. -/
def encodePoint (c : CodePoint) : Bytes :=
  let n := c.val
  if n < 0x80 then [UInt8.ofNat n]
  else if n < 0x800 then [UInt8.ofNat (0xC0 + n / 64), UInt8.ofNat (0x80 + n % 64)]
  else if n < 0x10000 then
    [UInt8.ofNat (0xE0 + n / 4096), UInt8.ofNat (0x80 + n / 64 % 64), UInt8.ofNat (0x80 + n % 64)]
  else
    [UInt8.ofNat (0xF0 + n / 262144), UInt8.ofNat (0x80 + n / 4096 % 64),
      UInt8.ofNat (0x80 + n / 64 % 64), UInt8.ofNat (0x80 + n % 64)]

/-- The first run of code points without a form, in a text whose first code point is at
`position`. -/
def firstFailure? (fails : CodePoint → Bool) (position : Nat) : Text → Option EncodeError
  | [] => none
  | c :: rest =>
    if fails c then some ⟨position, (rest.takeWhile fails).length + 1, c⟩
    else firstFailure? fails (position + 1) rest

def encode (text : Text) : Except EncodeError Bytes :=
  match firstFailure? (fun c => c.IsSurrogate) 0 text with
  | some error => .error error
  | none => .ok (text.flatMap encodePoint)

/-- The surrogates U+DC80 to U+DCFF stand for the bytes 80 to FF in names that are not UTF-8. -/
def standsForByte (c : CodePoint) : Bool := 0xDC80 ≤ c.val && c.val < 0xDD00

def encodeName (text : Text) : Except EncodeError Bytes :=
  match firstFailure? (fun c => c.IsSurrogate && !standsForByte c) 0 text with
  | some error => .error error
  | none => .ok (text.flatMap fun c =>
      if standsForByte c then [UInt8.ofNat (c.val - 0xDC00)] else encodePoint c)

def byteName (b : UInt8) : CodePoint := CodePoint.ofNat (0xDC00 + b.toNat)

/-- Decodes with each byte that cannot be decoded kept as the surrogate that stands for it. The
fuel bounds the number of such bytes. -/
def decodeNameFrom : (fuel : Nat) → Bytes → Text
  | 0, _ => []
  | fuel + 1, bytes =>
    match decodeFrom [] 0 bytes with
    | .ok (text, []) => text
    | .ok (text, pending) =>
      text ++ pending.map byteName
    | .error error =>
      let good := match decodeFrom [] 0 (bytes.take error.position) with
        | .ok (text, _) => text
        | .error _ => []
      let bad := (bytes.drop error.position).take error.length
      good ++ bad.map byteName ++ decodeNameFrom fuel (bytes.drop (error.position + error.length))

def decodeName (bytes : Bytes) : Text := decodeNameFrom (bytes.length + 1) bytes

end Utf8
end LoadLedger
