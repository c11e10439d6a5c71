import LoadLedger.Utf8

/-! # Lines of a file

A file is read in chunks of 8192 bytes. Each chunk is decoded and its line ends are made line feeds;
a line is delivered as soon as its end is known, so the lines in front of a byte that cannot be
decoded are delivered first. What a chunk boundary cuts in two, a code point or the pair of carriage
return and line feed, is kept for the next chunk.
-/
namespace LoadLedger

/-- The lines of a text, each with its line feed; the last one may lack it. -/
structure LineFeed where
  lines : List Text
  fault : Option Utf8.DecodeError
  deriving DecidableEq

namespace LineFeed

/-- The complete lines of a text, and what follows the last line feed. -/
def breakLines : Text → List Text × Text
  | [] => ([], [])
  | c :: rest =>
    let (lines, last) := breakLines rest
    if c = CodePoint.lineFeed then ([c] :: lines, last)
    else match lines with
      | [] => ([], c :: last)
      | line :: lines => ((c :: line) :: lines, last)

/-- All lines of a text; an unfinished one counts if it is not empty. -/
def linesOf (text : Text) : List Text :=
  let (lines, last) := breakLines text
  if last.isEmpty then lines else lines ++ [last]

/-- A carriage return, with the line feed after it if there is one, becomes a line feed. A carriage
return at the end is held back, since a line feed may follow in the next piece. -/
def unifyFrom (held : Bool) : Text → Text × Bool
  | [] => ([], held)
  | c :: rest =>
    let (text, holds) := unifyFrom (c = CodePoint.carriageReturn) rest
    let text := if c = CodePoint.carriageReturn then text else c :: text
    (if held ∧ c ≠ CodePoint.lineFeed then CodePoint.lineFeed :: text else text, holds)

def unify (text : Text) : Text :=
  let (text, held) := unifyFrom false text
  if held then text ++ [CodePoint.lineFeed] else text

def chunkSize : Nat := 8192

/-- What has been read of a file and not yet delivered: the bytes of an unfinished code point, a
carriage return held back, and the beginning of a line. -/
structure Rest where
  pending : Bytes := []
  held : Bool := false
  line : Text := []

/-- The lines that a further chunk completes. Positions of bytes count from the unfinished code
point in front of the chunk. -/
def Rest.next (rest : Rest) (chunk : Bytes) : Except Utf8.DecodeError (List Text × Rest) :=
  match Utf8.decodeFrom rest.pending 0 chunk with
  | .error error => .error error
  | .ok (text, pending) =>
    let (text, held) := unifyFrom rest.held text
    let (lines, line) := breakLines (rest.line ++ text)
    .ok (lines, ⟨pending, held, line⟩)

def Rest.last (rest : Rest) : Except Utf8.DecodeError (List Text) :=
  match rest.pending with
  | [] => .ok (linesOf (rest.line ++ if rest.held then [CodePoint.lineFeed] else []))
  | pending => .error (Utf8.cutOff pending 0)

def ofChunks (rest : Rest) : List Bytes → LineFeed
  | [] =>
    match rest.last with
    | .error error => ⟨[], some error⟩
    | .ok lines => ⟨lines, none⟩
  | chunk :: chunks =>
    match rest.next chunk with
    | .error error => ⟨[], some error⟩
    | .ok (lines, rest) =>
      let feed := ofChunks rest chunks
      { feed with lines := lines ++ feed.lines }

/-- The bytes in pieces of `size`, the last one shorter; `fuel` bounds their number. -/
def chunksFrom (size : Nat) : (fuel : Nat) → Bytes → List Bytes
  | 0, _ => []
  | fuel + 1, bytes =>
    if bytes.isEmpty then [] else bytes.take size :: chunksFrom size fuel (bytes.drop size)

def chunks (size : Nat) (bytes : Bytes) : List Bytes := chunksFrom size (bytes.length + 1) bytes

def ofBytes (bytes : Bytes) : LineFeed := ofChunks {} (chunks chunkSize bytes)

/-- The lines of a text in memory, where only a line feed ends a line. -/
def ofText (text : Text) : LineFeed := ⟨linesOf text, none⟩

end LineFeed
end LoadLedger
