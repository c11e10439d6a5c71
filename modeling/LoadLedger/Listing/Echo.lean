import LoadLedger.Listing.Reader

/-! # Reading a listing that grows

The remarks made on a listing may be added to the very file that is being read. What is added before
the end of the file has been seen is read as well, as part of the line that it continues or as a
line of its own. With nothing added, this is reading as usual.
-/
namespace LoadLedger.Listing

/-- How far a file has been read. Nothing is known before the first line. -/
structure Scan where
  rest : LineFeed.Rest := {}
  progress : Option Progress := none

def Scan.readLines (vocabulary : Vocabulary) (version : Int) (scan : Scan) (lines : List Text) :
    Reading (Option Progress) :=
  let readMore (progress : Progress) (lines : List Text) : Reading (Option Progress) :=
    let reading := Listing.readLines vocabulary progress lines
    ⟨reading.remarks, reading.result.map some⟩
  match scan.progress, lines with
  | some progress, lines => readMore progress lines
  | none, [] => ⟨[], .ok none⟩
  | none, first :: lines =>
    match checkHeader version (trimLine first) with
    | .error error => ⟨[], .error (.format error)⟩
    | .ok () => readMore {} lines

/-- The lines that the next chunk of a file completes, or those that its end completes if all bytes
are read. Behind the end, lines begin afresh. -/
def Scan.next (scan : Scan) (unread : Bytes) :
    Except Utf8.DecodeError (List Text × LineFeed.Rest) :=
  match unread with
  | [] => scan.rest.last.map (·, {})
  | unread => scan.rest.next (unread.take LineFeed.chunkSize)

/-- Reads chunk by chunk, until the end of the file brings no further line. The fuel bounds the
number of chunks. -/
def scanEchoing (vocabulary : Vocabulary) (version : Int) (echo : Remark → Bytes) :
    (fuel : Nat) → Scan → (unread : Bytes) → Reading (Option Progress)
  | 0, scan, _ => ⟨[], .ok scan.progress⟩
  | fuel + 1, scan, unread =>
    match scan.next unread with
    | .error error => ⟨[], .error (.decode error)⟩
    | .ok (lines, rest) =>
      if unread.isEmpty && lines.isEmpty then ⟨[], .ok scan.progress⟩
      else
        let reading := scan.readLines vocabulary version lines
        match reading.result with
        | .error _ => reading
        | .ok progress =>
          let unread := unread.drop LineFeed.chunkSize
          let unread := match reading.remarks with
            | [] => unread
            | remarks => unread ++ remarks.flatMap echo
          let later := scanEchoing vocabulary version echo fuel ⟨rest, progress⟩ unread
          { later with remarks := reading.remarks ++ later.remarks }

/-- Reads a listing from a file to which each remark is added as `echo` writes it. There are fewer
remarks than bytes in the file, so as long as an echo is shorter than a chunk and makes no remarks
itself, twice the number of bytes bounds the number of chunks. -/
def readEchoing (vocabulary : Vocabulary) (version : Int) (echo : Remark → Bytes)
    (content : Bytes) : Reading Ledger :=
  let reading := scanEchoing vocabulary version echo (2 * content.length + 16) {} content
  ⟨reading.remarks, match reading.result with
    | .error error => .error error
    | .ok none => .error (.format .noVersionLine)
    | .ok (some progress) => finish progress⟩

end LoadLedger.Listing
