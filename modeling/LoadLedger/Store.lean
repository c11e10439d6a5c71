import LoadLedger.Draft
import LoadLedger.Journal
import LoadLedger.Settings

/-! # The store of a ledger

A store keeps a ledger in a file. Requests to write are collected: while one is pending, another
adds nothing, since the pending write takes the ledger as it is when it runs. The store is dirty
from a request until a write begins, and again after a write that failed and was cleaned up. An
error that comes up in cleaning up, or that is none of the file system's, passes through the store
and leaves it clean.
-/
namespace LoadLedger

/-- The result of an operation, the state and the files after it, and what it had to report. -/
structure Outcome (σ α : Type) where
  result : α
  state : σ
  files : FileTree
  notes : List Note := []

structure Store where
  vocabulary : Vocabulary
  path : PathName
  /-- Seconds between a request to write and the write. -/
  delay : Binary64
  ledger : Ledger := TextMap.empty
  pending : Bool := false
  dirty : Bool := false
  /-- Whether a write has succeeded. -/
  written : Bool := false
  deriving DecidableEq

namespace Store

/-- An empty store. A delay below zero counts as none. -/
def create (vocabulary : Vocabulary) (path : PathName) (delay : Binary64) : Store where
  vocabulary := vocabulary
  path := path
  delay := delay.clampBelow

def ofSettings (settings : Settings) : Except UnsupportedAbi Store :=
  (Vocabulary.ofAbis settings.abis).map fun vocabulary =>
    create vocabulary settings.filePath settings.delay

/-- The listing of the ledger, as a write would put it into the file. -/
def dump (store : Store) : Text := Listing.render Listing.currentVersion store.ledger

/-- Takes over the ledger that `read` finds in the file. If there is no file, or it cannot be read
to its end, the store stays as it is. -/
def loadBy (store : Store) (files : FileTree) (read : Bytes → Listing.Reading Ledger) :
    Outcome Store Bool :=
  let path := store.path.text
  match files.contentOf path with
  | .error (.system .noEntry _) =>
    { result := false, state := store, files, notes := [.noFile path] }
  | .error error =>
    { result := false, state := store, files, notes := [.loadFailed path (.file error)] }
  | .ok content =>
    let reading := read content
    let remarks := reading.remarks.map Note.remark
    match reading.result with
    | .error error =>
      { result := false, state := store, files
        notes := remarks ++ [.loadFailed path (.listing error)] }
    | .ok ledger =>
      { result := true, state := { store with ledger }, files
        notes := remarks ++ [.loaded ledger.size path] }

def load (store : Store) (files : FileTree) : Outcome Store Bool :=
  store.loadBy files fun content =>
    Listing.read store.vocabulary Listing.currentVersion (LineFeed.ofBytes content)

/-- Takes over the ledger in a file to which each remark is added, as `echo` writes it, while the
file is read. -/
def loadEchoing (store : Store) (files : FileTree) (echo : Listing.Remark → Bytes) :
    Outcome Store Bool :=
  store.loadBy files (Listing.readEchoing store.vocabulary Listing.currentVersion echo)

def requestWrite (store : Store) (files : FileTree) : Outcome Store Bool :=
  if store.pending then { result := false, state := { store with dirty := true }, files }
  else
    { result := true, state := { store with dirty := true, pending := true }, files
      notes := [.scheduled store.delay] }

/-- Writes the ledger, and tells whether that succeeded, unless an error passes through. -/
def writeOn (machine : Machine) (store : Store) (files : FileTree) :
    Outcome Store (Except WriteError Bool) :=
  let path := store.path.text
  match files.replaceOn machine store.path (Listing.pieces Listing.currentVersion store.ledger) with
  | (files, .raised error) =>
    { result := .error error, state := { store with dirty := false }, files }
  | (files, .failed error) =>
    { result := .ok false, state := { store with dirty := true }, files
      notes := [.writeFailed path error] }
  | (files, .done) =>
    { result := .ok true, state := { store with dirty := false, written := true }, files
      notes := [.wrote store.ledger.size path] }

def writeNow (store : Store) (files : FileTree) : Outcome Store Bool :=
  let outcome := store.writeOn .sound files
  { outcome with result := outcome.result.toOption.getD false }

def runPending (store : Store) (files : FileTree) (machine : Machine := .sound) :
    Outcome Store (Except WriteError Unit) :=
  if store.pending then
    let outcome := { store with pending := false }.writeOn machine files
    { outcome with result := outcome.result.map fun _ => () }
  else { result := .ok (), state := store, files }

/-- Drops the pending write and writes at once if the store is dirty. The result is false if that
failed. -/
def flush (store : Store) (files : FileTree) (machine : Machine := .sound) :
    Outcome Store (Except WriteError Bool) :=
  let store := { store with pending := false }
  if store.dirty then store.writeOn machine files
  else { result := .ok true, state := store, files }

def record (store : Store) (load : Load) : Except RecordError (Store × Bool) :=
  (store.ledger.record store.vocabulary load).map fun (ledger, news) =>
    ({ store with ledger }, news)

def prune (store : Store) (installed : Installed) : Store × List Note :=
  let count := store.ledger.pruned installed
  ({ store with ledger := store.ledger.prune installed },
    if count.packages = 0 ∧ count.dexFiles = 0 then [] else [.pruned count])

def clear (store : Store) : Store := { store with ledger := TextMap.empty }

end Store
end LoadLedger
