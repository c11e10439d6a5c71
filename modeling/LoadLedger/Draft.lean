import LoadLedger.Directories

/-! # Drafts

A file is replaced as a whole: its new content is written to a draft beside it, and the draft then
takes the file's name. Until that moment the file is untouched, and a draft that fails is thrown
away.
-/
namespace LoadLedger

/-- What a machine refuses in the course of a write, apart from what the paths make impossible. -/
structure Machine where
  /-- The stack gives out while the missing directories are made. -/
  stack : Bool := false
  /-- No directory is made. -/
  directory : Option SystemFault := none
  start : Option SystemFault := none
  /-- The temporary file is made, but cannot be opened. -/
  opening : Option SystemFault := none
  /-- The piece with this number is not taken. -/
  write : Option (Nat × SystemFault) := none
  flush : Option SystemFault := none
  sync : Option SystemFault := none
  close : Option SystemFault := none
  rename : Option SystemFault := none
  /-- The closing of a draft that is thrown away, which tries once more to write what is left. -/
  abandon : Option SystemFault := none
  unlink : Option SystemFault := none
  deriving DecidableEq

def Machine.sound : Machine := {}

structure Draft where
  location : Location
  /-- What has been written, the last piece first. -/
  written : List Bytes := []
  closed : Bool := false
  deriving DecidableEq

namespace Draft

def content (draft : Draft) : Bytes := draft.written.reverse.flatten

/-- A new draft for the file at a path. The directory of the file is made if need be. -/
def start (tree : FileTree) (path : PathName) : FileTree × Except FileError Draft :=
  match tree.ensureDirectories path.parent with
  | (tree, .error error) => (tree, .error error)
  | (tree, .ok ()) =>
    match tree.makeTemporary path.parent.text path.name with
    | .error error => (tree, .error error)
    | .ok (tree, location) => (tree, .ok { location := location })

/-- A piece is written wholly or, if it cannot be encoded, not at all. -/
def write (draft : Draft) (piece : Text) : Except FileError Draft :=
  if draft.closed then .error .closed
  else match Utf8.encode piece with
    | .error error => .error (.encode error)
    | .ok bytes => .ok { draft with written := bytes :: draft.written }

def writeAll (draft : Draft) : List Piece → Except WriteError Draft
  | [] => .ok draft
  | piece :: pieces =>
    if piece.numbersFit then
      match draft.write piece.text with
      | .error error => .error (.file error)
      | .ok draft => writeAll draft pieces
    else .error .longNumber

def close (draft : Draft) : Draft := { draft with closed := true }

/-- Makes the draft the file at a path. The draft is closed, also if that fails. -/
def finish (draft : Draft) (tree : FileTree) (path : PathName) :
    Draft × FileTree × Except FileError Unit :=
  if draft.closed then (draft, tree, .error .closed)
  else match tree.rename draft.location draft.content path.text with
    | .error error => (draft.close, tree, .error error)
    | .ok tree => (draft.close, tree, .ok ())

/-- Throws the draft away, if it is still there. The draft is closed in any case. -/
def discard (draft : Draft) (tree : FileTree) : Draft × FileTree × Except FileError Unit :=
  match tree.unlink draft.location with
  | .ok tree => (draft.close, tree, .ok ())
  | .error .noEntry => (draft.close, tree, .ok ())
  | .error fault => (draft.close, tree, .error (.system fault .temporary))

/-! ## On a machine that may refuse -/

/-- A temporary file that cannot be opened stays, since there is no draft to be thrown away. -/
def startOn (machine : Machine) (tree : FileTree) (path : PathName) :
    FileTree × Except FileError Draft :=
  let directory := path.parent.text
  match if tree.isDirectory directory then none else machine.directory with
  | some fault => (tree, .error (.system fault (.path directory)))
  | none =>
    match tree.ensureDirectories path.parent, machine.start with
    | (made, .ok ()), some fault => (made, .error (.system fault .temporary))
    | _, _ =>
      match start tree path, machine.opening with
      | (drafted, .ok _), some fault => (drafted, .error (.system fault .temporary))
      | started, _ => started

/-- A piece that the machine refuses is looked at before, so one that cannot be encoded is reported
as such. -/
def writeAllOn (machine : Machine) (draft : Draft) (pieces : List Piece) :
    Except WriteError Draft :=
  match machine.write with
  | none => draft.writeAll pieces
  | some (count, fault) =>
    if count < pieces.length then
      match draft.writeAll (pieces.take (count + 1)) with
      | .error error => .error error
      | .ok _ => .error (.file (.system fault .opened))
    else draft.writeAll pieces

/-- A draft that cannot be flushed or synced stays open; one that cannot be closed or renamed is
closed all the same, but does not become the file. -/
def finishOn (machine : Machine) (draft : Draft) (tree : FileTree) (path : PathName) :
    Draft × FileTree × Except FileError Unit :=
  if draft.closed then draft.finish tree path
  else match machine.flush.or machine.sync, machine.close, machine.rename with
    | some fault, _, _ => (draft, tree, .error (.system fault .opened))
    | none, some fault, _ => (draft.close, tree, .error (.system fault .opened))
    | none, none, some fault =>
      (draft.close, tree, .error (.system fault (.renaming path.text)))
    | none, none, none => draft.finish tree path

/-- What the machine refuses when a draft is thrown away: to close it, if it is still open, or to
unlink its file. -/
def refusal (machine : Machine) (draft : Draft) : Option FileError :=
  match if draft.closed then none else machine.abandon with
  | some fault => some (.system fault .opened)
  | none => machine.unlink.map (.system · .temporary)

end Draft

/-- How the replacing of a file ends: it is done, it has failed and the draft is gone, or an error
has come up that no one catches. -/
inductive Replacing
  | done
  | failed (error : WriteError)
  | raised (error : WriteError)

namespace FileTree

/-- Throws a draft away because of an error. A draft that cannot be thrown away stays. -/
def giveUpOn (machine : Machine) (tree : FileTree) (draft : Draft) (error : WriteError) :
    FileTree × Replacing :=
  match draft.refusal machine with
  | some refusal => (tree, .raised (.file refusal))
  | none => ((draft.discard tree).2.1, .failed error)

/-- Replaces the file at a path by the given pieces, or leaves it as it is. -/
def replaceOn (machine : Machine) (tree : FileTree) (path : PathName) (pieces : List Piece) :
    FileTree × Replacing :=
  if machine.stack then (tree, .raised .stack)
  else match Draft.startOn machine tree path with
    | (tree, .error error) => (tree, .failed (.file error))
    | (tree, .ok draft) =>
      match draft.writeAllOn machine pieces with
      | .error error => tree.giveUpOn machine draft error
      | .ok draft =>
        match draft.finishOn machine tree path with
        | (draft, tree, .error error) => tree.giveUpOn machine draft (.file error)
        | (_, tree, .ok ()) => (tree, .done)

def replace (tree : FileTree) (path : PathName) (pieces : List Piece) :
    FileTree × Except WriteError Unit :=
  match tree.replaceOn .sound path pieces with
  | (tree, .done) => (tree, .ok ())
  | (tree, .failed error) | (tree, .raised error) => (tree, .error error)

end FileTree

/-- Several drafts of one file at once, known by numbers. -/
structure Drafting where
  path : PathName
  files : FileTree
  /-- The drafts by their numbers, the latest state of each first. -/
  drafts : List (Int × Draft) := []

namespace Drafting

def draft? (drafting : Drafting) (id : Int) : Option Draft := drafting.drafts.lookup id

def set (drafting : Drafting) (id : Int) (draft : Draft) : Drafting :=
  { drafting with drafts := (id, draft) :: drafting.drafts }

def start (drafting : Drafting) (id : Int) : Drafting × Except FileError Unit :=
  match Draft.start drafting.files drafting.path with
  | (files, .ok draft) => ({ drafting with files }.set id draft, .ok ())
  | (files, .error error) => ({ drafting with files }, .error error)

def write (drafting : Drafting) (id : Int) (piece : Text) : Drafting × Except FileError Nat :=
  match drafting.draft? id with
  | none => (drafting, .error .closed)
  | some draft =>
    match draft.write piece with
    | .error error => (drafting, .error error)
    | .ok draft => (drafting.set id draft, .ok piece.length)

def finish (drafting : Drafting) (id : Int) : Drafting × Except FileError Unit :=
  match drafting.draft? id with
  | none => (drafting, .error .closed)
  | some draft =>
    let (draft, files, result) := draft.finish drafting.files drafting.path
    ({ drafting with files }.set id draft, result)

def discard (drafting : Drafting) (id : Int) : Drafting × Except FileError Unit :=
  match drafting.draft? id with
  | none => (drafting, .ok ())
  | some draft =>
    let (draft, files, result) := draft.discard drafting.files
    ({ drafting with files }.set id draft, result)

end Drafting
end LoadLedger
