import LoadLedger.FileError
import LoadLedger.PathName

/-! # File trees

A file tree says which locations hold a directory or a file. Paths are followed name by name from
the top or from the home directory; a name has at most 255 bytes and a path at most 4095. Temporary
files have names of their own kind, so they never meet a name in use.
-/
namespace LoadLedger

/-- A temporary file is known by the name it is made beside and a serial number. -/
inductive FileName
  | plain (bytes : Bytes)
  | temporary (stem : Bytes) (serial : Nat)
  deriving DecidableEq

/-- The names from the top directory down. -/
abbrev Location := List FileName

inductive Node
  | directory
  | file (content : Bytes)
  deriving DecidableEq

structure FileTree where
  nodes : List (Location × Node) := []
  home : Location := []
  /-- All serial numbers given out so far are below this one. -/
  serial : Nat := 0
  deriving DecidableEq

namespace FileTree

def node? (tree : FileTree) (location : Location) : Option Node :=
  if location = [] then some .directory else tree.nodes.lookup location

def isDirectoryAt (tree : FileTree) (location : Location) : Bool :=
  tree.node? location = some .directory

def put (tree : FileTree) (location : Location) (node : Node) : FileTree :=
  { tree with nodes := (location, node) :: tree.nodes.filter (·.1 ≠ location) }

def erase (tree : FileTree) (location : Location) : FileTree :=
  { tree with nodes := tree.nodes.filter (·.1 ≠ location) }

theorem lookup_filter_ne (l : List (Location × Node)) {place location : Location}
    (h : location ≠ place) : (l.filter (·.1 ≠ place)).lookup location = l.lookup location := by
  induction l with
  | nil => rfl
  | cons p rest ih =>
    obtain ⟨q, node⟩ := p
    by_cases hq : q = place
    · have hne : (location == q) = false := by simpa [hq] using h
      simp only [List.filter_cons, hq, ne_eq, not_true_eq_false, decide_false,
        Bool.false_eq_true, if_false, ih, List.lookup_cons]
      simp [hq ▸ hne]
    · simp only [List.filter_cons, ne_eq, hq, not_false_eq_true, decide_true, if_true,
        List.lookup_cons, ih]

theorem lookup_filter_self (l : List (Location × Node)) (place : Location) :
    (l.filter (·.1 ≠ place)).lookup place = none := by
  induction l with
  | nil => rfl
  | cons p rest ih =>
    obtain ⟨q, node⟩ := p
    by_cases hq : q = place
    · simpa [List.filter_cons, hq] using ih
    · have hne : (place == q) = false := by simpa using Ne.symm hq
      simp only [List.filter_cons, ne_eq, hq, not_false_eq_true, decide_true, if_true,
        List.lookup_cons, hne]
      exact ih

theorem node?_put (tree : FileTree) {place : Location} (location : Location) (node : Node)
    (h : place ≠ []) :
    (tree.put place node).node? location = if location = place then some node
      else tree.node? location := by
  unfold node? put
  by_cases hl : location = place
  · subst hl
    simp [h]
  · have hne : (location == place) = false := by simpa using hl
    simp only [hl, if_false, List.lookup_cons, hne, lookup_filter_ne _ hl]

theorem node?_erase (tree : FileTree) {place : Location} (location : Location) (h : place ≠ []) :
    (tree.erase place).node? location = if location = place then none
      else tree.node? location := by
  unfold node? erase
  by_cases hl : location = place
  · subst hl
    simp only [h, if_false, if_true, lookup_filter_self]
  · simp only [hl, if_false, lookup_filter_ne _ hl]

def nameLimit : Nat := 255
def pathLimit : Nat := 4095

/-- Temporary names add a leading dot, a dot, eight random characters and an ending. -/
def temporaryExtra : Nat := 14

def slashByte : UInt8 := 47
def dotByte : UInt8 := 46

def splitNames : Bytes → List Bytes
  | [] => []
  | b :: rest =>
    if b = slashByte then splitNames rest
    else match rest, splitNames rest with
      | next :: _, name :: names => if next = slashByte then [b] :: name :: names
        else (b :: name) :: names
      | _, names => [b] :: names

def follow (tree : FileTree) (location : Location) : List Bytes → Except SystemFault Location
  | [] => .ok location
  | name :: names =>
    if tree.isDirectoryAt location then
      if name = [dotByte] then follow tree location names
      else if name = [dotByte, dotByte] then follow tree location.dropLast names
      else if name.length > nameLimit then .error .nameTooLong
      else
        let next := location ++ [.plain name]
        if (tree.node? next).isSome then follow tree next names else .error .noEntry
    else .error .notDirectory

/-- Where a path leads: to a name in a directory, which may be free, or to a directory reached
without naming it. -/
inductive Place
  | entry (location : Location)
  | itself (location : Location)

def placeOf (tree : FileTree) (bytes : Bytes) : Except SystemFault Place :=
  if bytes.isEmpty then .error .noEntry
  else if bytes.length > pathLimit then .error .nameTooLong
  else
    let start := if bytes.head? = some slashByte then [] else tree.home
    let names := splitNames bytes
    match names.getLast? with
    | none => .ok (.itself start)
    | some last =>
      match tree.follow start names.dropLast with
      | .error fault => .error fault
      | .ok directory =>
        if tree.isDirectoryAt directory then
          if last = [dotByte] then .ok (.itself directory)
          else if last = [dotByte, dotByte] then .ok (.itself directory.dropLast)
          else if last.length > nameLimit then .error .nameTooLong
          else .ok (.entry (directory ++ [.plain last]))
        else .error .notDirectory

/-- The bytes of a path; no path has a null byte. -/
def pathBytes (path : Text) : Except FileError Bytes :=
  match Utf8.encodeName path with
  | .error error => .error (.encode error)
  | .ok bytes => if bytes.contains 0 then .error .nullByte else .ok bytes

def place (tree : FileTree) (path : Text) : Except FileError Place :=
  match pathBytes path with
  | .error error => .error error
  | .ok bytes =>
    match tree.placeOf bytes with
    | .error fault => .error (.system fault (.path path))
    | .ok place => .ok place

def find? (tree : FileTree) (path : Text) : Option Node :=
  match tree.place path with
  | .ok (.entry location) | .ok (.itself location) => tree.node? location
  | .error _ => none

def isDirectory (tree : FileTree) (path : Text) : Bool := tree.find? path = some .directory

def contentOf (tree : FileTree) (path : Text) : Except FileError Bytes :=
  match tree.place path with
  | .error error => .error error
  | .ok (.itself _) => .error (.system .isDirectory (.path path))
  | .ok (.entry location) =>
    match tree.node? location with
    | none => .error (.system .noEntry (.path path))
    | some .directory => .error (.system .isDirectory (.path path))
    | some (.file content) => .ok content

def makeDirectory (tree : FileTree) (path : Text) : Except FileError FileTree :=
  match tree.place path with
  | .error error => .error error
  | .ok (.itself _) => .error (.system .exists (.path path))
  | .ok (.entry location) =>
    if (tree.node? location).isSome then .error (.system .exists (.path path))
    else .ok (tree.put location .directory)

/-- The location of a file opened for appending, and the tree in which the file exists. -/
def openForAppend (tree : FileTree) (path : Text) : Except FileError (FileTree × Location) :=
  match tree.place path with
  | .error error => .error error
  | .ok (.itself _) => .error (.system .isDirectory (.path path))
  | .ok (.entry location) =>
    match tree.node? location with
    | none => .ok (tree.put location (.file []), location)
    | some .directory => .error (.system .isDirectory (.path path))
    | some (.file _) => .ok (tree, location)

def appendAt (tree : FileTree) (location : Location) (bytes : Bytes) : FileTree :=
  match bytes, tree.node? location with
  | _ :: _, some (.file content) => tree.put location (.file (content ++ bytes))
  | _, _ => tree

/-- A number above the serial number of a temporary name, and zero for other names. -/
def serialBound : FileName → Nat
  | .plain _ => 0
  | .temporary _ serial => serial + 1

/-- A serial number that was not given out before and that no name in the tree has. -/
def freshSerial (tree : FileTree) : Nat :=
  tree.nodes.foldr (fun (location, _) bound =>
    location.foldr (fun name bound => max (serialBound name) bound) bound) tree.serial

def nameText : FileName → Text
  | .plain bytes => Utf8.decodeName bytes
  | .temporary stem _ => "." ++ Utf8.decodeName stem ++ ".<temp>"

/-- Takes two dots to mean the part before them. -/
def foldDots (above : List Text) : List Text → List Text
  | [] => above.reverse
  | part :: parts =>
    if part = ".." then foldDots above.tail parts else foldDots (part :: above) parts

/-- A path from the top, with all dots taken away without looking at the files. -/
def absolute (tree : FileTree) (path : Text) : Text :=
  let home : PathName := ⟨.slash, tree.home.map nameText⟩
  let full := home.append (.ofText path)
  { full with parts := foldDots [] full.parts }.text

/-- A new empty file in a directory, for a draft of the file with the given name. It is made by its
path from the top. -/
def makeTemporary (tree : FileTree) (directory stem : Text) :
    Except FileError (FileTree × Location) :=
  let failure (fault : SystemFault) : FileError := .system fault .temporary
  match pathBytes stem, pathBytes directory, pathBytes (tree.absolute directory) with
  | .error error, _, _ | _, .error error, _ | _, _, .error error => .error error
  | .ok stem, .ok bytes, .ok above =>
    match tree.placeOf bytes with
    | .error fault => .error (failure fault)
    | .ok (.entry location) | .ok (.itself location) =>
      match tree.node? location with
      | none => .error (failure .noEntry)
      | some (.file _) => .error (failure .notDirectory)
      | some .directory =>
        let length := stem.length + temporaryExtra
        if length > nameLimit ∨ above.length + 1 + length > pathLimit then
          .error (failure .nameTooLong)
        else
          let serial := tree.freshSerial
          let location := location ++ [.temporary stem serial]
          .ok ({ tree.put location (.file []) with serial := serial + 1 }, location)

/-- Whether the names of a location lead on, from a location above it to the directory that holds
the last name. -/
def reach (tree : FileTree) (above : Location) : Location → Except SystemFault Unit
  | [] => .ok ()
  | name :: names =>
    match tree.node? above with
    | none => .error .noEntry
    | some (.file _) => .error .notDirectory
    | some .directory => reach tree (above ++ [name]) names

def unlink (tree : FileTree) (location : Location) : Except SystemFault FileTree :=
  match tree.reach [] location with
  | .error fault => .error fault
  | .ok () =>
    if (tree.node? location).isSome then .ok (tree.erase location) else .error .noEntry

/-- Gives a temporary file its final content and the name at a path, replacing the file there. -/
def rename (tree : FileTree) (temporary : Location) (content : Bytes) (path : Text) :
    Except FileError FileTree :=
  let failure (fault : SystemFault) : FileError := .system fault (.renaming path)
  match tree.place path with
  | .error (.system .nameTooLong _) =>
    .error (failure (if (tree.node? temporary).isSome then .nameTooLong else .noEntry))
  | .error (.system fault _) => .error (failure fault)
  | .error error => .error error
  | .ok (.itself _) => .error (failure .busy)
  | .ok (.entry location) =>
    if (tree.node? temporary).isNone then .error (failure .noEntry)
    else if tree.isDirectoryAt location then .error (failure .isDirectory)
    else .ok ((tree.erase temporary).put location (.file content))

end FileTree
end LoadLedger
