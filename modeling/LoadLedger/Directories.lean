import LoadLedger.FileTree

/-! # Making directories with all that lie above

Both ways leave alone what exists. The one by path names tries the lowest directory first and goes
up only while something is missing; the one by text looks at what exists and works downwards, so
the two name different directories when a file is in the way. What was made before a failure stays.
-/
namespace LoadLedger

def FileError.isMissing : FileError → Bool
  | .system .noEntry _ => true
  | _ => false

namespace FileTree

/-- Makes one directory; a failure does not count if the directory is there. -/
def ensureDirectory (tree : FileTree) (path : Text) : FileTree × Except FileError Unit :=
  match tree.makeDirectory path with
  | .ok tree => (tree, .ok ())
  | .error error => (tree, if tree.isDirectory path then .ok () else .error error)

/-- Makes a directory and those above it, for parts listed from the last one up. -/
def ensureParts (tree : FileTree) (root : PathRoot) :
    List Text → FileTree × Except FileError Unit
  | [] => tree.ensureDirectory (PathName.mk root []).text
  | part :: above =>
    let path := (PathName.mk root (part :: above).reverse).text
    match tree.ensureDirectory path with
    | (tree, .ok ()) => (tree, .ok ())
    | (tree, .error error) =>
      if error.isMissing then
        match tree.ensureParts root above with
        | (tree, .ok ()) => tree.ensureDirectory path
        | failed => failed
      else (tree, .error error)

def ensureDirectories (tree : FileTree) (path : PathName) : FileTree × Except FileError Unit :=
  tree.ensureParts path.root path.parts.reverse

def trimSlashes (text : Text) : Text :=
  let trimmed := text.trimEnd (· = CodePoint.slash)
  if trimmed.isEmpty then text else trimmed

def splitLast (path : Text) : Text × Text :=
  let tail := (path.reverse.takeWhile (· ≠ CodePoint.slash)).reverse
  (trimSlashes (path.take (path.length - tail.length)), tail)

/-- Makes the directories of a path text from the top down; `fuel` bounds their number. -/
def ensureTextFrom (tree : FileTree) : (fuel : Nat) → Text → FileTree × Except FileError Unit
  | 0, path => tree.ensureDirectory path
  | fuel + 1, path =>
    let (head, tail) := splitLast path
    let (head, tail) := if tail.isEmpty then splitLast head else (head, tail)
    if head.isEmpty || tail.isEmpty || (tree.find? head).isSome then tree.ensureDirectory path
    else
      match tree.ensureTextFrom fuel head with
      | (tree, .error (.system .exists _)) | (tree, .ok ()) =>
        if tail = PathName.dot then (tree, .ok ()) else tree.ensureDirectory path
      | failed => failed

def ensureText (tree : FileTree) (path : Text) : FileTree × Except FileError Unit :=
  tree.ensureTextFrom path.length path

end FileTree
end LoadLedger
