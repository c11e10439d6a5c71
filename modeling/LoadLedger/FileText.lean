import LoadLedger.FileTree
import LoadLedger.LineFeed

/-! # Reading files as text

A file can be read at once, so that a byte that cannot be decoded spoils all of it, or line by line.
Either way every line end becomes a line feed.
-/
namespace LoadLedger.FileTree

def textAt (tree : FileTree) (path : Text) : Except FileError Text :=
  match tree.contentOf path with
  | .error error => .error error
  | .ok content =>
    match Utf8.decode content with
    | .error error => .error (.decode error)
    | .ok text => .ok (LineFeed.unify text)

/-- The lines of a file, if all of it can be read. -/
def linesAt (tree : FileTree) (path : Text) : Except FileError (List Text) :=
  match tree.contentOf path with
  | .error error => .error error
  | .ok content =>
    match LineFeed.ofBytes content with
    | ⟨_, some error⟩ => .error (.decode error)
    | ⟨lines, none⟩ => .ok lines

end LoadLedger.FileTree
