import LoadLedger.Text

/-! # Path names

A path name is its root and its parts. Empty parts and single dots are dropped; two dots are kept,
since what they mean depends on the files. Exactly two leading slashes are a root of their own.
-/
namespace LoadLedger

inductive PathRoot
  | relative
  | slash
  | doubleSlash
  deriving DecidableEq

def PathRoot.text : PathRoot → Text
  | .relative => ""
  | .slash => "/"
  | .doubleSlash => "//"

structure PathName where
  root : PathRoot
  parts : List Text
  deriving DecidableEq

namespace PathName

def dot : Text := "."

def partsOf (text : Text) : List Text :=
  (text.split CodePoint.slash).filter fun part => !part.isEmpty && part != dot

def rootOf (text : Text) : PathRoot :=
  match (text.takeWhile (· = CodePoint.slash)).length with
  | 0 => .relative
  | 2 => .doubleSlash
  | _ => .slash

def ofText (text : Text) : PathName := ⟨rootOf text, partsOf text⟩

/-- The text of a path name; the empty relative name is written as a dot. -/
def text (path : PathName) : Text :=
  if path.root = .relative ∧ path.parts = [] then dot
  else path.root.text ++ Text.join [CodePoint.slash] path.parts

/-- The path `other` seen from `path`; one with a root of its own stays as it is. -/
def append (path other : PathName) : PathName :=
  if other.root = .relative then { path with parts := path.parts ++ other.parts } else other

def parent (path : PathName) : PathName := { path with parts := path.parts.dropLast }

def name (path : PathName) : Text := path.parts.getLastD []

end PathName
end LoadLedger
