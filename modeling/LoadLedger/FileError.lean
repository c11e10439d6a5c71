import LoadLedger.Text.Quoted
import LoadLedger.Utf8

/-! # File errors

What can go wrong with a file, with the path it went wrong at. A temporary file has no name that
outlives it, so messages show it under one common name.
-/
namespace LoadLedger

inductive SystemFault
  | noEntry
  | inputOutput
  | busy
  | exists
  | notDirectory
  | isDirectory
  | noSpace
  | nameTooLong
  deriving DecidableEq

namespace SystemFault

def number : SystemFault → Nat
  | .noEntry => 2
  | .inputOutput => 5
  | .busy => 16
  | .exists => 17
  | .notDirectory => 20
  | .isDirectory => 21
  | .noSpace => 28
  | .nameTooLong => 36

def description : SystemFault → Text
  | .noEntry => "No such file or directory"
  | .inputOutput => "Input/output error"
  | .busy => "Device or resource busy"
  | .exists => "File exists"
  | .notDirectory => "Not a directory"
  | .isDirectory => "Is a directory"
  | .noSpace => "No space left on device"
  | .nameTooLong => "File name too long"

end SystemFault

/-- Which file an error is about: a path, a temporary file, the renaming of a temporary file, or an
open file, which is not named. -/
inductive Subject
  | path (text : Text)
  | temporary
  | opened
  | renaming (target : Text)
  deriving DecidableEq

def Subject.display : Subject → Text
  | .path text => ": " ++ text.quoted
  | .temporary => ": '<temp>'"
  | .opened => ""
  | .renaming target => ": '<temp>' -> " ++ target.quoted

inductive FileError
  | system (fault : SystemFault) (subject : Subject)
  | nullByte
  | closed
  | encode (error : Utf8.EncodeError)
  | decode (error : Utf8.DecodeError)
  deriving DecidableEq

def FileError.message : FileError → Text
  | .system fault subject =>
    "[Errno " ++ Numeral.ofNat fault.number ++ "] " ++ fault.description ++ subject.display
  | .nullByte => "embedded null byte"
  | .closed => "I/O operation on closed file."
  | .encode error => error.message
  | .decode error => error.message

/-- Why a text cannot be written to a file. A number in it may have too many digits, and the way to
the file may be too deep for the stack. -/
inductive WriteError
  | file (error : FileError)
  | longNumber
  | stack
  deriving DecidableEq

def WriteError.message : WriteError → Text
  | .file error => error.message
  | .longNumber => Numeral.tooLong
  | .stack => "maximum recursion depth exceeded while calling a Python object"

end LoadLedger
