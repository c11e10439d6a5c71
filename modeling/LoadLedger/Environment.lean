import LoadLedger.TextMap
import LoadLedger.Utf8

/-! # Environment variables

Variables may be added to the environment from elsewhere, such as a file of assignments, before the
settings are read from it. How that is done is left open here.
-/
namespace LoadLedger

abbrev Environment := TextMap Text

/-- Why variables cannot be added: a file that holds them is no text, or a name or a value is one
that no variable can have. -/
inductive EnvironmentError
  | decode (error : Utf8.DecodeError)
  | nullByte
  | illegalName
  deriving DecidableEq

def EnvironmentError.message : EnvironmentError → Text
  | .decode error => error.message
  | .nullByte => "embedded null byte"
  | .illegalName => "illegal environment variable name"

/-- How variables are added. Those that were added before an error stay. -/
abbrev Environment.Completion := Environment → Environment × Except EnvironmentError Unit

end LoadLedger
