import LoadLedger.Binary64.Reading
import LoadLedger.Environment
import LoadLedger.Isa
import LoadLedger.PathName
import LoadLedger.Text.Quoted
import LoadLedger.Text.UpperCase

/-! # Settings

The settings come from environment variables, which are completed first. Once read, settings are
kept, so later changes of the variables do not touch them.
-/
namespace LoadLedger

structure Settings where
  directory : Text
  fileName : Text
  delay : Binary64
  abis : List Text
  level : Text
  logFile : Option Text
  deriving DecidableEq

/-- Why settings cannot be read: the environment cannot be completed, or the delay is not a
number. -/
inductive SettingsError
  | environment (error : EnvironmentError)
  | delay (text : Text)
  deriving DecidableEq

def SettingsError.message : SettingsError → Text
  | .environment error => error.message
  | .delay text => "could not convert string to float: " ++ text.quoted

namespace Settings

def defaultAbis : List Text := ["arm64-v8a", "armeabi-v7a", "armeabi"]

/-- The items of a list between commas; blank ones do not count. -/
def splitList (text : Text) : List Text :=
  ((text.split CodePoint.comma).map Text.strip).filter (!·.isEmpty)

def filePath (settings : Settings) : PathName :=
  (PathName.ofText settings.directory).append (.ofText settings.fileName)

def ofEnvironment (environment : Environment) : Except SettingsError Settings :=
  let valueOf (name default : Text) : Text := (environment.find? name).getD default
  let delay := valueOf "DEX_USAGE_WRITE_DELAY_SECONDS" "10.0"
  let abis := valueOf "DEX_USAGE_SUPPORTED_ABIS" ""
  let logFile := valueOf "DEX_USAGE_LOG_FILE" ""
  match Binary64.read? delay with
  | none => .error (.delay delay)
  | some seconds => .ok
      { directory := valueOf "DEX_USAGE_DIR" "data/system/"
        fileName := valueOf "DEX_USAGE_FILE" "package-dex-usage.list"
        delay := seconds
        abis := if abis.isEmpty then defaultAbis else splitList abis
        level := (valueOf "DEX_USAGE_LOG_LEVEL" "INFO").upper
        logFile := if logFile.isEmpty then none else some logFile }

end Settings

/-- Where settings come from: the variables, and how they are completed. The settings first read are
kept. -/
structure SettingsSource where
  environment : Environment := TextMap.empty
  complete : Environment.Completion := fun environment => (environment, .ok ())
  kept : Option Settings := none

namespace SettingsSource

/-- Reads the settings afresh. The variables that were added stay set, also after an error. -/
def load (source : SettingsSource) : SettingsSource × Except SettingsError Settings :=
  match source.complete source.environment with
  | (environment, .error error) => ({ source with environment }, .error (.environment error))
  | (environment, .ok ()) => ({ source with environment }, Settings.ofEnvironment environment)

def get (source : SettingsSource) : SettingsSource × Except SettingsError Settings :=
  match source.kept with
  | some settings => (source, .ok settings)
  | none =>
    match source.load with
    | (source, .ok settings) => ({ source with kept := some settings }, .ok settings)
    | failed => failed

end SettingsSource
end LoadLedger
