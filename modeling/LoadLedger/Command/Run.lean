import LoadLedger.Command
import LoadLedger.JsonText
import LoadLedger.Reporter
import LoadLedger.Store

/-! # Running commands

A run reads the settings, sets up reporting, loads the ledger and carries out one command. Commands
that change the ledger write it back at once.
-/
namespace LoadLedger

/-- An error that ends a run without a status. A void word is noticed where it has to serve as a
name or as a package with its users. -/
inductive Failure
  | settings (error : SettingsError)
  | reporter (error : ReporterError)
  | abi (error : UnsupportedAbi)
  | longNumber
  | voidName
  | voidPackage
  deriving DecidableEq

def Failure.message : Failure → Text
  | .settings error => error.message
  | .reporter error => error.message
  | .abi error => error.message
  | .longNumber => Numeral.tooLong
  | .voidName => "unhashable type: 'list'"
  | .voidPackage => "not enough values to unpack (expected 2, got 0)"

structure Ending where
  status : Except Failure Nat
  output : Text := []
  errors : Text := []
  files : FileTree

namespace Command

def settingsFor (file : Option Text) (settings : Settings) : Settings :=
  match file with
  | none | some [] => settings
  | some file =>
    let path := PathName.ofText file
    { settings with directory := path.parent.text, fileName := path.name }

def lineOf (text : Text) : Text := text ++ [CodePoint.lineFeed]

def yesNo (flag : Bool) : Text := if flag then "True" else "False"

def ownerJson : Owner → JsonValue
  | .user id => .int id
  | .noOne => .list []

def dexJson (dex : DexUse) : JsonValue :=
  .object
    [("owner_user_id", ownerJson dex.owner), ("is_used_by_other_apps", .bool dex.usedByOthers),
     ("loader_isas", .list (dex.isas.keys.map .text))]

def packageJson (use : PackageUse) : JsonValue :=
  .object
    [("is_used_by_other_apps", .bool use.usedByOthers),
     ("dex_files", .object (use.dexFiles.entries.map fun (path, dex) => (path, dexJson dex)))]

def dexLine (path : Text) (dex : DexUse) : Text :=
  lineOf ("  " ++ path ++ " user=" ++ dex.owner.text ++ " other_apps=" ++
    yesNo dex.usedByOthers ++ " isas=" ++ Text.join [CodePoint.comma] dex.isas.keys)

def packageText (name : Text) (use : PackageUse) : Text :=
  lineOf (name ++ " (used by other apps: " ++ yesNo use.usedByOthers ++ ")") ++
    use.dexFiles.entries.flatMap fun (path, dex) => dexLine path dex

/-- The names of all packages, or what is known of one; none if nothing is known of it. -/
def inspection (ledger : Ledger) (package : Option Text) (asJson : Bool) : Option Text :=
  match package with
  | none =>
    some (if asJson then lineOf (JsonValue.list (ledger.keys.map .text)).render
      else ledger.keys.flatMap lineOf)
  | some name =>
    (ledger.find? name).map fun use =>
      if asJson then lineOf (JsonValue.object [(name, packageJson use)]).render
      else packageText name use

structure Step where
  status : Except Failure Nat
  output : Text := []
  complaint : Text := []
  store : Store
  files : FileTree
  notes : List Note := []

def save (store : Store) (files : FileTree) (output : Text) (notes : List Note) : Step :=
  let outcome := store.writeNow files
  { status := .ok (if outcome.result then 0 else 1)
    output, store := outcome.state, files := outcome.files, notes := notes ++ outcome.notes }

def refuse (store : Store) (files : FileTree) (complaint : Text) : Step :=
  { status := .ok 1, complaint := lineOf complaint, store, files }

def refuseRecord (store : Store) (files : FileTree) (error : RecordError) : Step :=
  refuse store files ("error: " ++ error.message)

/-- Records the load that the words of a command describe. An instruction set outside the vocabulary
is refused before any void word is noticed. -/
def recordLoad (words : LoadWords) (store : Store) (files : FileTree) : Step :=
  match words.load?, words.isa with
  | some load, _ =>
    match store.record load with
    | .error .longNumber => { status := .error .longNumber, store, files }
    | .error error => refuseRecord store files error
    | .ok (store, news) =>
      save store files (lineOf (if news then "recorded new usage" else "usage already known")) []
  | none, some isa =>
    if store.vocabulary.contains isa then { status := .error .voidName, store, files }
    else refuseRecord store files (.unsupportedIsa isa)
  | none, none => { status := .error .voidName, store, files }

def execute (command : Command) (store : Store) (files : FileTree) : Step :=
  match command with
  | .dump => { status := .ok 0, output := store.dump, store, files }
  | .inspect package asJson =>
    match inspection store.ledger package asJson with
    | some output => { status := .ok 0, output, store, files }
    | none => refuse store files ("No usage recorded for " ++ package.getD [])
  | .record words => recordLoad words store files
  | .sync none => { status := .error .voidPackage, store, files }
  | .sync (some installed) =>
    let (pruned, notes) := store.prune installed
    let output := "synced: " ++ Numeral.ofNat store.ledger.size ++ " -> " ++
      Numeral.ofNat pruned.ledger.size ++ " packages"
    save pruned files (lineOf output) notes
  | .reset confirmed =>
    if confirmed then save store.clear files (lineOf "usage data cleared") []
    else refuse store files "Refusing to reset without --confirm"

/-- Loads the ledger. If the log file is the very file of the ledger, it grows while it is read. -/
def load (store : Store) (files : FileTree) (reporter : Reporter) (stamp : Stamp) :
    Outcome Store Bool :=
  if reporter.logsTo files store.path.text then
    store.loadEchoing files fun remark => reporter.loggedNote stamp (.remark remark)
  else store.load files

def runWith (request : Request) (settings : Settings) (reporter : Reporter) (stamp : Stamp)
    (files : FileTree) : Ending :=
  let settings := settingsFor request.file settings
  match reporter.configure files settings.level settings.logFile with
  | (_, files, .error error) => { status := .error (.reporter error), files }
  | (reporter, files, .ok ()) =>
    match Store.ofSettings settings with
    | .error error => { status := .error (.abi error), files }
    | .ok store =>
      let loading := load store files reporter stamp
      let (reporter, before, files) := reporter.reportAll loading.files stamp loading.notes
      let step := execute request.command loading.state files
      let reporter := reporter.dropReplacedLog files step.files
      let (_, after, files) := reporter.reportAll step.files stamp step.notes
      { status := step.status, output := step.output
        errors := before ++ (step.complaint ++ after), files }

def usageError (program message : Text) : Text :=
  lineOf (program ++ ": error: " ++ message)

/-- Runs a command line. Misuse ends with status 2, before any file is looked at. -/
def run (words : List Text) (source : SettingsSource) (stamp : Stamp) (files : FileTree) :
    Ending :=
  match parse words with
  | .error .help => { status := .ok 0, files }
  | .error (.misuse program message) =>
    { status := .ok 2, errors := usageError program message, files }
  | .ok request =>
    match source.get.2 with
    | .error error => { status := .error (.settings error), files }
    | .ok settings => runWith request settings { level := 0 } stamp files

end Command
end LoadLedger
