import LoadLedger.Command.Run
import LoadLedger.Program.Variables
import Std.Time

/-! # The program

Reads the variables and the files that a command can touch, runs the command on them, and carries
the changes out on disk.
-/
namespace LoadLedger.Program

def shown (text : Text) : String :=
  String.ofList (text.flatMap fun c =>
    (if c.IsSurrogate then Text.escapeByWidth c else [c]).map fun c => Char.ofNat c.val)

def variableNames : List String :=
  ["DEX_USAGE_DIR", "DEX_USAGE_FILE", "DEX_USAGE_WRITE_DELAY_SECONDS", "DEX_USAGE_SUPPORTED_ABIS",
   "DEX_USAGE_LOG_LEVEL", "DEX_USAGE_LOG_FILE"]

/-- The variables that settings look at, and those that the file of assignments refers to. -/
def readSource : IO SettingsSource := do
  let content ← try IO.FS.readBinFile ".env" catch _ => pure ByteArray.empty
  let assignments := content.toList
  let named := match Environment.readAssignments assignments with
    | .error _ => []
    | .ok read => read.flatMap fun (assignment : Assignments.Assignment) =>
      assignment.1 :: Reference.names (assignment.2.getD [])
  let names := variableNames ++ shown Environment.offSwitch :: named.map shown
  let values ← names.filterMapM fun name => do
    return (← IO.getEnv name).map fun value => (Text.ofString name, Text.ofString value)
  return { environment := TextMap.ofList values, complete := (·.addFile assignments) }

def nameOf (name : String) : FileName := .plain name.toUTF8.toList

/-- The path of a location, for the file system. -/
def pathOf (location : Location) : String :=
  "/" ++ "/".intercalate (location.map fun name => shown (FileTree.nameText name))

def touched (words : List Text) (source : SettingsSource) : List Text :=
  match Command.parse words, source.get.2 with
  | .ok request, .ok settings =>
    let settings := Command.settingsFor request.file settings
    settings.filePath.text :: settings.logFile.toList
  | _, _ => []

def addFromDisk (files : FileTree) (location : Location) : IO FileTree := do
  let root ← IO.currentDir
  let mut files := files
  for n in [0:location.length] do
    let part := location.take (n + 1)
    let path := root / pathOf part
    if ← path.isDir then files := files.put part .directory
    else if ← path.pathExists then
      let content ← IO.FS.readBinFile path
      files := files.put part (.file content.toList)
  return files

def readFiles (paths : List Text) : IO FileTree := do
  let current ← IO.currentDir
  let home : Location := (current.components.filter (!·.isEmpty)).map nameOf
  let files ← addFromDisk { home := home } home
  paths.foldlM (fun files path =>
    addFromDisk files ((PathName.ofText (files.absolute path)).parts.map fun part =>
      nameOf (shown part))) files

/-- Carries out what has changed. A file is replaced by renaming. -/
def writeFiles (before after : FileTree) : IO Unit := do
  for (location, node) in after.nodes.reverse do
    if before.node? location != some node then
      let path := pathOf location
      match node with
      | .directory => IO.FS.createDirAll path
      | .file content =>
        let draft := path ++ ".tmp"
        IO.FS.writeBinFile draft (ByteArray.mk content.toArray)
        IO.FS.rename draft path

def currentStamp : IO Stamp := do
  let now ← Std.Time.PlainDateTime.now
  return {
    clock := Text.ofString (now.format "HH:mm:ss")
    moment := Text.ofString (now.format "uuuu-MM-dd HH:mm:ss")
    place := Command.program }

end LoadLedger.Program

open LoadLedger LoadLedger.Program in
def main (arguments : List String) : IO UInt32 := do
  let words := arguments.map Text.ofString
  let source ← readSource
  let files ← readFiles (touched words source)
  let ending := Command.run words source (← currentStamp) files
  writeFiles files ending.files
  IO.print (shown ending.output)
  IO.eprint (shown ending.errors)
  match ending.status with
  | .ok status => return status.toUInt32
  | .error failure =>
    IO.eprintln (shown failure.message)
    return 1
