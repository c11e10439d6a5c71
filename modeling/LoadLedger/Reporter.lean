import LoadLedger.Directories
import LoadLedger.Journal
import LoadLedger.Reporter.Sources
import LoadLedger.Text.UpperCase

/-! # Reporting

Messages of the program below a level are dropped; the others are written to the console and, if
there is one, to a log file, which is only ever added to. Before reporting is set up all of them are
dropped. Messages from elsewhere are not governed by the level: from warnings on, their bare text is
shown. Whether messages of a source pass at a level is decided once, and again only after reporting
was set up anew.
-/
namespace LoadLedger

/-- What a line says about when and where its message arose: the time of day for the console, the
date and time for a log file, and the place in the program. -/
structure Stamp where
  clock : Text
  moment : Text
  place : Text
  deriving DecidableEq

structure Reporter where
  level : Int
  console : Bool := false
  logFile : Option Location := none
  sources : Sources := []
  /-- Whether messages pass, by source and level, as far as that is decided. -/
  decisions : List ((Text × Int) × Bool) := []
  deriving DecidableEq

/-- Why reporting could not be set up. The names of the line format and of the table of styles are
known, but they are no levels. -/
inductive ReporterError
  | formatAsLevel
  | stylesAsLevel
  | file (error : FileError)
  deriving DecidableEq

namespace Reporter

def levels : List (Text × Int) :=
  [("CRITICAL", 50), ("FATAL", 50), ("ERROR", 40), ("WARNING", 30), ("WARN", 30), ("INFO", 20),
   ("DEBUG", 10), ("NOTSET", 0)]

def formatName : Text := "BASIC_FORMAT"

def stylesName : Text := "_STYLES"

/-- The level of a name in upper case; an unknown name means the level of information. -/
def levelOf (name : Text) : Except ReporterError Int :=
  if name = formatName then .error .formatAsLevel
  else if name = stylesName then .error .stylesAsLevel
  else .ok ((levels.lookup name).getD 20)

def warningLevel : Int := 30

def levelName (level : Int) : Text :=
  match levels.find? (·.2 = level) with
  | some (name, _) => name
  | none => "Level " ++ Numeral.ofInt level

/-- Level zero stands for the level of warnings. -/
def threshold (reporter : Reporter) : Int :=
  if reporter.level = 0 then warningLevel else reporter.level

def sinks (reporter : Reporter) : Nat :=
  (if reporter.console then 1 else 0) + (if reporter.logFile.isSome then 1 else 0)

def openLog (files : FileTree) (path : Text) : FileTree × Except FileError Location :=
  let directory := (FileTree.splitLast path).1
  let (files, made) :=
    if directory.isEmpty then (files, .ok ()) else files.ensureText directory
  match made with
  | .error error => (files, .error error)
  | .ok () =>
    match files.openForAppend (files.absolute path) with
    | .error error => (files, .error error)
    | .ok (files, location) => (files, .ok location)

/-- Sets the level, the console and the log file. What was set before an error stays. -/
def configure (reporter : Reporter) (files : FileTree) (level : Text) (logFile : Option Text) :
    Reporter × FileTree × Except ReporterError Unit :=
  match levelOf level.upper with
  | .error error => (reporter, files, .error error)
  | .ok level =>
    let reporter : Reporter := { level, console := true, sources := reporter.sources }
    match logFile with
    | none | some [] => (reporter, files, .ok ())
    | some path =>
      match openLog files path with
      | (files, .error error) => (reporter, files, .error (.file error))
      | (files, .ok location) => ({ reporter with logFile := some location }, files, .ok ())

def line (fields : List Text) : Text := Text.join " - " fields ++ [CodePoint.lineFeed]

/-- The line that a message leaves in a log file. One that has no UTF-8 form is not written. -/
def logLine (stamp : Stamp) (source : Text) (level : Int) (message : Text) : Bytes :=
  match Utf8.encode
    (line [stamp.moment, source, levelName level, "[" ++ stamp.place ++ "]", message]) with
  | .error _ => []
  | .ok bytes => bytes

def governs (reporter : Reporter) (source : Text) : Bool := reporter.sources.isGoverned source

/-- Whether messages of a source pass at a level. -/
def passes (reporter : Reporter) (source : Text) (level : Int) : Bool :=
  (reporter.decisions.lookup (source, level)).getD
    (decide ((if reporter.governs source then reporter.threshold else warningLevel) ≤ level))

def decideOn (reporter : Reporter) (source : Text) (level : Int) : Reporter :=
  { reporter with
    sources := reporter.sources.meet source
    decisions := ((source, level), reporter.passes source level) :: reporter.decisions }

def write (reporter : Reporter) (files : FileTree) (stamp : Stamp) (source : Text) (level : Int)
    (message : Text) : Text × FileTree :=
  (if reporter.console then line [stamp.clock, source, levelName level, message] else [],
    match reporter.logFile with
    | none => files
    | some location => files.appendAt location (logLine stamp source level message))

def report (reporter : Reporter) (files : FileTree) (stamp : Stamp) (source : Text) (level : Int)
    (message : Text) : Reporter × Text × FileTree :=
  (reporter.decideOn source level,
    if !reporter.passes source level then ([], files)
    else if reporter.governs source then reporter.write files stamp source level message
    else (if level < warningLevel then [] else message ++ [CodePoint.lineFeed], files))

def reportNote (reporter : Reporter) (files : FileTree) (stamp : Stamp) (note : Note) :
    Reporter × Text × FileTree :=
  reporter.report files stamp note.source note.severity.rank note.message

def loggedNote (reporter : Reporter) (stamp : Stamp) (note : Note) : Bytes :=
  if reporter.passes note.source note.severity.rank then
    logLine stamp note.source note.severity.rank note.message
  else []

def logsTo (reporter : Reporter) (files : FileTree) (path : Text) : Bool :=
  match reporter.logFile, files.place path with
  | some log, .ok (.entry location) => log = location
  | _, _ => false

def reportAll (reporter : Reporter) (files : FileTree) (stamp : Stamp) :
    List Note → Reporter × Text × FileTree
  | [] => (reporter, [], files)
  | note :: notes =>
    let (reporter, first, files) := reporter.reportNote files stamp note
    let (reporter, rest, files) := reportAll reporter files stamp notes
    (reporter, first ++ rest, files)

/-- A log file that was replaced between two moments is no longer the one that was opened, and gets
no more lines. -/
def dropReplacedLog (reporter : Reporter) (before after : FileTree) : Reporter :=
  match reporter.logFile with
  | none => reporter
  | some location =>
    if before.node? location = after.node? location then reporter
    else { reporter with logFile := none }

end Reporter

/-- A line format: the names of its fields, each between the marks of its style. -/
def ReporterError.styledFormat (before after : Text) : Text :=
  Text.join [CodePoint.colon]
    ((["levelname", "name", "message"] : List Text).map fun field => before ++ field ++ after)

def ReporterError.styles : Text :=
  let formatOf : List (Text × Text × Text) :=
    [("%", "PercentStyle", styledFormat "%(" ")s"),
     ("\x7b", "StrFormatStyle", styledFormat "\x7b" "\x7d"),
     ("$", "StringTemplateStyle", styledFormat "$\x7b" "\x7d")]
  let entry : Text × Text × Text → Text := fun (sign, kind, format) =>
    sign.quoted ++ ": (<class 'logging." ++ kind ++ "'>, " ++ format.quoted ++ ")"
  "\x7b" ++ Text.join ", " (formatOf.map entry) ++ "\x7d"

def ReporterError.message : ReporterError → Text
  | .formatAsLevel => "Unknown level: " ++ (styledFormat "%(" ")s").quoted
  | .stylesAsLevel => "Level not an integer or a valid string: " ++ styles
  | .file error => error.message

end LoadLedger
