import LoadLedger.Command.Grammar
import LoadLedger.Ledger
import LoadLedger.Text.Blank

/-! # Commands

The commands of the command line and how they are written. One command works on one file; the flag
for the file stands before the command.
-/
namespace LoadLedger

/-- A load as a command line describes it, where words may be void. -/
structure LoadWords where
  package : Option Text := none
  path : Option Text := none
  owner : Owner := .noOne
  isa : Option Isa := none
  usedByOthers : Bool := false
  primaryOrSplit : Bool := false
  deriving DecidableEq

/-- The load that is described, if no word that counts is void. The path of a primary or split file
does not count, and a void user owns nothing. -/
def LoadWords.load? (words : LoadWords) : Option Load :=
  match words.package, words.isa, words.path, words.primaryOrSplit with
  | some package, some isa, some path, _ => some (load package isa path)
  | some package, some isa, none, true => some (load package isa [])
  | _, _, _, _ => none
where
  load (package : Text) (isa : Isa) (path : Text) : Load :=
    { package, path, owner := words.owner, isa, usedByOthers := words.usedByOthers
      primaryOrSplit := words.primaryOrSplit }

/-- The packages to keep are none if one of them was left void. -/
inductive Command
  | dump
  | inspect (package : Option Text) (asJson : Bool)
  | record (words : LoadWords)
  | sync (installed : Option Installed)
  | reset (confirmed : Bool)
  deriving DecidableEq

structure Request where
  file : Option Text
  command : Command
  deriving DecidableEq

def Installed.addUsers (installed : Installed) (package : Text) (users : List Int) : Installed :=
  installed.insert package ((installed.find? package).getD [] ++ users)

namespace Command

/-- Reads `NAME=UID[,UID...]`; blank ids do not count, so there may be none. -/
def readUsers (text : Text) : Except Text (Text × List Int) :=
  match text.cut CodePoint.equalsSign with
  | ([], _) | (_, none) => .error ("expected NAME=UID[,UID...], got " ++ text.quoted)
  | (package, some users) =>
    match ((users.split CodePoint.comma).filter (!·.isBlank)).mapM Numeral.read? with
    | none => .error ("user ids must be integers: " ++ users.quoted)
    | some ids => .ok (package, ids)

def program : Text := "dex-usage"

def programOf (name : Text) : Text := program ++ " " ++ name

/-- A positional that takes one word at most. -/
def word {σ : Type} (name : Text) (arity : Arity) (set : σ → Option Text → σ) :
    Positional σ where
  name := name
  arity := arity
  take := fun value words => .ok (set value words.head?, [])

def switch {σ : Type} (name : Text) (set : σ → σ) : Flag σ where
  name := name
  meaning := .switch set

def dumpGrammar : Grammar Unit where
  program := programOf "dump"

def inspectGrammar : Grammar (Option Text × Bool) where
  program := programOf "show"
  positionals := [word "package" .optional fun (_, asJson) name => (name, asJson)]
  flags := [switch "--json" fun (package, _) => (package, true)]

def readOwner : Option Text → Except Text Owner
  | none => .ok .noOne
  | some text =>
    match Numeral.read? text with
    | some id => .ok (.user id)
    | none => .error ("invalid int value: " ++ text.quoted)

def recordGrammar : Grammar LoadWords where
  program := programOf "record"
  positionals :=
    [word "package" .one fun load package => { load with package },
     word "dex_path" .one fun load path => { load with path }]
  flags :=
    [{ name := "--user", required := true
       meaning := .argument fun load user => (readOwner user).map ({ load with owner := · }) },
     { name := "--isa", required := true
       meaning := .argument fun load isa => .ok { load with isa } },
     switch "--used-by-other-apps" fun load => { load with usedByOthers := true },
     switch "--primary" fun load => { load with primaryOrSplit := true }]

/-- Several options for one package add up; a void one spoils all. -/
def takeOption (installed : Option Installed) : Option Text → Except Text (Option Installed)
  | none => .ok none
  | some text =>
    (readUsers text).map fun (package, users) => installed.map (·.addUsers package users)

def packageFlag : Flag (Option Installed) where
  name := "--package"
  meaning := .argument takeOption

def syncGrammar : Grammar (Option Installed) where
  program := programOf "sync"
  flags := [packageFlag]

def resetGrammar : Grammar Bool where
  program := programOf "reset"
  flags := [switch "--confirm" fun _ => true]

def parseAs {σ : Type} (grammar : Grammar σ) (start : σ) (finish : σ → Command)
    (words : List Text) : Except Stop (Command × List Text) :=
  (grammar.parse start words).map fun (value, leftover) => (finish value, leftover)

def parsers : List (Text × (List Text → Except Stop (Command × List Text))) :=
  [("dump", parseAs dumpGrammar () fun _ => .dump),
   ("show", parseAs inspectGrammar (none, false) fun (package, asJson) => .inspect package asJson),
   ("record", parseAs recordGrammar {} .record),
   ("sync", parseAs syncGrammar (some TextMap.empty) .sync),
   ("reset", parseAs resetGrammar false .reset)]

/-- A file if one is named, and a command once there is one. A void file is none. -/
abbrev PartialRequest := Option Text × Option Command

def takeCommand (partialRequest : PartialRequest) :
    List Text → Except Stop (PartialRequest × List Text)
  | [] => .ok (partialRequest, [])
  | name :: words =>
    match parsers.lookup name with
    | none =>
      .error (.misuse program ("argument command: invalid choice: " ++ name.quoted ++
        " (choose from " ++ Text.join ", " (parsers.map (·.1.quoted)) ++ ")"))
    | some parse =>
      (parse words).map fun (command, leftover) => ((partialRequest.1, some command), leftover)

def takeFile : PartialRequest → Option Text → Except Text PartialRequest
  | (_, command), file => .ok (file, command)

def fileFlag : Flag PartialRequest where
  name := "--file"
  meaning := .argument takeFile

def grammar : Grammar PartialRequest where
  program := program
  positionals := [{ name := "command", arity := .rest, take := takeCommand }]
  flags := [fileFlag]

/-- The request that a command line makes. No word may be left over. -/
def parse (words : List Text) : Except Stop Request := do
  let ((file, command), leftover) ← grammar.parse (none, none) words
  match leftover, command with
  | [], some command => return ⟨file, command⟩
  | [], none => .error (.misuse program "the following arguments are required: command")
  | leftover, _ =>
    .error (.misuse program ("unrecognized arguments: " ++ Text.join " " leftover))

end Command
end LoadLedger
