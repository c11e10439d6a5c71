import LoadLedger.Environment
import LoadLedger.LineFeed
import LoadLedger.Program.Assignments
import LoadLedger.Program.Reference

/-! # Variables from a file

A file of assignments adds variables to the environment, unless a variable switches that off. It
never changes a variable that is set. In the values of the file, references stand for variables that
are set or were assigned further up.
-/
namespace LoadLedger.Environment

def assign (environment : Environment) (name value : Text) :
    Except EnvironmentError Environment :=
  if name.contains 0 || value.contains 0 then .error .nullByte
  else if name.contains CodePoint.equalsSign then .error .illegalName
  else .ok (environment.insert name value)

/-- Sets those variables that have a value and are not set yet. What was set before an error
stays. -/
def assignMissing (environment : Environment) :
    List Assignments.Assignment → Environment × Except EnvironmentError Unit
  | [] => (environment, .ok ())
  | (name, value) :: rest =>
    match if environment.contains name then none else value with
    | none => environment.assignMissing rest
    | some value =>
      match environment.assign name value with
      | .error error => (environment, .error error)
      | .ok environment => environment.assignMissing rest

/-- Gives a name its latest value, at the place where the name came first. -/
def restate (known : List Assignments.Assignment) (name : Text) (value : Option Text) :
    List Assignments.Assignment :=
  match known with
  | [] => [(name, value)]
  | (other, old) :: rest =>
    if other = name then (name, value) :: rest else (other, old) :: restate rest name value

/-- The assignments with all references replaced, each name once. A reference means the variable
that is set, or else the assignment further up; a name declared without value is empty. -/
def resolve (environment : Environment) (assignments : List Assignments.Assignment) :
    List Assignments.Assignment :=
  assignments.foldl (fun known (name, value) =>
    let valueOf (name : Text) : Option Text :=
      (environment.find? name).or ((known.lookup name).map (·.getD []))
    restate known name (value.map (Reference.expand valueOf))) []

/-- A letter in lower case, where it stands for one in a word of consent. -/
def foldLetter (c : CodePoint) : CodePoint :=
  if 65 ≤ c.val ∧ c.val ≤ 90 then CodePoint.ofNat (c.val + 32)
  else if c = 0x17F then 115
  else c

def consents (value : Text) : Bool :=
  (["1", "true", "t", "yes", "y"] : List Text).contains (value.map foldLetter)

def offSwitch : Text := "PYTHON_DOTENV_DISABLED"

/-- The assignments of a file. A byte order mark in front of them is not part of the text. -/
def readAssignments (content : Bytes) : Except Utf8.DecodeError (List Assignments.Assignment) :=
  (Utf8.decode content).map fun text =>
    Assignments.parse (LineFeed.unify (Utf8.withoutMark text))

def addFile (environment : Environment) (content : Bytes) :
    Environment × Except EnvironmentError Unit :=
  if ((environment.find? offSwitch).map consents).getD false then (environment, .ok ())
  else
    match readAssignments content with
    | .error error => (environment, .error (.decode error))
    | .ok assignments => environment.assignMissing (environment.resolve assignments)

end LoadLedger.Environment
