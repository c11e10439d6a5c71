import LoadLedger.Tracker

/-! # Sessions

A session is a tracker at work: one operation after the other, among them the pending write
whenever it comes to run, while other programs change files as they like and the machine may refuse
to do its part in a write. What matters for the file is remembered: writes that succeeded, errors
that passed through a write, loads that succeeded, and clearings.
-/
namespace LoadLedger

inductive Happening
  | wrote
  | raised
  | cleared
  | loaded
  deriving DecidableEq

def Note.happening? : Note → Option Happening
  | .wrote _ _ => some .wrote
  | .loaded _ _ => some .loaded
  | _ => none

/-- Looking is asking for a record, for the names or for the listing. Closing is also how a block
ends, with or without an error. -/
inductive Operation
  | record (seen : Load)
  | look
  | prune (installed : Installed)
  | clear
  | load
  | requestWrite
  | writeNow (machine : Machine := .sound)
  | runPending (machine : Machine := .sound)
  | close (machine : Machine := .sound)

/-- An outcome of which only the error counts that a write lets through. -/
def Outcome.forget {σ α : Type} (outcome : Outcome σ α) : Outcome σ (Except WriteError Unit) :=
  { outcome with result := .ok () }

namespace Operation

def carryOut (tracker : Tracker) (files : FileTree) :
    Operation → Outcome Tracker (Except WriteError Unit)
  | .record seen => (tracker.record files seen).forget
  | .look => { result := .ok (), state := tracker, files }
  | .prune installed => (tracker.prune files installed).forget
  | .clear => (tracker.clear files).forget
  | .load => (tracker.load files).forget
  | .requestWrite => (tracker.requestWrite files).forget
  | .writeNow machine =>
    let outcome := tracker.writeOn machine files
    { outcome with result := outcome.result.map fun _ => () }
  | .runPending machine => tracker.runPending files machine
  | .close machine => tracker.close files machine

def machine : Operation → Machine
  | .writeNow machine | .runPending machine | .close machine => machine
  | _ => .sound

/-- Neither clearing nor an error leaves a note. -/
def happenings (outcome : Outcome Tracker (Except WriteError Unit)) : Operation → List Happening
  | .clear => [.cleared]
  | _ => outcome.notes.filterMap Note.happening? ++
    match outcome.result with
    | .ok () => []
    | .error _ => [.raised]

end Operation

structure Session where
  tracker : Tracker
  files : FileTree
  /-- What has happened, the latest first. -/
  history : List Happening := []

namespace Session

def run (session : Session) (operation : Operation) : Session :=
  let outcome := operation.carryOut session.tracker session.files
  { tracker := outcome.state
    files := outcome.files
    history := (operation.happenings outcome).reverse ++ session.history }

/-- What a session can come to that begins with an empty tracker told to keep its file up to date.
Other programs may do anything but change the file of the tracker once it is there. -/
inductive Reachable (vocabulary : Vocabulary) (path : PathName) (delay : Binary64) : Session → Prop
  | start (files : FileTree) :
    Reachable vocabulary path delay
      { tracker := { store := .create vocabulary path delay, autoPersist := true }, files }
  | run {session : Session} (operation : Operation) : Reachable vocabulary path delay session →
    Reachable vocabulary path delay (session.run operation)
  | elsewhere {session : Session} (files : FileTree) : Reachable vocabulary path delay session →
    (∀ content, session.files.contentOf path.text = .ok content →
      files.contentOf path.text = .ok content) →
    Reachable vocabulary path delay { session with files }

/-- A block, whatever is done in it and however it is left, ends like a session that is closed. -/
theorem within_eq_close {α : Type} (tracker : Tracker) (files : FileTree)
    (body : Tracker → FileTree → Outcome Tracker α) (machine : Machine)
    (history : List Happening) :
    let inner : Session := ⟨(body tracker files).state,(body tracker files).files,history⟩
    (tracker.within files body machine).state = (inner.run (.close machine)).tracker ∧
      (tracker.within files body machine).files = (inner.run (.close machine)).files :=
  ⟨rfl,rfl⟩

/-- No clearing and no loading since the last write, or ever if nothing was written. -/
def Undisturbed (history : List Happening) : Prop :=
  .cleared ∉ history.takeWhile (· ≠ .wrote) ∧ .loaded ∉ history.takeWhile (· ≠ .wrote)

/-- No error has passed through a write since the last that succeeded, or ever if none did. -/
def Unbroken (history : List Happening) : Prop := .raised ∉ history.takeWhile (· ≠ .wrote)

end Session
end LoadLedger
