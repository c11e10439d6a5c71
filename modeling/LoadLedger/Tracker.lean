import LoadLedger.Store

/-! # Tracking loads

A tracker records loads in a store and, if it is told to keep the file up to date, asks for a write
after every load that was news and after every pruning.
-/
namespace LoadLedger

structure Tracker where
  store : Store
  autoPersist : Bool := true
  deriving DecidableEq

def Outcome.ofStore {α : Type} (tracker : Tracker) (outcome : Outcome Store α) :
    Outcome Tracker α where
  result := outcome.result
  state := { tracker with store := outcome.state }
  files := outcome.files
  notes := outcome.notes

namespace Tracker

def persist (tracker : Tracker) (files : FileTree) : Outcome Tracker Unit :=
  if tracker.autoPersist then
    { Outcome.ofStore tracker (tracker.store.requestWrite files) with result := () }
  else { result := (), state := tracker, files }

def record (tracker : Tracker) (files : FileTree) (load : Load) :
    Outcome Tracker (Except RecordError Bool) :=
  match tracker.store.record load with
  | .error error => { result := .error error, state := tracker, files }
  | .ok (store, false) => { result := .ok false, state := { tracker with store }, files }
  | .ok (store, true) =>
    { ({ tracker with store } : Tracker).persist files with result := .ok true }

def prune (tracker : Tracker) (files : FileTree) (installed : Installed) : Outcome Tracker Unit :=
  let (store, notes) := tracker.store.prune installed
  let outcome := ({ tracker with store } : Tracker).persist files
  { outcome with notes := notes ++ outcome.notes }

def clear (tracker : Tracker) (files : FileTree) : Outcome Tracker Unit :=
  { result := (), state := { tracker with store := tracker.store.clear }, files }

def load (tracker : Tracker) (files : FileTree) : Outcome Tracker Bool :=
  .ofStore tracker (tracker.store.load files)

def requestWrite (tracker : Tracker) (files : FileTree) : Outcome Tracker Bool :=
  .ofStore tracker (tracker.store.requestWrite files)

def writeOn (machine : Machine) (tracker : Tracker) (files : FileTree) :
    Outcome Tracker (Except WriteError Bool) :=
  .ofStore tracker (tracker.store.writeOn machine files)

def runPending (tracker : Tracker) (files : FileTree) (machine : Machine := .sound) :
    Outcome Tracker (Except WriteError Unit) :=
  .ofStore tracker (tracker.store.runPending files machine)

def close (tracker : Tracker) (files : FileTree) (machine : Machine := .sound) :
    Outcome Tracker (Except WriteError Unit) :=
  let outcome := Outcome.ofStore tracker (tracker.store.flush files machine)
  { outcome with
    result := outcome.result.map fun _ => ()
    notes := outcome.notes ++ match outcome.result with
      | .ok false => [.closedUnsaved]
      | _ => [] }

/-- Runs a block on a tracker and closes the tracker, however the block ends. An error in closing
takes the place of what the block ended with. -/
def within {α : Type} (tracker : Tracker) (files : FileTree)
    (body : Tracker → FileTree → Outcome Tracker α) (machine : Machine := .sound) :
    Outcome Tracker (Except WriteError α) :=
  let outcome := body tracker files
  let closing := outcome.state.close outcome.files machine
  { closing with
    result := closing.result.map fun _ => outcome.result
    notes := outcome.notes ++ closing.notes }

end Tracker
end LoadLedger
