import LoadLedger.Draft

/-! # What has become of several drafts

Drafts of one file are started, written, finished and discarded in any order. Each start that
succeeds gives its draft the next number; a step on a draft that has not been started is not taken.
The steps that succeeded tell what was written to a draft, whether it is still there and which one
was finished last.
-/
namespace LoadLedger.Drafting

inductive Step
  | start
  | write (handle : Nat) (piece : Text)
  | finish (handle : Nat)
  | discard (handle : Nat)
  deriving DecidableEq

namespace Step

def handle? : Step → Option Nat
  | .start => none
  | .write handle _ | .finish handle | .discard handle => some handle

def finished? : Step → Option Nat
  | .finish handle => some handle
  | _ => none

def textFor (handle : Nat) : Step → Text
  | .write handle' piece => if handle' = handle then piece else []
  | _ => []

theorem textFor_eq_nil {step : Step} {handle : Nat} (h : step.handle? ≠ some handle) :
    step.textFor handle = [] := by
  cases step with
  | write handle' piece =>
    have hne : handle' ≠ handle := fun heq => h (congrArg some heq)
    exact if_neg hne
  | _ => rfl

end Step

/-- Steps that succeeded, the latest first. -/
abbrev History := List Step

namespace History

variable {history : History} {step : Step} {handle : Nat}

def started (history : History) : Nat := history.count .start

def textOf (history : History) (handle : Nat) : Text := history.reverse.flatMap (Step.textFor handle)

def lastFinished (history : History) : Option Nat := history.findSome? Step.finished?

def Closed (history : History) (handle : Nat) : Prop :=
  Step.finish handle ∈ history ∨ Step.discard handle ∈ history

instance (history : History) (handle : Nat) : Decidable (history.Closed handle) :=
  inferInstanceAs (Decidable (_ ∨ _))

/-- The drafts that have been started and neither finished nor discarded. -/
def Live (history : History) (handle : Nat) : Prop :=
  handle < history.started ∧ ¬history.Closed handle

theorem started_cons_start (history : History) : started (.start :: history) = history.started + 1 :=
  List.count_cons_self

theorem started_cons (h : step.handle? = some handle) :
    started (step :: history) = history.started := by
  refine List.count_cons_of_ne fun heq => ?_
  rw [heq] at h
  cases h

theorem textOf_cons : textOf (step :: history) handle = history.textOf handle ++ step.textFor handle := by
  simp [textOf]

theorem textOf_cons_of_ne (h : step.handle? ≠ some handle) :
    textOf (step :: history) handle = history.textOf handle := by
  rw [textOf_cons,Step.textFor_eq_nil h,List.append_nil]

theorem closed_cons_of_ne (h : step.handle? ≠ some handle) :
    Closed (step :: history) handle ↔ history.Closed handle := by
  have hfinish : step ≠ .finish handle := by
    rintro rfl
    exact h rfl
  have hdiscard : step ≠ .discard handle := by
    rintro rfl
    exact h rfl
  simp only [Closed,List.mem_cons,Ne.symm hfinish,Ne.symm hdiscard,false_or]

theorem closed_of_lastFinished (h : history.lastFinished = some handle) : history.Closed handle := by
  obtain ⟨step,hmem,hstep⟩ := List.exists_of_findSome?_eq_some h
  cases step with
  | finish handle' =>
    obtain rfl := Option.some.inj hstep
    exact .inl hmem
  | _ => cases hstep

theorem lastFinished_cons (h : step.finished? = none) :
    lastFinished (step :: history) = history.lastFinished := by
  simp [lastFinished,h]

theorem textOf_eq_nil (h : ∀ step ∈ history, step.handle? ≠ some handle) :
    history.textOf handle = [] := by
  refine List.flatMap_eq_nil_iff.2 fun step hstep => Step.textFor_eq_nil ?_
  exact h step (List.mem_reverse.1 hstep)

theorem not_closed (h : ∀ step ∈ history, step.handle? ≠ some handle) : ¬history.Closed handle := by
  rintro (hmem | hmem)
  · exact h _ hmem rfl
  · exact h _ hmem rfl

end History

/-! ## Taking steps -/

/-- Takes a step; a draft that is started gets the number `fresh`. -/
def perform (drafting : Drafting) (fresh : Nat) : Step → Drafting × Except FileError Unit
  | .start => drafting.start fresh
  | .write handle piece =>
    let (drafting,result) := drafting.write handle piece
    (drafting,result.map fun _ => ())
  | .finish handle => drafting.finish handle
  | .discard handle => drafting.discard handle

structure Writers where
  drafting : Drafting
  history : History := []

namespace Writers

def take (writers : Writers) (step : Step) : Writers :=
  match writers.drafting.perform writers.history.started step with
  | (drafting,.ok ()) => ⟨drafting,step :: writers.history⟩
  | (drafting,.error _) => ⟨drafting,writers.history⟩

def next (writers : Writers) (step : Step) : Writers :=
  if step.handle?.all (· < writers.history.started) then writers.take step else writers

def run (drafting : Drafting) (steps : List Step) : Writers := steps.foldl next { drafting }

theorem next_of_handle? {writers : Writers} {step : Step} {handle : Nat}
    (hstep : step.handle? = some handle) (hhandle : handle < writers.history.started) :
    writers.next step = writers.take step := by
  have htaken : step.handle?.all (· < writers.history.started) = true := by
    simpa [hstep] using hhandle
  exact if_pos htaken

end Writers

/-! ## Drafts by their numbers -/

variable {drafting : Drafting} {draft : Draft}

theorem draft?_set (id id' : Int) :
    (drafting.set id draft).draft? id' = if id' = id then some draft else drafting.draft? id' := by
  simp only [draft?,set,List.lookup_cons]
  by_cases h : id' = id
  · simp [h]
  · have hne : (id' == id) = false := by simpa using h
    rw [hne,if_neg h]

theorem write_of_draft? {id : Int} (h : drafting.draft? id = some draft) (piece : Text) :
    drafting.write id piece = match draft.write piece with
      | .error error => (drafting,.error error)
      | .ok draft => (drafting.set id draft,.ok piece.length) := by
  cases hpiece : draft.write piece with
  | error error => simp [write,h,hpiece]
  | ok later => simp [write,h,hpiece]

theorem finish_of_draft? {id : Int} (h : drafting.draft? id = some draft) :
    drafting.finish id = match draft.finish drafting.files drafting.path with
      | (draft,files,result) => ({ drafting with files }.set id draft,result) := by
  rw [finish,h]

theorem discard_of_draft? {id : Int} (h : drafting.draft? id = some draft) :
    drafting.discard id = match draft.discard drafting.files with
      | (draft,files,result) => ({ drafting with files }.set id draft,result) := by
  rw [discard,h]

end LoadLedger.Drafting
