import LoadLedger.Proofs.Store.Loading
import LoadLedger.Proofs.Store.Writing

/-! # No request to write is forgotten

A store at work is asked for writes, told to write or to flush, and loads its file, in any order. Its
pending write runs whenever it comes to it. In between its ledger changes, other programs do to the
files what they like, and the machine may refuse to do its part, so any write may fail. The invariant:
a store that is dirty has a write pending, or its last attempt to write has failed.
-/
namespace LoadLedger

inductive Attempt
  | succeeded
  | failed
  | raised
  deriving DecidableEq

def Attempt.ofResult : Except WriteError Bool → Attempt
  | .ok true => .succeeded
  | .ok false => .failed
  | .error _ => .raised

def Note.attempt? : Note → Option Attempt
  | .wrote _ _ => some .succeeded
  | .writeFailed _ _ => some .failed
  | _ => none

/-- The attempts made in an operation. One is reported unless an error passes through it. -/
def Outcome.attempts {α : Type} (outcome : Outcome Store (Except WriteError α)) : List Attempt :=
  outcome.notes.filterMap Note.attempt? ++
    match outcome.result with
    | .ok _ => []
    | .error _ => [.raised]

theorem Outcome.attempts_map {α β : Type} (outcome : Outcome Store (Except WriteError α))
    (convert : α → β) :
    { outcome with result := outcome.result.map convert : Outcome Store _ }.attempts =
      outcome.attempts := by
  unfold attempts
  cases outcome.result <;> rfl

namespace Store

/-- What may happen to a store. Its ledger may also be replaced as a whole. -/
inductive Step
  | record (seen : Load)
  | prune (installed : Installed)
  | clear
  | replace (ledger : Ledger)
  | load
  | requestWrite
  | write (machine : Machine)
  | runPending (machine : Machine)
  | flush (machine : Machine)
  | elsewhere (files : FileTree)

/-- A store and the files around it, with the attempts to write, the latest last. -/
structure Work where
  store : Store
  files : FileTree
  attempts : List Attempt := []

namespace Work

def follow {α : Type} (work : Work) (outcome : Outcome Store (Except WriteError α)) : Work where
  store := outcome.state
  files := outcome.files
  attempts := work.attempts ++ outcome.attempts

def step (work : Work) : Step → Work
  | .record seen =>
    match work.store.record seen with
    | .ok (store,_) => { work with store }
    | .error _ => work
  | .prune installed => { work with store := (work.store.prune installed).1 }
  | .clear => { work with store := work.store.clear }
  | .replace ledger => { work with store := { work.store with ledger } }
  | .load => work.follow (work.store.load work.files).returned
  | .requestWrite => work.follow (work.store.requestWrite work.files).returned
  | .write machine => work.follow (work.store.writeOn machine work.files)
  | .runPending machine => work.follow (work.store.runPending work.files machine)
  | .flush machine => work.follow (work.store.flush work.files machine)
  | .elsewhere files => { work with files }

end Work

/-! ## Single operations -/

theorem writeOn_attempt (machine : Machine) (store : Store) (files : FileTree) :
    let outcome := store.writeOn machine files
    outcome.attempts = [.ofResult outcome.result] ∧
    outcome.state = { store with
      dirty := Attempt.ofResult outcome.result = .failed
      written := store.written || Attempt.ofResult outcome.result = .succeeded } := by
  obtain ⟨_,_,-,-,-,hwrite⟩ | ⟨_,_,hwrite⟩ | ⟨_,_,-,hwrite⟩ := store.writeOn_cases machine files
  all_goals
    rw [hwrite]
    simp [Outcome.attempts,Note.attempt?,Attempt.ofResult]

theorem record_eq_ok {store after : Store} {seen : Load} {news : Bool}
    (h : store.record seen = .ok (after,news)) : ∃ ledger, after = { store with ledger } := by
  unfold record at h
  cases hrecord : store.ledger.record store.vocabulary seen with
  | error error =>
    rw [hrecord] at h
    cases h
  | ok recorded =>
    rw [hrecord] at h
    obtain ⟨rfl,-⟩ := Prod.mk.inj (Except.ok.inj h)
    exact ⟨_,rfl⟩

theorem load_attempt (store : Store) (files : FileTree) :
    (∃ ledger, (store.load files).state = { store with ledger }) ∧
      (store.load files).returned.attempts = [] := by
  obtain ⟨remarks,last,hnotes,hcases⟩ := store.load_cases files
  change _ ∧ (store.load files).notes.filterMap Note.attempt? ++ [] = []
  rw [List.append_nil,hnotes,filterMap_remarks fun _ => rfl]
  obtain ⟨ledger,_,_,rfl,hstate⟩ | ⟨⟨_,rfl⟩ | ⟨_,_,rfl⟩,hstate⟩ := hcases
  · exact ⟨⟨ledger,hstate⟩,rfl⟩
  · exact ⟨⟨store.ledger,hstate⟩,rfl⟩
  · exact ⟨⟨store.ledger,hstate⟩,rfl⟩

theorem requestWrite_schedules (store : Store) (files : FileTree) :
    ((store.requestWrite files).result = true ↔ store.pending = false) ∧
    (store.requestWrite files).state = { store with dirty := true, pending := true } ∧
    (store.requestWrite files).returned.attempts = [] := by
  unfold requestWrite
  cases hpending : store.pending with
  | true => exact ⟨by simp,by simp [← hpending],rfl⟩
  | false => exact ⟨by simp,rfl,rfl⟩

theorem runPending_pending (store : Store) (files : FileTree) (machine : Machine) :
    (store.runPending files machine).state.pending = false := by
  unfold runPending
  split
  · exact congrArg Store.pending ({ store with pending := false }.writeOn_attempt machine files).2
  · rename_i hpending
    simpa using hpending

theorem flush_settles (store : Store) (files : FileTree) (machine : Machine) :
    let flushed := store.flush files machine
    flushed.state.pending = false ∧
    (∀ answer, flushed.result = .ok answer → (answer = true ↔ flushed.state.dirty = false)) ∧
    (∀ error, flushed.result = .error error →
      machine ≠ .sound ∧ store.dirty = true ∧ flushed.state.dirty = false) ∧
    (store.dirty = false → flushed.files = files) := by
  simp only [flush]
  split
  · rename_i hdirty
    have hdue {p : Prop} (hclean : store.dirty = false) : p := by
      cases hclean.symm.trans (show store.dirty = true from hdirty)
    obtain ⟨_,_,-,-,-,hwrite⟩ | ⟨_,_,hwrite⟩ | ⟨_,_,hmachine,hwrite⟩ :=
      { store with pending := false }.writeOn_cases machine files
    · rw [hwrite]
      refine ⟨rfl,by simp [eq_comm],fun _ herror => ?_,hdue⟩
      cases herror
    · rw [hwrite]
      refine ⟨rfl,by simp [eq_comm],fun _ herror => ?_,hdue⟩
      cases herror
    · rw [hwrite]
      refine ⟨rfl,fun _ hanswer => ?_,fun _ _ => ⟨hmachine,hdirty,rfl⟩,hdue⟩
      cases hanswer
  · rename_i hdirty
    refine ⟨rfl,fun answer hanswer => ?_,fun _ herror => ?_,fun _ => rfl⟩
    · obtain rfl := Except.ok.inj hanswer
      simpa using hdirty
    · cases herror

/-! ## One step -/

namespace Work

/-- The attempt that a step makes, if any: a write is one, the pending write is one if there is any,
and a flush is one if the store is dirty. -/
def attempt? (work : Work) : Step → Option Attempt
  | .write machine => some (.ofResult (work.store.writeOn machine work.files).result)
  | .runPending machine =>
    if work.store.pending then
      some (.ofResult ({ work.store with pending := false }.writeOn machine work.files).result)
    else none
  | .flush machine =>
    if work.store.dirty then
      some (.ofResult ({ work.store with pending := false }.writeOn machine work.files).result)
    else none
  | _ => none

/-- What a step does as far as writes are concerned: none is attempted, and none is due but was
before, or one is attempted. -/
inductive Effect (before after : Work) : Option Attempt → Prop
  | idle (hattempts : after.attempts = before.attempts)
    (hwritten : after.store.written = before.store.written)
    (hdue : after.store.dirty = true → after.store.pending = false →
      before.store.dirty = true ∧ before.store.pending = false) : Effect before after none
  | attempted (attempt : Attempt) (hattempts : after.attempts = before.attempts ++ [attempt])
    (hwritten : after.store.written = true ↔
      before.store.written = true ∨ attempt = .succeeded)
    (hdirty : after.store.dirty = true ↔ attempt = .failed) : Effect before after (some attempt)

variable {work : Work}

theorem Effect.of_ledger (files : FileTree) (ledger : Ledger) :
    Effect work { work with store := { work.store with ledger }, files } none :=
  .idle rfl rfl fun hdirty hpending => ⟨hdirty,hpending⟩

/-- The store may have just dropped its pending write. -/
theorem Effect.of_writeOn (machine : Machine) (work : Work) (pending : Bool) :
    let outcome := { work.store with pending }.writeOn machine work.files
    Effect work (work.follow outcome) (some (.ofResult outcome.result)) := by
  intro outcome
  obtain ⟨hattempts,hstate⟩ := { work.store with pending }.writeOn_attempt machine work.files
  refine .attempted _ ?_ ?_ ?_
  · rw [follow,hattempts]
  · simp [follow,outcome,hstate]
  · simp [follow,outcome,hstate]

theorem effect_step (work : Work) (step : Step) :
    Effect work (work.step step) (work.attempt? step) := by
  cases step with
  | record seen =>
    simp only [Work.step,attempt?]
    cases hrecord : work.store.record seen with
    | error error => exact .of_ledger work.files work.store.ledger
    | ok recorded =>
      obtain ⟨ledger,hledger⟩ := record_eq_ok hrecord
      simp only [hledger]
      exact .of_ledger work.files ledger
  | prune installed => exact .of_ledger work.files _
  | clear => exact .of_ledger work.files _
  | replace ledger => exact .of_ledger work.files ledger
  | load =>
    obtain ⟨⟨ledger,hstate⟩,hattempts⟩ := work.store.load_attempt work.files
    refine .idle ?_ ?_ ?_
    · rw [Work.step,follow,hattempts,List.append_nil]
    · exact (congrArg Store.written hstate :)
    · change (work.store.load work.files).state.dirty = true →
        (work.store.load work.files).state.pending = false → _
      rw [hstate]
      exact fun hdirty hpending => ⟨hdirty,hpending⟩
  | requestWrite =>
    obtain ⟨-,hstate,hattempts⟩ := work.store.requestWrite_schedules work.files
    refine .idle ?_ ?_ ?_
    · rw [Work.step,follow,hattempts,List.append_nil]
    · exact (congrArg Store.written hstate :)
    · intro _ hpending
      cases (congrArg Store.pending hstate).symm.trans hpending
  | write machine => exact .of_writeOn machine work work.store.pending
  | runPending machine =>
    simp only [Work.step,attempt?,runPending]
    split
    · have heffect := Effect.of_writeOn machine work false
      simpa only [follow,Outcome.attempts_map] using heffect
    · exact .idle (List.append_nil _) rfl fun hdirty hpending => ⟨hdirty,hpending⟩
  | flush machine =>
    simp only [Work.step,attempt?,flush]
    split
    · exact .of_writeOn machine work false
    · rename_i hclean
      exact .idle (List.append_nil _) rfl fun hdirty _ => absurd hdirty hclean
  | elsewhere files => exact .of_ledger files work.store.ledger

theorem attempts_step (work : Work) (step : Step) :
    (work.step step).attempts = work.attempts ++ (work.attempt? step).toList := by
  have heffect := work.effect_step step
  generalize work.attempt? step = attempt at heffect ⊢
  cases heffect with
  | idle hattempts _ _ => rw [hattempts,Option.toList_none,List.append_nil]
  | attempted attempt hattempts _ _ => rw [hattempts,Option.toList_some]

/-! ## Whole runs -/

/-- What is due is scheduled, unless the last attempt to write it has failed. -/
structure Scheduled (work : Work) : Prop where
  due : work.store.dirty = true → work.store.pending = false →
    work.attempts.getLast? = some .failed
  written : work.store.written = true ↔ .succeeded ∈ work.attempts

theorem scheduled_create (vocabulary : Vocabulary) (path : PathName) (delay : Binary64)
    (ledger : Ledger) (files : FileTree) :
    Scheduled { store := { create vocabulary path delay with ledger }, files } where
  due := fun hdirty => by cases hdirty
  written := by simp [create]

theorem Scheduled.step (h : work.Scheduled) (step : Step) : (work.step step).Scheduled := by
  have heffect := work.effect_step step
  generalize work.attempt? step = attempt at heffect
  cases heffect with
  | idle hattempts hwritten hdue =>
    refine ⟨fun hdirty hpending => ?_,?_⟩
    · obtain ⟨hdirty,hpending⟩ := hdue hdirty hpending
      rw [hattempts]
      exact h.due hdirty hpending
    · rw [hattempts,hwritten]
      exact h.written
  | attempted attempt hattempts hwritten hdirty =>
    refine ⟨fun hdue _ => ?_,?_⟩
    · rw [hattempts,List.getLast?_concat,hdirty.1 hdue]
    · rw [hattempts,hwritten,h.written]
      simp [eq_comm]

theorem Scheduled.run (h : work.Scheduled) (steps : List Step) :
    (steps.foldl Work.step work).Scheduled := by
  induction steps generalizing work with
  | nil => exact h
  | cons step steps ih => exact ih (h.step step)

end Work

/-- Whatever is done with a new store over any ledger, in any order, while others change the files
as they like and whatever the machine refuses: a dirty store without a pending write is one whose
last attempt to write failed. A request is answered by whether none was pending, and after it the
store is dirty with one pending. The pending write leaves none, and a flush neither; if the flush
answers, then by whether the store is clean, and it leaves the files of a clean store alone. An
error can pass through a flush only if the machine refuses something, and then the store counts as
clean although nothing has been written. A write has been noted if and only if an attempt has
succeeded. -/
theorem writes_on_schedule (vocabulary : Vocabulary) (path : PathName) (delay : Binary64)
    (ledger : Ledger) (files : FileTree) (steps : List Step) :
    let start : Work := { store := { create vocabulary path delay with ledger }, files }
    let work := steps.foldl Work.step start
    let requested := work.store.requestWrite work.files
    (work.store.dirty = true → work.store.pending = false →
      work.attempts.getLast? = some .failed) ∧
    ((requested.result = true ↔ work.store.pending = false) ∧
      requested.state.pending = true ∧ requested.state.dirty = true) ∧
    (∀ machine, (work.store.runPending work.files machine).state.pending = false) ∧
    (∀ machine, let flushed := work.store.flush work.files machine
      flushed.state.pending = false ∧
      (∀ answer, flushed.result = .ok answer → (answer = true ↔ flushed.state.dirty = false)) ∧
      (∀ error, flushed.result = .error error →
        machine ≠ .sound ∧ work.store.dirty = true ∧ flushed.state.dirty = false) ∧
      (work.store.dirty = false → flushed.files = work.files)) ∧
    (work.store.written = true ↔ .succeeded ∈ work.attempts) ∧
    ∀ step, (work.step step).attempts = work.attempts ++ (work.attempt? step).toList := by
  intro start work requested
  have hscheduled : work.Scheduled :=
    (Work.scheduled_create vocabulary path delay ledger files).run steps
  obtain ⟨hresult,hstate,-⟩ := work.store.requestWrite_schedules work.files
  refine ⟨hscheduled.due,⟨hresult,?_,?_⟩,work.store.runPending_pending work.files,
    work.store.flush_settles work.files,hscheduled.written,work.attempts_step⟩
  · exact congrArg Store.pending hstate
  · exact congrArg Store.dirty hstate

/-- An error that passes through a flush leaves the store clean without an answer, so a flush does
not answer with true just where the store is clean after it. -/
theorem not_flush_eq_true_iff_clean : ¬∀ (steps : List Step) (machine : Machine),
    let start : Work :=
      { store := .create TextMap.empty (.ofText "a/b") .zero
        files := { nodes := [([.plain [97]],.directory)] } }
    let work := steps.foldl Work.step start
    let flushed := work.store.flush work.files machine
    flushed.result.toOption = some true ↔ flushed.state.dirty = false := by
  intro h
  exact absurd (h [.requestWrite] .fullDisk) (by decide)

/-- With a directory in the place of its file, a store ends up dirty with nothing pending. -/
example :
    let files : FileTree :=
      { nodes := [([.plain [97]],.directory),([.plain [97],.plain [98]],.directory)] }
    let start : Work := { store := .create TextMap.empty (.ofText "a/b") .zero, files }
    let work := [Step.requestWrite,.runPending .sound].foldl Work.step start
    work.store.dirty = true ∧ work.store.pending = false ∧ work.attempts = [.failed] ∧
      (work.step (.flush .sound)).attempts = [.failed,.failed] := by
  decide

end Store
end LoadLedger
