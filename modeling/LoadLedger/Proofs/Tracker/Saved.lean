import LoadLedger.Proofs.Ledger.News
import LoadLedger.Proofs.Ledger.Recording
import LoadLedger.Proofs.Store.Loading
import LoadLedger.Proofs.Store.Writing
import LoadLedger.Proofs.Tracker.Session

/-! # No update is lost

A tracker told to keep its file up to date is dirty whenever the ledger has changed since it was
last written, clearings and loads apart. But an error that passes through a write leaves it clean, and
then the update is lost. The invariant of a session: a clean tracker that was not disturbed and saw no
such error has written nothing and knows nothing, or its file holds its ledger.
-/
namespace LoadLedger

namespace Store

theorem load_happening (store : Store) (files : FileTree) :
    ((∃ ledger, (store.load files).state = { store with ledger }) ∧
      (store.load files).notes.filterMap Note.happening? = [.loaded]) ∨
    ((store.load files).state = store ∧
      (store.load files).notes.filterMap Note.happening? = []) := by
  obtain ⟨remarks,last,hnotes,hcases⟩ := store.load_cases files
  rw [hnotes,filterMap_remarks fun _ => rfl]
  obtain ⟨ledger,_,_,rfl,hstate⟩ | ⟨⟨_,rfl⟩ | ⟨_,_,rfl⟩,hstate⟩ := hcases
  · exact .inl ⟨⟨ledger,hstate⟩,rfl⟩
  · exact .inr ⟨hstate,rfl⟩
  · exact .inr ⟨hstate,rfl⟩

theorem requestWrite_dirty (store : Store) (files : FileTree) :
    (store.requestWrite files).state.dirty = true ∧
      (store.requestWrite files).notes.filterMap Note.happening? = [] := by
  unfold requestWrite
  split <;> exact ⟨rfl,rfl⟩

theorem prune_quiet (store : Store) (installed : Installed) :
    (store.prune installed).2.filterMap Note.happening? = [] := by
  simp only [prune]
  split <;> rfl

end Store

theorem Tracker.keeps_persist (tracker : Tracker) (files : FileTree) :
    (tracker.persist files).state.autoPersist = tracker.autoPersist ∧
      (tracker.persist files).state.store.Keeps tracker.store := by
  unfold persist
  split
  · exact ⟨rfl,tracker.store.keeps_requestWrite files⟩
  · exact ⟨rfl,rfl,rfl,rfl⟩

theorem Tracker.persist_dirty {tracker : Tracker} (hauto : tracker.autoPersist = true)
    (files : FileTree) : (tracker.persist files).state.store.dirty = true ∧
      (tracker.persist files).notes.filterMap Note.happening? = [] := by
  rw [persist,if_pos hauto]
  exact tracker.store.requestWrite_dirty files

/-- What an operation makes of a ledger, leaving the file aside. -/
def Operation.applyTo (vocabulary : Vocabulary) (ledger : Ledger) : Operation → Ledger
  | .record seen => ledger.enter vocabulary seen
  | .prune installed => ledger.prune installed
  | .clear => TextMap.empty
  | _ => ledger

theorem Ledger.Every.applyTo {vocabulary : Vocabulary} {named pathed : Text → Prop}
    {owned : Owner → Prop} {ledger : Ledger} {operation : Operation}
    (h : Ledger.Every named (RecordFrom vocabulary pathed owned) ledger)
    (hrecord : ∀ seen, operation = .record seen → seen.Meets named pathed owned) :
    Ledger.Every named (RecordFrom vocabulary pathed owned)
      (operation.applyTo vocabulary ledger) := by
  cases operation with
  | record seen => exact h.enter (hrecord seen rfl)
  | prune installed => exact h.prune installed
  | clear => exact Ledger.every_empty _ _
  | look => exact h
  | load => exact h
  | requestWrite => exact h
  | writeNow => exact h
  | runPending => exact h
  | close => exact h

namespace Session

/-- What an operation can do, as far as the file is concerned. -/
inductive Effect (tracker : Tracker) (files : FileTree) (operation : Operation)
    (outcome : Outcome Tracker (Except WriteError Unit)) : List Happening → Prop
  | idle (hledger : outcome.state.store.ledger = tracker.store.ledger)
    (hdirty : outcome.state.store.dirty = tracker.store.dirty) (hfiles : outcome.files = files) :
    Effect tracker files operation outcome []
  | dirtied (hdirty : outcome.state.store.dirty = true) : Effect tracker files operation outcome []
  | cleared (hledger : outcome.state.store.ledger = TextMap.empty)
    (hdirty : outcome.state.store.dirty = tracker.store.dirty) (hfiles : outcome.files = files) :
    Effect tracker files operation outcome [.cleared]
  | loaded (hload : operation = .load) : Effect tracker files operation outcome [.loaded]
  | raised (hmachine : operation.machine ≠ .sound) : Effect tracker files operation outcome [.raised]
  | wrote (content : Bytes)
    (hcontent : outcome.files.contentOf outcome.state.store.path.text = .ok content)
    (hdump : Utf8.encode outcome.state.store.dump = .ok content)
    (hfits : outcome.state.store.ledger.OwnersFit) :
    Effect tracker files operation outcome [.wrote]

variable {tracker : Tracker} {files : FileTree} {operation : Operation}

theorem Effect.of_quiet {outcome : Outcome Tracker (Except WriteError Unit)}
    {happened : List Happening}
    (hdirty : outcome.state.store.dirty = true) (hquiet : happened = []) :
    Effect tracker files operation outcome happened := by
  rw [hquiet]
  exact .dirtied hdirty

theorem effect_writeOn (store : Store) (files later : FileTree) :
    let outcome := Outcome.ofStore tracker (store.writeOn operation.machine later)
    Effect tracker files operation { outcome with result := outcome.result.map fun _ => () }
      (outcome.notes.filterMap Note.happening? ++
        match outcome.result.map fun _ => () with
        | .ok () => []
        | .error _ => [.raised]) := by
  obtain ⟨content,after,hcontent,hdump,hfits,hwrite⟩ | ⟨error,after,hwrite⟩ |
    ⟨error,after,hmachine,hwrite⟩ := store.writeOn_cases operation.machine later
  · rw [hwrite]
    exact .wrote content hcontent hdump hfits
  · rw [hwrite]
    exact .dirtied rfl
  · rw [hwrite]
    exact .raised hmachine

theorem effect_carryOut (hauto : tracker.autoPersist = true) (files : FileTree)
    (operation : Operation) :
    Effect tracker files operation (operation.carryOut tracker files)
      (operation.happenings (operation.carryOut tracker files)) := by
  cases operation with
  | record seen =>
    simp only [Operation.carryOut,Operation.happenings,Outcome.forget,Tracker.record,Store.record,
      List.append_nil]
    cases hrecord : tracker.store.ledger.record tracker.store.vocabulary seen with
    | error error => exact .idle rfl rfl rfl
    | ok recorded =>
      obtain ⟨ledger,news⟩ := recorded
      cases news with
      | false => exact .idle (Ledger.record_eq_self hrecord) rfl rfl
      | true =>
        let known : Tracker := { tracker with store := { tracker.store with ledger } }
        obtain ⟨hdirty,hquiet⟩ := known.persist_dirty hauto files
        exact .of_quiet hdirty hquiet
  | look => exact .idle rfl rfl rfl
  | prune installed =>
    let pruned : Tracker := { tracker with store := (tracker.store.prune installed).1 }
    obtain ⟨hdirty,hquiet⟩ := pruned.persist_dirty hauto files
    refine .of_quiet hdirty ?_
    change ((tracker.store.prune installed).2 ++ _).filterMap Note.happening? ++ [] = []
    rw [List.append_nil,List.filterMap_append,tracker.store.prune_quiet]
    exact hquiet
  | clear => exact .cleared rfl rfl rfl
  | load =>
    change Effect _ _ _ _ ((tracker.store.load files).notes.filterMap Note.happening? ++ [])
    rw [List.append_nil]
    obtain ⟨-,hnotes⟩ | ⟨hstate,hnotes⟩ := tracker.store.load_happening files
    · rw [hnotes]
      exact .loaded rfl
    · rw [hnotes]
      refine .idle ?_ ?_ (tracker.store.loadBy_files files _)
      · exact congrArg Store.ledger hstate
      · exact congrArg Store.dirty hstate
  | requestWrite =>
    obtain ⟨hdirty,hquiet⟩ := tracker.store.requestWrite_dirty files
    refine .of_quiet hdirty ?_
    change (tracker.store.requestWrite files).notes.filterMap Note.happening? ++ [] = []
    rw [List.append_nil,hquiet]
  | writeNow machine => exact effect_writeOn tracker.store files files
  | runPending machine =>
    simp only [Operation.carryOut,Operation.happenings,Tracker.runPending,Store.runPending]
    split
    · exact effect_writeOn { tracker.store with pending := false } files files
    · exact .idle rfl rfl rfl
  | close machine =>
    simp only [Operation.carryOut,Operation.happenings,Tracker.close,Store.flush]
    split
    · obtain ⟨content,later,hcontent,hdump,hfits,hwrite⟩ | ⟨error,later,hwrite⟩ |
        ⟨error,later,hmachine,hwrite⟩ :=
          { tracker.store with pending := false }.writeOn_cases machine files
      · rw [hwrite]
        exact .wrote content hcontent hdump hfits
      · rw [hwrite]
        exact .dirtied rfl
      · rw [hwrite]
        exact .raised hmachine
    · exact .idle rfl rfl rfl

/-- No operation sends the tracker to another file or ends its keeping up to date, and none but a
load changes the ledger in a way that depends on the file. -/
theorem keeps_carryOut (tracker : Tracker) (files : FileTree) (operation : Operation) :
    (operation.carryOut tracker files).state.autoPersist = tracker.autoPersist ∧ ∃ ledger,
      (operation.carryOut tracker files).state.store.Keeps { tracker.store with ledger } ∧
      (operation ≠ .load → ledger = operation.applyTo tracker.store.vocabulary tracker.store.ledger) := by
  cases operation with
  | record seen =>
    simp only [Operation.carryOut,Outcome.forget,Tracker.record,Store.record,Operation.applyTo,
      Ledger.enter]
    cases tracker.store.ledger.record tracker.store.vocabulary seen with
    | error error => exact ⟨rfl,_,⟨rfl,rfl,rfl⟩,fun _ => rfl⟩
    | ok recorded =>
      obtain ⟨ledger,news⟩ := recorded
      cases news with
      | false => exact ⟨rfl,_,⟨rfl,rfl,rfl⟩,fun _ => rfl⟩
      | true =>
        let known : Tracker := { tracker with store := { tracker.store with ledger } }
        obtain ⟨hauto,hkeeps⟩ := known.keeps_persist files
        exact ⟨hauto,_,hkeeps,fun _ => rfl⟩
  | prune installed =>
    let pruned : Tracker := { tracker with store := (tracker.store.prune installed).1 }
    obtain ⟨hauto,hkeeps⟩ := pruned.keeps_persist files
    exact ⟨hauto,_,hkeeps,fun _ => rfl⟩
  | load =>
    obtain ⟨hvocabulary,hpath⟩ := tracker.store.loadBy_vocabulary files _
    exact ⟨rfl,(tracker.store.load files).state.ledger,⟨hvocabulary,hpath,rfl⟩,
      fun hload => absurd rfl hload⟩
  | look => exact ⟨rfl,_,⟨rfl,rfl,rfl⟩,fun _ => rfl⟩
  | clear => exact ⟨rfl,_,⟨rfl,rfl,rfl⟩,fun _ => rfl⟩
  | requestWrite => exact ⟨rfl,_,tracker.store.keeps_requestWrite files,fun _ => rfl⟩
  | writeNow machine => exact ⟨rfl,_,tracker.store.keeps_writeOn machine files,fun _ => rfl⟩
  | runPending machine =>
    exact ⟨rfl,_,tracker.store.keeps_runPending files machine,fun _ => rfl⟩
  | close machine => exact ⟨rfl,_,tracker.store.keeps_flush files machine,fun _ => rfl⟩

/-! ## The invariant -/

def Saved (session : Session) : Prop :=
  (.wrote ∉ session.history ∧ session.tracker.store.ledger = TextMap.empty) ∨
  ∃ content, session.files.contentOf session.tracker.store.path.text = .ok content ∧
    Utf8.encode session.tracker.store.dump = .ok content

structure Kept (path : PathName) (session : Session) : Prop where
  auto : session.tracker.autoPersist = true
  path : session.tracker.store.path = path
  saved : session.tracker.store.dirty = false → Undisturbed session.history →
    Unbroken session.history → session.Saved

theorem not_undisturbed_cleared (history : List Happening) : ¬Undisturbed (.cleared :: history) := by
  simp [Undisturbed]

theorem not_undisturbed_loaded (history : List Happening) : ¬Undisturbed (.loaded :: history) := by
  simp [Undisturbed]

theorem not_unbroken_raised (history : List Happening) : ¬Unbroken (.raised :: history) := by
  simp [Unbroken]

theorem Kept.run {path : PathName} {session : Session} (h : Kept path session)
    (operation : Operation) : Kept path (session.run operation) := by
  obtain ⟨hauto,_,hkeeps,-⟩ := keeps_carryOut session.tracker session.files operation
  have hpath := hkeeps.path
  refine ⟨hauto.trans h.auto,hpath.trans h.path,?_⟩
  have heffect := effect_carryOut h.auto session.files operation
  simp only [Session.run]
  generalize operation.carryOut session.tracker session.files = outcome at *
  generalize operation.happenings outcome = happened at *
  intro hclean hundisturbed hunbroken
  cases heffect with
  | idle hledger hdirty hfiles =>
    have hdump : outcome.state.store.dump = session.tracker.store.dump := by
      rw [Store.dump,hledger,Store.dump]
    have hsaved := h.saved (hdirty.symm.trans hclean) hundisturbed hunbroken
    simp only [Saved,hledger,hdump,hfiles,hpath]
    exact hsaved
  | dirtied hdirty =>
    rw [hdirty] at hclean
    cases hclean
  | cleared _ _ _ => exact absurd hundisturbed (not_undisturbed_cleared _)
  | loaded _ => exact absurd hundisturbed (not_undisturbed_loaded _)
  | raised _ => exact absurd hunbroken (not_unbroken_raised _)
  | wrote content hcontent hdump _ => exact .inr ⟨content,hcontent,hdump⟩

theorem Reachable.kept {vocabulary : Vocabulary} {path : PathName} {delay : Binary64}
    {session : Session} (h : Reachable vocabulary path delay session) : Kept path session := by
  induction h with
  | start files => exact ⟨rfl,rfl,fun _ _ _ => .inl ⟨by simp,rfl⟩⟩
  | run operation _ ih => exact ih.run operation
  | elsewhere files _ hfile ih =>
    refine ⟨ih.auto,ih.path,fun hclean hundisturbed hunbroken => ?_⟩
    obtain hnothing | ⟨content,hcontent,hdump⟩ := ih.saved hclean hundisturbed hunbroken
    · exact .inl hnothing
    · rw [ih.path] at hcontent
      exact .inr ⟨content,ih.path.symm ▸ hfile content hcontent,hdump⟩

/-- Whenever a tracker told to keep its file up to date is clean, has not been disturbed and no error
has passed through a write of it, it has written nothing and knows nothing yet, or its file holds the
encoding of its listing. -/
theorem saved_of_clean {vocabulary : Vocabulary} {path : PathName} {delay : Binary64}
    {session : Session} (h : Reachable vocabulary path delay session)
    (hclean : session.tracker.store.dirty = false) (hundisturbed : Undisturbed session.history)
    (hunbroken : Unbroken session.history) :
    (.wrote ∉ session.history ∧ session.tracker.store.ledger = TextMap.empty) ∨
    ∃ content, session.files.contentOf path.text = .ok content ∧
      Utf8.encode session.tracker.store.dump = .ok content := by
  have hkept := h.kept
  have hsaved := hkept.saved hclean hundisturbed hunbroken
  rw [Saved,hkept.path] at hsaved
  exact hsaved

def writtenSession (machine : Machine) : Session :=
  let start : Session :=
    { tracker := { store := .create (TextSet.ofList ["arm"]) (.ofText "list") .zero }, files := {} }
  (start.run (.record ⟨"a","b.dex",.user 0,"arm",true,false⟩)).run (.runPending machine)

theorem reachable_writtenSession (machine : Machine) :
    Reachable (TextSet.ofList ["arm"]) (.ofText "list") .zero (writtenSession machine) :=
  ((Reachable.start {}).run _).run _

theorem saved_writtenSession :
    let session := writtenSession .sound
    Reachable (TextSet.ofList ["arm"]) (.ofText "list") .zero session ∧
    session.tracker.store.dirty = false ∧ Undisturbed session.history ∧
    Unbroken session.history ∧
    ∃ content, session.files.contentOf (PathName.ofText "list").text = .ok content ∧
      Utf8.encode session.tracker.store.dump = .ok content := by
  intro session
  have hreachable := reachable_writtenSession .sound
  have hclean : session.tracker.store.dirty = false := by decide
  have hhistory : session.history = [.wrote] := by decide
  have hundisturbed : Undisturbed session.history := by simp [hhistory,Undisturbed]
  have hunbroken : Unbroken session.history := by simp [hhistory,Unbroken]
  have hwrote : Happening.wrote ∈ session.history := by simp [hhistory]
  exact ⟨hreachable,hclean,hundisturbed,hunbroken,
    (saved_of_clean hreachable hclean hundisturbed hunbroken).resolve_left fun hnothing =>
      hnothing.1 hwrote⟩

/-- On a full disk the draft can be neither flushed nor closed. The error of closing it passes
through, and the tracker is clean although the load is in no file. -/
theorem not_saved_fullDisk :
    let session := writtenSession .fullDisk
    Reachable (TextSet.ofList ["arm"]) (.ofText "list") .zero session ∧
    session.tracker.store.dirty = false ∧ Undisturbed session.history ∧
    ¬((.wrote ∉ session.history ∧ session.tracker.store.ledger = TextMap.empty) ∨
      ∃ content, session.files.contentOf (PathName.ofText "list").text = .ok content ∧
        Utf8.encode session.tracker.store.dump = .ok content) := by
  intro session
  have hhistory : session.history = [.raised] := by decide
  have hundisturbed : Undisturbed session.history := by simp [hhistory,Undisturbed]
  have hledger : session.tracker.store.ledger ≠ TextMap.empty := by decide
  have hfile : session.files.contentOf (PathName.ofText "list").text =
      .error (.system .noEntry (.path "list")) := rfl
  refine ⟨reachable_writtenSession .fullDisk,by decide,hundisturbed,?_⟩
  rintro (⟨-,hnone⟩ | ⟨content,hcontent,-⟩)
  · exact hledger hnone
  · rw [hfile] at hcontent
    cases hcontent

end Session
end LoadLedger
