import LoadLedger.Proofs.Store.RecordedReload
import LoadLedger.Proofs.Tracker.Saved

/-! # What a restart finds

A tracker that starts without a file and is closed leaves its ledger to the next one, except that a
clearing asks for no write: then the next tracker finds what was written last. The invariant of a
session that is clean: there is no file yet and nothing is known, or the file holds a ledger that can
be stored, and that is the ledger of the session unless it was cleared since.
-/
namespace LoadLedger

/-- An operation that brings in only what can be stored, takes over nothing from the file, and writes
on a machine that refuses nothing. -/
def Operation.Clean : Operation → Prop
  | .record seen => seen.Meets Listing.NameStorable Listing.PathStorable (· ≠ .noOne)
  | .load => False
  | operation => operation.machine = .sound

namespace Operation.Clean

variable {operation : Operation}

theorem ne_load (h : operation.Clean) : operation ≠ .load := by
  rintro rfl
  exact h

theorem machine_eq (h : operation.Clean) : operation.machine = .sound := by
  cases operation with
  | record seen => rfl
  | load => exact h.elim
  | _ => exact h

end Operation.Clean

/-- What clean operations build up. -/
def Recordable (vocabulary : Vocabulary) (ledger : Ledger) : Prop :=
  Ledger.Every Listing.NameStorable (RecordFrom vocabulary Listing.PathStorable (· ≠ .noOne)) ledger

theorem Recordable.applyTo {vocabulary : Vocabulary} {ledger : Ledger} {operation : Operation}
    (h : Recordable vocabulary ledger) (hclean : operation.Clean) :
    Recordable vocabulary (operation.applyTo vocabulary ledger) := by
  refine Ledger.Every.applyTo h fun seen hseen => ?_
  subst hseen
  exact hclean

theorem Store.fresh_of_ofSettings {settings : Settings} {store : Store}
    (h : Store.ofSettings settings = .ok store) :
    store.ledger = TextMap.empty ∧ store.vocabulary.Plain := by
  unfold Store.ofSettings at h
  cases hvocabulary : Vocabulary.ofAbis settings.abis with
  | error error => simp [hvocabulary,Except.map] at h
  | ok vocabulary =>
    rw [hvocabulary] at h
    obtain rfl := Except.ok.inj h
    exact ⟨rfl,Vocabulary.plain_ofAbis hvocabulary⟩

def Store.Stores (store : Store) (files : FileTree) (kept : Ledger) : Prop :=
  Listing.Storable store.vocabulary kept ∧ ∃ content,
    files.contentOf store.path.text = .ok content ∧
    Utf8.encode (Listing.render Listing.currentVersion kept) = .ok content

namespace Session

variable {store : Store} {files : FileTree} {session : Session}

/-- A session that began with a store and with files among which there was none of the store. -/
structure Restorable (store : Store) (files : FileTree) (session : Session) : Prop where
  auto : session.tracker.autoPersist = true
  vocabulary : session.tracker.store.vocabulary = store.vocabulary
  path : session.tracker.store.path = store.path
  recordable : Recordable store.vocabulary session.tracker.store.ledger
  clean : session.tracker.store.dirty = false →
    (session.files = files ∧ session.tracker.store.ledger = TextMap.empty) ∨
    ∃ kept, store.Stores session.files kept ∧ .wrote ∈ session.history ∧
      (Undisturbed session.history → kept = session.tracker.store.ledger) ∧
      (¬Undisturbed session.history → session.tracker.store.ledger = TextMap.empty)

theorem undisturbed_wrote (history : List Happening) : Undisturbed (.wrote :: history) := by
  simp [Undisturbed]

theorem Restorable.run (h : Restorable store files session) (hplain : store.vocabulary.Plain)
    {operation : Operation} (hoperation : operation.Clean) :
    Restorable store files (session.run operation) := by
  obtain ⟨hauto,ledger,hkeeps,happly⟩ := keeps_carryOut session.tracker session.files operation
  obtain rfl := happly hoperation.ne_load
  have hvocabulary := hkeeps.vocabulary.trans h.vocabulary
  have hpath := hkeeps.path.trans h.path
  have hrecordable : Recordable store.vocabulary
      (operation.carryOut session.tracker session.files).state.store.ledger := by
    rw [hkeeps.ledger,h.vocabulary]
    exact h.recordable.applyTo hoperation
  refine ⟨hauto.trans h.auto,hvocabulary,hpath,hrecordable,?_⟩
  have heffect := effect_carryOut h.auto session.files operation
  simp only [Session.run]
  generalize operation.carryOut session.tracker session.files = outcome at *
  generalize operation.happenings outcome = happened at *
  intro hclean
  cases heffect with
  | idle hledger hdirty hfiles =>
    have hbefore := h.clean (hdirty.symm.trans hclean)
    rw [hledger,hfiles]
    exact hbefore
  | dirtied hdirty =>
    rw [hdirty] at hclean
    cases hclean
  | cleared hledger hdirty hfiles =>
    obtain ⟨hsame,-⟩ | ⟨kept,hstores,hwrote,-⟩ := h.clean (hdirty.symm.trans hclean)
    · exact Or.inl ⟨hfiles.trans hsame,hledger⟩
    · rw [hfiles]
      exact Or.inr ⟨kept,hstores,List.mem_cons_of_mem _ hwrote,
        fun hundisturbed => absurd hundisturbed (not_undisturbed_cleared _),fun _ => hledger⟩
  | loaded hload => exact absurd hload hoperation.ne_load
  | raised hmachine => exact absurd hoperation.machine_eq hmachine
  | wrote content hcontent hdump hfits =>
    rw [hpath] at hcontent
    have hstorable : Listing.Storable store.vocabulary outcome.state.store.ledger :=
      Ledger.Every.storable hplain hrecordable hfits
    exact Or.inr ⟨_,⟨hstorable,content,hcontent,hdump⟩,List.mem_cons_self,fun _ => rfl,
      fun hdisturbed => absurd (undisturbed_wrote _) hdisturbed⟩

theorem Restorable.foldl (h : Restorable store files session) (hplain : store.vocabulary.Plain)
    {operations : List Operation} (hoperations : ∀ operation ∈ operations, operation.Clean) :
    Restorable store files (operations.foldl Session.run session) := by
  induction operations generalizing session with
  | nil => exact h
  | cons operation operations ih =>
    obtain ⟨hoperation,hrest⟩ := List.forall_mem_cons.1 hoperations
    exact ih (h.run hplain hoperation) hrest

/-- A tracker told to keep its file up to date starts without a file, brings in only what can be
stored and is closed. If it could write at the end, the next tracker finds its ledger, provided that
it was not cleared after the last write; if it was, nothing is left in it. If there was no write at
all, both are empty, whatever was cleared. -/
theorem reopened_of_closed {settings : Settings} {store : Store} (files : FileTree)
    (operations : List Operation) (hstore : Store.ofSettings settings = .ok store)
    (habsent : ∀ content, files.contentOf store.path.text ≠ .ok content)
    (hoperations : ∀ operation ∈ operations, operation.Clean) :
    let tracker : Tracker := { store, autoPersist := true }
    let closed := (operations.foldl Session.run { tracker, files }).run .close
    closed.tracker.store.dirty = false →
      (Undisturbed closed.history ∨ .wrote ∉ closed.history →
        (tracker.load closed.files).state.store.ledger = closed.tracker.store.ledger) ∧
      (¬Undisturbed closed.history ∨ .wrote ∉ closed.history →
        closed.tracker.store.ledger = TextMap.empty) := by
  intro tracker closed hclean
  obtain ⟨hledger,hplain⟩ := Store.fresh_of_ofSettings hstore
  have hstart : Restorable store files { tracker, files } := by
    refine ⟨rfl,rfl,rfl,?_,fun _ => Or.inl ⟨rfl,hledger⟩⟩
    change Recordable store.vocabulary store.ledger
    rw [hledger]
    exact Ledger.every_empty _ _
  have hclose : Operation.Clean .close := rfl
  have hclosed := (hstart.foldl hplain hoperations).run hplain hclose
  obtain ⟨hfiles,hempty⟩ | ⟨kept,⟨hstorable,content,hcontent,hencode⟩,hwrote,hsame,hcleared⟩ :=
    hclosed.clean hclean
  · refine ⟨fun _ => ?_,fun _ => hempty⟩
    have hnothing : ∀ ledger, ¬store.Holds closed.files ledger := by
      rintro ledger ⟨content,-,hcontent,-⟩
      rw [hfiles] at hcontent
      exact habsent content hcontent
    have hstate : (tracker.load closed.files).state.store = store :=
      (Store.load_of_not_holds hnothing).2
    rw [hstate,hledger]
    exact hempty.symm
  · refine ⟨fun hundisturbed => ?_,fun hdisturbed => hcleared (hdisturbed.resolve_right ?_)⟩
    · have hload : store.load closed.files = ⟨true,{ store with ledger := kept },_,_⟩ :=
        Store.load_of_encode hstorable hcontent hencode
      have hstate : (tracker.load closed.files).state.store = { store with ledger := kept } :=
        congrArg Outcome.state hload
      rw [hstate]
      exact hsame (hundisturbed.resolve_right fun hnone => hnone hwrote)
    · exact fun hnone => hnone hwrote

def restartSettings : Settings where
  directory := "data"
  fileName := "list"
  delay := .zero
  abis := ["arm64-v8a"]
  level := "INFO"
  logFile := none

def restartStore : Store := .create (TextSet.ofList ["arm64"]) restartSettings.filePath .zero

def restartLoad : Load := ⟨"a","b,c",.user 0,"arm64",true,false⟩

def closedSession (operations : List Operation) : Session :=
  (operations.foldl Session.run { tracker := { store := restartStore, autoPersist := true }, files := {} }).run
    .close

theorem ofSettings_restartSettings : Store.ofSettings restartSettings = .ok restartStore := rfl

/-- A clearing is no harm if a write follows. -/
theorem reopened_restartLoad :
    let operations : List Operation := [.record restartLoad,.writeNow,.clear,.record restartLoad,.close]
    Store.ofSettings restartSettings = .ok restartStore ∧
    (∀ content, FileTree.contentOf {} restartStore.path.text ≠ .ok content) ∧
    (∀ operation ∈ operations, operation.Clean) ∧
    (closedSession operations).tracker.store.dirty = false ∧
    ((Tracker.mk restartStore true).load (closedSession operations).files).state.store.ledger =
      (closedSession operations).tracker.store.ledger := by
  intro operations
  have habsent : ∀ content, FileTree.contentOf {} restartStore.path.text ≠ .ok content := by
    have hnone : FileTree.contentOf {} restartStore.path.text =
        .error (.system .noEntry (.path "data/list")) := rfl
    intro content
    rw [hnone]
    exact nofun
  have hload : restartLoad.Meets Listing.NameStorable Listing.PathStorable (· ≠ .noOne) := by
    refine ⟨⟨⟨by decide,by decide,by decide⟩,by decide⟩,fun _ => ⟨by decide,by decide⟩,fun _ => by decide⟩
  have hoperations : ∀ operation ∈ operations, operation.Clean := by
    simp [operations,Operation.Clean,Operation.machine,hload]
  have hclean : (closedSession operations).tracker.store.dirty = false := by decide +kernel
  have hhistory : (closedSession operations).history = [.wrote,.cleared,.wrote] := by decide +kernel
  have hundisturbed : Undisturbed (closedSession operations).history := by simp [hhistory,Undisturbed]
  have hreopened := reopened_of_closed {} operations ofSettings_restartSettings habsent hoperations hclean
  exact ⟨ofSettings_restartSettings,habsent,hoperations,hclean,hreopened.1 (.inl hundisturbed)⟩

/-- A ledger that was written, cleared and closed comes back. -/
theorem reopened_after_clear :
    let closed := closedSession [.record restartLoad,.writeNow,.clear]
    closed.tracker.store.dirty = false ∧ closed.tracker.store.ledger = TextMap.empty ∧
    ((Tracker.mk restartStore true).load closed.files).state.store.ledger.contains "a" = true := by
  decide +kernel

end Session
end LoadLedger
