import LoadLedger.Proofs.Drafting.Sound

/-! # A file is published as a whole

However the steps of several writers are mixed, the file is as it was until a draft is finished, and
from then on it holds all that was written to the draft that was finished last. The temporary files
are those of the drafts that are neither finished nor discarded. What is done with a draft after that
changes no file.
-/
namespace LoadLedger.Drafting

open FileTree

/-- The drafts of the writers, in files that are sound. -/
structure Tracked (made : FileTree) (path : PathName) (drafts : Nat → Draft) (writers : Writers) :
    Prop where
  named : writers.drafting.path = path
  known : ∀ handle, handle < writers.history.started →
    writers.drafting.draft? handle = some (drafts handle)
  sound : Sound made path writers.drafting.files drafts writers.history

/-- What stays the same while writers are at work: the way to the file. -/
structure Room (made : FileTree) (path : PathName) : Prop where
  proper : path.Proper
  grounded : made.Grounded
  directory : made.ensureDirectories path.parent = (made,.ok ())
  free : made.isDirectory path.text = false

variable {made : FileTree} {path : PathName} {drafts : Nat → Draft} {writers : Writers}
  {handle : Nat} {piece : Text}

namespace Tracked

theorem stands (h : Tracked made path drafts writers) (hhandle : handle < writers.history.started) :
    Stands made writers.drafting.files writers.history handle (drafts handle) :=
  h.sound.stands handle hhandle

theorem open_of_live (h : Tracked made path drafts writers) (hfits : PathFits path.text)
    (hlive : writers.history.Live handle) : (drafts handle).closed = false := by
  cases hclosed : (drafts handle).closed with
  | false => rfl
  | true => exact absurd (h.sound.spent handle hlive.1 hfits hclosed) hlive.2

/-- The file that was there, or the one that was published, is no directory. -/
theorem not_isDirectoryAt (h : Tracked made path drafts writers) (hroom : Room made path)
    {location : Location} (hplace : made.place path.text = .ok (.entry location)) :
    writers.drafting.files.isDirectoryAt location = false := by
  have hpublished := h.sound.published location hplace
  cases hlast : writers.history.lastFinished with
  | none =>
    rw [isDirectoryAt,hpublished.none hlast]
    exact not_isDirectoryAt_of_place hroom.free hplace
  | some handle =>
    obtain ⟨bytes,-,hfile⟩ := hpublished.some handle hlast
    rw [isDirectoryAt,hfile]
    rfl

/-! ## What a step gives and changes -/

theorem write_of_spent (h : Tracked made path drafts writers)
    (hhandle : handle < writers.history.started) (hspent : (drafts handle).closed = true)
    (piece : Text) : writers.drafting.write handle piece = (writers.drafting,.error .closed) := by
  have hwrite : (drafts handle).write piece = .error .closed := if_pos hspent
  rw [Drafting.write_of_draft? (h.known handle hhandle),hwrite]

theorem write_of_error (h : Tracked made path drafts writers)
    (hhandle : handle < writers.history.started) (hopen : (drafts handle).closed = false)
    {error : Utf8.EncodeError} (hpiece : Utf8.encode piece = .error error) :
    writers.drafting.write handle piece = (writers.drafting,.error (.encode error)) := by
  have hwrite : (drafts handle).write piece = .error (.encode error) := by
    simp [Draft.write,hopen,hpiece]
  rw [Drafting.write_of_draft? (h.known handle hhandle),hwrite]

theorem write_of_encode (h : Tracked made path drafts writers)
    (hhandle : handle < writers.history.started) (hopen : (drafts handle).closed = false)
    {bytes : Bytes} (hpiece : Utf8.encode piece = .ok bytes) :
    writers.drafting.write handle piece = (writers.drafting.set handle
      { drafts handle with written := bytes :: (drafts handle).written },.ok piece.length) := by
  have hwrite : (drafts handle).write piece =
      .ok { drafts handle with written := bytes :: (drafts handle).written } := by
    simp [Draft.write,hopen,hpiece]
  rw [Drafting.write_of_draft? (h.known handle hhandle),hwrite]

theorem finish_of_spent (h : Tracked made path drafts writers)
    (hhandle : handle < writers.history.started) (hspent : (drafts handle).closed = true) :
    writers.drafting.finish handle =
      (writers.drafting.set handle (drafts handle),.error .closed) := by
  have hfinish : (drafts handle).finish writers.drafting.files writers.drafting.path =
      (drafts handle,writers.drafting.files,.error .closed) := if_pos hspent
  rw [Drafting.finish_of_draft? (h.known handle hhandle),hfinish]

theorem finish_of_fits (h : Tracked made path drafts writers) (hroom : Room made path)
    (hfits : PathFits path.text) (hlive : writers.history.Live handle) : ∃ location,
      made.place path.text = .ok (.entry location) ∧
      writers.drafting.finish handle = ({ writers.drafting with
        files := (writers.drafting.files.erase (drafts handle).location).put location
          (.file (drafts handle).content) }.set handle (drafts handle).close,.ok ()) := by
  obtain ⟨location,hplace⟩ := h.sound.placed (Nat.lt_of_le_of_lt (Nat.zero_le _) hlive.1) hfits
  have hopen := h.open_of_live hfits hlive
  have hnode := (h.stands hlive.1).node
  rw [if_neg hlive.2] at hnode
  have hsome : (writers.drafting.files.node? (drafts handle).location).isSome = true := by
    rw [hnode]
    rfl
  have hrename := rename_of_place (drafts handle).content hsome (h.sound.covers.place hplace)
    (h.not_isDirectoryAt hroom hplace)
  have hfinish : (drafts handle).finish writers.drafting.files writers.drafting.path =
      ((drafts handle).close,(writers.drafting.files.erase (drafts handle).location).put location
        (.file (drafts handle).content),.ok ()) := by
    simp [Draft.finish,hopen,h.named,hrename]
  exact ⟨location,hplace,by rw [Drafting.finish_of_draft? (h.known handle hlive.1),hfinish]⟩

theorem finish_of_not_fits (h : Tracked made path drafts writers) (hlong : ¬PathFits path.text)
    (hlive : writers.history.Live handle) (hopen : (drafts handle).closed = false) :
    writers.drafting.finish handle = (writers.drafting.set handle (drafts handle).close,
      .error (.system .nameTooLong (.renaming path.text))) := by
  have hnode := (h.stands hlive.1).node
  rw [if_neg hlive.2] at hnode
  have hfinish : (drafts handle).finish writers.drafting.files writers.drafting.path =
      ((drafts handle).close,writers.drafting.files,
        .error (.system .nameTooLong (.renaming path.text))) := by
    simp [Draft.finish,hopen,h.named,rename,place_of_not_pathFits _ hlong,hnode]
  rw [Drafting.finish_of_draft? (h.known handle hlive.1),hfinish]

theorem discard_of_lt (h : Tracked made path drafts writers)
    (hhandle : handle < writers.history.started) :
    writers.drafting.discard handle = ({ writers.drafting with
      files := writers.drafting.files.erase (drafts handle).location }.set handle
        (drafts handle).close,.ok ()) := by
  obtain ⟨above,stem,serial,hlocation,-,habove⟩ := (h.stands hhandle).place
  have hdiscard := Draft.discard_of_grounded h.sound.grounded habove hlocation
  rw [Drafting.discard_of_draft? (h.known handle hhandle),hdiscard]

theorem start_of_error (h : Tracked made path drafts writers) (hroom : Room made path) (fresh : Int)
    {error : FileError}
    (hdraft : writers.drafting.files.makeTemporary path.parent.text path.name = .error error) :
    writers.drafting.start fresh = (writers.drafting,.error error) := by
  obtain rfl := h.named
  have hensure := ensureDirectories_of_covers hroom.directory h.sound.covers
  simp only [Drafting.start,Draft.start,hensure,hdraft]

theorem start_of_ok (h : Tracked made path drafts writers) (hroom : Room made path) (fresh : Int)
    {later : FileTree} {location : Location}
    (hdraft : writers.drafting.files.makeTemporary path.parent.text path.name =
      .ok (later,location)) :
    writers.drafting.start fresh =
      ({ writers.drafting with files := later }.set fresh { location },.ok ()) := by
  have hensure := ensureDirectories_of_covers hroom.directory h.sound.covers
  simp only [Drafting.start,Draft.start,h.named,hensure,hdraft]

/-! ## Taking one step after another -/

theorem after (h : Tracked made path drafts writers) {later : FileTree} {draft : Draft} {step : Step}
    (hbound : ∀ other, other < History.started (step :: writers.history) → other ≠ handle →
      other < writers.history.started)
    (hsound : Sound made path later (changed drafts handle draft) (step :: writers.history)) :
    Tracked made path (changed drafts handle draft)
      ⟨{ writers.drafting with files := later }.set handle draft,step :: writers.history⟩ where
  named := h.named
  known := by
    intro other hother
    rw [draft?_set]
    by_cases heq : other = handle
    · rw [heq,if_pos rfl,changed_self]
    · rw [if_neg (by omega),changed_of_ne drafts draft heq]
      exact h.known other (hbound other hother heq)
  sound := hsound

theorem step_start (h : Tracked made path drafts writers) (hroom : Room made path) :
    ∃ drafts, Tracked made path drafts (writers.next .start) := by
  have hnext : writers.next .start = writers.take .start := rfl
  cases hdraft : writers.drafting.files.makeTemporary path.parent.text path.name with
  | error error =>
    rw [hnext,Writers.take,perform,h.start_of_error hroom _ hdraft]
    exact ⟨drafts,h⟩
  | ok made' =>
    obtain ⟨later,location⟩ := made'
    have hdirectory := isDirectory_of_ensureParts hroom.directory
    rw [List.reverse_reverse] at hdirectory
    obtain ⟨_,_,hroomDraft⟩ :=
      makeTemporary_of_isDirectory h.sound.covers.home hdirectory hdraft
    have hplaced (hfits : PathFits path.text) :
        ∃ location, made.place path.text = .ok (.entry location) := by
      obtain ⟨target,hplace,-⟩ :=
        place_of_makeTemporary hroom.proper hroom.grounded hroomDraft hfits hroom.free
      exact ⟨target,hplace⟩
    rw [hnext,Writers.take,perform,h.start_of_ok hroom _ hdraft]
    refine ⟨_,h.after (fun other hother hne => ?_) (h.sound.start hdraft hplaced)⟩
    rw [History.started_cons_start] at hother
    omega

theorem step_write (h : Tracked made path drafts writers)
    (hhandle : handle < writers.history.started) (piece : Text) :
    ∃ drafts, Tracked made path drafts (writers.next (.write handle piece)) := by
  rw [Writers.next_of_handle? rfl hhandle,Writers.take,perform]
  cases hspent : (drafts handle).closed with
  | true =>
    rw [h.write_of_spent hhandle hspent]
    exact ⟨drafts,h⟩
  | false =>
    cases hpiece : Utf8.encode piece with
    | error error =>
      rw [h.write_of_error hhandle hspent hpiece]
      exact ⟨drafts,h⟩
    | ok bytes =>
      rw [h.write_of_encode hhandle hspent hpiece]
      refine ⟨_,h.after (fun other hother _ => ?_) (h.sound.write hhandle hspent hpiece)⟩
      rwa [History.started_cons rfl] at hother

/-- A draft that is put back, or closed because the path is too long, is still the same to others. -/
theorem set (h : Tracked made path drafts writers) {draft : Draft}
    (hsound : Sound made path writers.drafting.files (changed drafts handle draft) writers.history) :
    Tracked made path (changed drafts handle draft)
      ⟨writers.drafting.set handle draft,writers.history⟩ where
  named := h.named
  known := by
    intro other hother
    rw [draft?_set]
    by_cases heq : other = handle
    · rw [heq,if_pos rfl,changed_self]
    · rw [if_neg (by omega),changed_of_ne drafts draft heq]
      exact h.known other hother
  sound := hsound

theorem step_finish (h : Tracked made path drafts writers) (hroom : Room made path)
    (hhandle : handle < writers.history.started) :
    ∃ drafts, Tracked made path drafts (writers.next (.finish handle)) := by
  rw [Writers.next_of_handle? rfl hhandle,Writers.take,perform]
  cases hspent : (drafts handle).closed with
  | true =>
    have hsame : changed drafts handle (drafts handle) = drafts := by
      funext other
      unfold changed
      split
      · rename_i heq
        rw [heq]
      · rfl
    rw [h.finish_of_spent hhandle hspent]
    exact ⟨_,h.set (hsame.symm ▸ h.sound)⟩
  | false =>
    have hlive : writers.history.Live handle := by
      refine ⟨hhandle,fun hclosed => ?_⟩
      rw [(h.stands hhandle).closed hclosed] at hspent
      cases hspent
    by_cases hfits : PathFits path.text
    · obtain ⟨location,hplace,hfinish⟩ := h.finish_of_fits hroom hfits hlive
      rw [hfinish]
      refine ⟨_,h.after (fun other hother _ => ?_)
        (h.sound.finish hhandle hfits hplace (h.not_isDirectoryAt hroom hplace))⟩
      rwa [History.started_cons rfl] at hother
    · rw [h.finish_of_not_fits hfits hlive hspent]
      exact ⟨_,h.set (h.sound.spend hfits)⟩

theorem step_discard (h : Tracked made path drafts writers)
    (hhandle : handle < writers.history.started) :
    ∃ drafts, Tracked made path drafts (writers.next (.discard handle)) := by
  rw [Writers.next_of_handle? rfl hhandle,Writers.take,perform,h.discard_of_lt hhandle]
  refine ⟨_,h.after (fun other hother _ => ?_) (h.sound.discard hhandle)⟩
  rwa [History.started_cons rfl] at hother

theorem next (h : Tracked made path drafts writers) (hroom : Room made path) (step : Step) :
    ∃ drafts, Tracked made path drafts (writers.next step) := by
  by_cases htaken : step.handle?.all (· < writers.history.started) = true
  · cases step with
    | start => exact h.step_start hroom
    | write handle piece => exact h.step_write (of_decide_eq_true htaken) piece
    | finish handle => exact h.step_finish hroom (of_decide_eq_true htaken)
    | discard handle => exact h.step_discard (of_decide_eq_true htaken)
  · have hskip : writers.next step = writers := if_neg htaken
    rw [hskip]
    exact ⟨drafts,h⟩

end Tracked

/-! ## All steps -/

theorem tracked_initial (hroom : Room made path) (drafts : Nat → Draft) :
    Tracked made path drafts { drafting := { path,files := made } } where
  named := rfl
  known := by
    intro handle hhandle
    cases hhandle
  sound := by
    refine ⟨⟨rfl,fun _ => id,fun _ _ => id⟩,hroom.grounded,?_,?_,?_,?_,?_,?_,?_,fun _ _ _ => rfl⟩
    · intro step hstep
      cases hstep
    · intro hstarted
      cases hstarted
    · intro hlast
      exact absurd rfl hlast
    · intro handle hhandle
      cases hhandle
    · intro handle hhandle
      cases hhandle
    · intro handle handle' hhandle
      cases hhandle
    · intro location hplace
      refine ⟨fun _ => rfl,fun handle hlast => ?_⟩
      cases hlast

variable {tree : FileTree}

/-- Nothing has happened yet, or the directories have been made and the drafts are tracked. -/
def Reached (tree made : FileTree) (path : PathName) (writers : Writers) : Prop :=
  writers = { drafting := { path,files := tree } } ∨ ∃ drafts, Tracked made path drafts writers

namespace Reached

theorem next (h : Reached tree made path writers) (hroom : Room made path)
    (hmade : tree.ensureDirectories path.parent = (made,.ok ())) (step : Step) :
    Reached tree made path (writers.next step) := by
  rcases h with rfl | ⟨drafts,h⟩
  · cases step with
    | start =>
      -- the start makes the directories, so it is as if they had been there
      have hsame : Writers.next { drafting := { path,files := tree } } .start =
          Writers.next { drafting := { path,files := made } } .start := by
        simp only [Writers.next,Writers.take,perform,Drafting.start,Draft.start,hmade,hroom.directory]
        rfl
      rw [hsame]
      exact .inr ((tracked_initial hroom fun _ => { location := [] }).next hroom .start)
    | _ => exact .inl rfl
  · exact .inr (h.next hroom step)

theorem run (hroom : Room made path) (hmade : tree.ensureDirectories path.parent = (made,.ok ()))
    (steps : List Step) : Reached tree made path (Writers.run { path,files := tree } steps) := by
  have hsteps : ∀ writers, Reached tree made path writers →
      Reached tree made path (steps.foldl Writers.next writers) := by
    induction steps with
    | nil => exact fun _ h => h
    | cons step steps ih => exact fun writers h => ih _ (h.next hroom hmade step)
  exact hsteps _ (.inl rfl)

end Reached

theorem room_of_ensureDirectories (hpath : path.Proper) (htree : tree.Grounded)
    (hmade : tree.ensureDirectories path.parent = (made,.ok ()))
    (hfree : made.isDirectory path.text = false) : Room made path := by
  have hgrown := grown_of_ensureDirectories hmade
  refine ⟨hpath,hgrown.grounded htree,?_,hfree⟩
  have hself : made.Grown made path := .refl made
  exact ensureDirectories_of_covers hmade hself.covers

/-- The temporary files are those that were there before and one for each draft that is neither
finished nor discarded. -/
def OneForEach (tree files : FileTree) (history : History) : Prop :=
  ∃ place : Nat → Location,
    (∀ handle, history.Live handle → tree.node? (place handle) = none ∧
      ∃ above stem serial, place handle = above ++ [.temporary stem serial]) ∧
    (∀ handle handle', history.Live handle → history.Live handle' →
      place handle = place handle' → handle = handle') ∧
    ∀ above stem serial, (files.node? (above ++ [.temporary stem serial])).isSome = true ↔
      (tree.node? (above ++ [.temporary stem serial])).isSome = true ∨
      ∃ handle, history.Live handle ∧ place handle = above ++ [.temporary stem serial]

theorem Tracked.oneForEach (h : Tracked made path drafts writers) (hgrown : made.Grown tree path) :
    OneForEach tree writers.drafting.files writers.history := by
  have hspares := hgrown.spares
  have hfree (handle : Nat) (hhandle : handle < writers.history.started) :
      tree.node? (drafts handle).location = none := by
    have hstands := h.stands hhandle
    obtain ⟨above,stem,serial,hlocation,-,-⟩ := hstands.place
    have hmade := hstands.free
    rw [hlocation] at hmade ⊢
    exact (hspares.temporary above stem serial).symm.trans hmade
  refine ⟨fun handle => (drafts handle).location,fun handle hlive => ⟨hfree handle hlive.1,?_⟩,
    fun handle handle' hlive hlive' => h.sound.distinct handle handle' hlive.1 hlive'.1,?_⟩
  · obtain ⟨above,stem,serial,hlocation,-,-⟩ := (h.stands hlive.1).place
    exact ⟨above,stem,serial,hlocation⟩
  intro above stem serial
  have hplain : made.place path.text ≠ .ok (.entry (above ++ [.temporary stem serial])) :=
    fun hplace => ne_temporary_of_place hplace above stem serial rfl
  by_cases hdraft : ∃ handle, handle < writers.history.started ∧
      above ++ [.temporary stem serial] = (drafts handle).location
  · obtain ⟨handle,hhandle,heq⟩ := hdraft
    have hstands := h.stands hhandle
    rw [heq,hstands.node,hfree handle hhandle]
    constructor
    · intro hsome
      refine .inr ⟨handle,⟨hhandle,fun hclosed => ?_⟩,rfl⟩
      rw [if_pos hclosed] at hsome
      cases hsome
    · rintro (hsome | ⟨handle',hlive,hmeet⟩)
      · cases hsome
      · obtain rfl := h.sound.distinct handle' handle hlive.1 hhandle hmeet
        rw [if_neg hlive.2]
        rfl
  · have hnone : ∀ handle, handle < writers.history.started →
        above ++ [.temporary stem serial] ≠ (drafts handle).location :=
      fun handle hhandle heq => hdraft ⟨handle,hhandle,heq⟩
    rw [h.sound.others _ hnone hplain,hspares.temporary above stem serial]
    refine ⟨.inl,fun hsome => hsome.elim id ?_⟩
    rintro ⟨handle,hlive,heq⟩
    exact absurd heq.symm (hnone handle hlive.1)

theorem Tracked.node?_of_place (h : Tracked made path drafts writers) (hroom : Room made path)
    (hgrown : made.Grown tree path) (hlast : writers.history.lastFinished = none)
    {location : Location} (hplace : made.place path.text = .ok (.entry location)) :
    writers.drafting.files.node? location = tree.node? location := by
  have hnot : made.isDirectoryAt location = false := not_isDirectoryAt_of_place hroom.free hplace
  have hsame : made.node? location = tree.node? location := by
    rcases hgrown.node location with hsame | ⟨-,hdirectory,-⟩
    · exact hsame
    · rw [isDirectoryAt,hdirectory] at hnot
      cases hnot
  exact ((h.sound.published location hplace).none hlast).trans hsame

theorem Tracked.contentOf (h : Tracked made path drafts writers)
    (hlast : writers.history.lastFinished = some handle) : ∃ bytes,
      writers.drafting.files.contentOf path.text = .ok bytes ∧
      Utf8.encode (writers.history.textOf handle) = .ok bytes := by
  have hhandle := h.sound.lt_of_closed (History.closed_of_lastFinished hlast)
  have hfits := h.sound.fits (by simp [hlast])
  obtain ⟨location,hplace⟩ := h.sound.placed (Nat.lt_of_le_of_lt (Nat.zero_le _) hhandle) hfits
  obtain ⟨bytes,hencode,hfile⟩ := (h.sound.published location hplace).some handle hlast
  exact ⟨bytes,contentOf_eq_ok (h.sound.covers.place hplace) hfile,hencode⟩

theorem Tracked.files_discard_of_closed (h : Tracked made path drafts writers)
    (hclosed : writers.history.Closed handle) :
    (writers.drafting.discard handle).1.files = writers.drafting.files := by
  have hhandle := h.sound.lt_of_closed hclosed
  have hstands := h.stands hhandle
  obtain ⟨_,_,_,hlocation,-,-⟩ := hstands.place
  have hne : (drafts handle).location ≠ [] := by simp [hlocation]
  have hgone := hstands.node
  rw [if_pos hclosed] at hgone
  rw [h.discard_of_lt hhandle]
  exact erase_of_node?_eq_none hne hgone

/-- A draft to which nothing can be written and that cannot be finished. To try changes no file. -/
structure Refuses (drafting : Drafting) (handle : Nat) : Prop where
  write : ∀ piece, drafting.write handle piece = (drafting,.error .closed)
  finish : (drafting.finish handle).2 = .error .closed
  files : (drafting.finish handle).1.files = drafting.files

/-- A draft that takes every piece that can be encoded, and stays as it is if a piece cannot. It can
be finished unless the path is too long; then to try changes no file. -/
structure Accepts (path : PathName) (drafting : Drafting) (handle : Nat) : Prop where
  write : ∀ piece bytes, Utf8.encode piece = .ok bytes →
    (drafting.write handle piece).2 = .ok piece.length
  refuse : ∀ piece error, Utf8.encode piece = .error error →
    drafting.write handle piece = (drafting,.error (.encode error))
  finish : (drafting.finish handle).2 = .ok () ↔ PathFits path.text
  files : ¬PathFits path.text → (drafting.finish handle).1.files = drafting.files

theorem Tracked.refuses (h : Tracked made path drafts writers)
    (hhandle : handle < writers.history.started) (hspent : (drafts handle).closed = true) :
    Refuses writers.drafting handle where
  write := h.write_of_spent hhandle hspent
  finish := by rw [h.finish_of_spent hhandle hspent]
  files := by
    rw [h.finish_of_spent hhandle hspent]
    rfl

theorem Tracked.accepts (h : Tracked made path drafts writers) (hroom : Room made path)
    (hlive : writers.history.Live handle) (hopen : (drafts handle).closed = false) :
    Accepts path writers.drafting handle where
  write := fun piece bytes hpiece => by rw [h.write_of_encode hlive.1 hopen hpiece]
  refuse := fun piece error => h.write_of_error hlive.1 hopen
  finish := by
    constructor
    · intro hfinish
      apply Classical.byContradiction
      intro hlong
      rw [h.finish_of_not_fits hlong hlive hopen] at hfinish
      cases hfinish
    · intro hfits
      obtain ⟨_,-,hfinish⟩ := h.finish_of_fits hroom hfits hlive
      rw [hfinish]
  files := fun hlong => by
    rw [h.finish_of_not_fits hlong hlive hopen]
    rfl

/-- Whatever steps are taken, the file is as it was until a draft is finished, and then it holds what
was written to the one finished last; there is one temporary file for each draft that is neither
finished nor discarded. Such a draft can be discarded, and it can be written and finished unless that
has been tried already, which fails only if the path is too long. Once it is finished or discarded,
nothing more can be written to it and no file changes by it. -/
theorem publishes_whole_texts (tree made : FileTree) (path : PathName) (hpath : path.Proper)
    (htree : tree.Grounded) (hmade : tree.ensureDirectories path.parent = (made,.ok ()))
    (hfree : made.isDirectory path.text = false) (steps : List Step) :
    let writers := Writers.run { path,files := tree } steps
    let drafting := writers.drafting
    (writers.history.lastFinished = none → ∀ location,
      made.place path.text = .ok (.entry location) →
      drafting.files.node? location = tree.node? location) ∧
    (∀ handle, writers.history.lastFinished = some handle → ∃ bytes,
      drafting.files.contentOf path.text = .ok bytes ∧
      Utf8.encode (writers.history.textOf handle) = .ok bytes) ∧
    OneForEach tree drafting.files writers.history ∧
    (∀ handle, writers.history.Live handle → (drafting.discard handle).2 = .ok () ∧
      (Accepts path drafting handle ∨ ¬PathFits path.text ∧ Refuses drafting handle)) ∧
    ∀ handle, writers.history.Closed handle → Refuses drafting handle ∧
      (drafting.discard handle).2 = .ok () ∧
      (drafting.discard handle).1.files = drafting.files := by
  intro writers drafting
  have hroom := room_of_ensureDirectories hpath htree hmade hfree
  have hgrown := grown_of_ensureDirectories hmade
  have hreached : Reached tree made path writers := Reached.run hroom hmade steps
  clear_value writers
  rcases hreached with rfl | ⟨drafts,h⟩
  · have hlive : ∀ handle, ¬History.Live [] handle := fun handle hlive => Nat.not_lt_zero _ hlive.1
    have hclosed : ∀ handle, ¬History.Closed [] handle := by simp [History.Closed]
    refine ⟨fun _ _ _ => rfl,fun handle hlast => (by cases hlast),⟨fun _ => [],?_,?_,?_⟩,
      fun handle h => absurd h (hlive handle),fun handle h => absurd h (hclosed handle)⟩
    · exact fun handle h => absurd h (hlive handle)
    · exact fun handle _ h => absurd h (hlive handle)
    · intro above stem serial
      refine ⟨.inl,fun hsome => hsome.elim id ?_⟩
      rintro ⟨handle,h,-⟩
      exact absurd h (hlive handle)
  · refine ⟨fun hlast _ => h.node?_of_place hroom hgrown hlast,fun _ => h.contentOf,
      h.oneForEach hgrown,fun handle hlive => ?_,fun handle hclosed => ?_⟩
    · refine ⟨by rw [h.discard_of_lt hlive.1],?_⟩
      cases hspent : (drafts handle).closed with
      | false => exact .inl (h.accepts hroom hlive hspent)
      | true =>
        refine .inr ⟨fun hfits => ?_,h.refuses hlive.1 hspent⟩
        rw [h.open_of_live hfits hlive] at hspent
        cases hspent
    · have hhandle := h.sound.lt_of_closed hclosed
      refine ⟨h.refuses hhandle ((h.stands hhandle).closed hclosed),?_,
        h.files_discard_of_closed hclosed⟩
      rw [h.discard_of_lt hhandle]

/-- Two drafts at once, the first of which is finished last, although one piece could not be written
to it. -/
theorem publishes_whole_texts_last :
    let tree : FileTree := { nodes := [([.plain [97]],.file [1])] }
    let steps : List Step := [.start,.start,.write 0 "b",.write 1 "c",.finish 1,.write 1 "d",
      .write 0 [0xD800],.write 0 "e",.finish 0,.discard 1]
    tree.Grounded ∧ tree.isDirectory "a" = false ∧
    (Writers.run { path := .ofText "a",files := tree } steps).drafting.files.contentOf "a" =
      .ok [98,101] := by
  intro tree steps
  have hgrounded : tree.Grounded := grounded_of_nodes (by decide)
  have hfree : tree.isDirectory "a" = false := by decide
  obtain ⟨-,hafter,-⟩ := publishes_whole_texts tree tree (.ofText "a") (by decide) hgrounded rfl
    hfree steps
  obtain ⟨bytes,hcontent,hencode⟩ := hafter 0 (by decide +kernel)
  have htext : (Writers.run { path := .ofText "a",files := tree } steps).history.textOf 0 = "be" := by
    decide +kernel
  rw [htext] at hencode
  have hbytes : [98,101] = bytes := Except.ok.inj hencode
  rw [← hbytes] at hcontent
  exact ⟨hgrounded,hfree,hcontent⟩

end LoadLedger.Drafting
