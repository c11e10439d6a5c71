import LoadLedger.Proofs.Drafting.History
import LoadLedger.Proofs.FileTree.Entries

/-! # Drafts side by side

Each draft of a file has a temporary file of its own, which is there from its start until it is
finished or discarded. Serial numbers are not given out twice and are not part of plain names, so no
two drafts share a location and none stands where the path leads to. A step of one draft therefore
leaves the others as they are. If the path is too long, a draft cannot be finished, but is closed by
the attempt; its temporary file stays until it is discarded.
-/
namespace LoadLedger

namespace FileTree

theorem covers_erase {tree : FileTree} {above : Location} {stem : Bytes} {serial : Nat}
    (h : tree.isDirectoryAt (above ++ [.temporary stem serial]) = false) :
    Covers (tree.erase (above ++ [.temporary stem serial])) tree where
  home := rfl
  directory := by
    intro location hlocation
    have hne : location ≠ above ++ [.temporary stem serial] := by
      rintro rfl
      rw [h] at hlocation
      cases hlocation
    rw [isDirectoryAt,node?_erase _ _ (by simp),if_neg hne]
    exact hlocation
  named := by
    intro parent name hnamed
    rw [node?_erase _ _ (by simp),if_neg (by simp)]
    exact hnamed

/-- Whether a draft can be made in a directory does not depend on what else is there. -/
theorem makeTemporary_of_isDirectory {tree later drafted : FileTree} {directory stem : Text}
    {draft : Location} (hhome : later.home = tree.home)
    (hdirectory : tree.isDirectory directory = true)
    (h : later.makeTemporary directory stem = .ok (drafted,draft)) :
    ∃ drafted draft, tree.makeTemporary directory stem = .ok (drafted,draft) := by
  obtain ⟨name,bytes,_,hname,hbytes,hfits,-,-,-,-⟩ := makeTemporary_eq_ok_iff.1 h
  rw [absolute,hhome] at hfits
  obtain ⟨place,hplace,hthere⟩ := isDirectory_iff.1 hdirectory
  obtain ⟨bytes',hbytes',hplaceOf⟩ := place_eq_ok_iff.1 hplace
  obtain rfl := Except.ok.inj (hbytes.symm.trans hbytes')
  exact ⟨_,_,makeTemporary_eq_ok_iff.2 ⟨name,bytes,place,hname,hbytes,hfits,hplaceOf,hthere,rfl,rfl⟩⟩

end FileTree

namespace Drafting

open FileTree

/-- A draft is what the steps made of it. Its temporary file is there until it is finished or
discarded, at a location that was free when the directories had just been made. -/
structure Stands (made files : FileTree) (history : History) (handle : Nat) (draft : Draft) :
    Prop where
  closed : history.Closed handle → draft.closed = true
  text : Utf8.encode (history.textOf handle) = .ok draft.content
  place : ∃ above stem serial, draft.location = above ++ [.temporary stem serial] ∧
    serial < files.serial ∧ files.isDirectoryAt above = true
  free : made.node? draft.location = none
  node : files.node? draft.location = if history.Closed handle then none else some (.file [])

/-- What is at the location of the file: what was there when the directories had just been made, or
what was written to the draft that was finished last. -/
structure Published (made files : FileTree) (history : History) (location : Location) : Prop where
  none : history.lastFinished = none → files.node? location = made.node? location
  some : ∀ handle, history.lastFinished = some handle → ∃ bytes,
    Utf8.encode (history.textOf handle) = .ok bytes ∧ files.node? location = some (.file bytes)

structure Sound (made : FileTree) (path : PathName) (files : FileTree) (drafts : Nat → Draft)
    (history : History) : Prop where
  covers : files.Covers made
  grounded : files.Grounded
  numbered : ∀ step ∈ history, ∀ handle, step.handle? = some handle → handle < history.started
  placed : 0 < history.started → PathFits path.text →
    ∃ location, made.place path.text = .ok (.entry location)
  fits : history.lastFinished ≠ none → PathFits path.text
  spent : ∀ handle, handle < history.started → PathFits path.text →
    (drafts handle).closed = true → history.Closed handle
  stands : ∀ handle, handle < history.started → Stands made files history handle (drafts handle)
  distinct : ∀ handle handle', handle < history.started → handle' < history.started →
    (drafts handle).location = (drafts handle').location → handle = handle'
  published : ∀ location, made.place path.text = .ok (.entry location) →
    Published made files history location
  others : ∀ location, (∀ handle, handle < history.started → location ≠ (drafts handle).location) →
    made.place path.text ≠ .ok (.entry location) → files.node? location = made.node? location

variable {tree made files later : FileTree} {path : PathName} {drafts : Nat → Draft}
  {history : History} {handle : Nat} {draft : Draft} {step : Step} {location : Location}

def changed (drafts : Nat → Draft) (handle : Nat) (draft : Draft) (handle' : Nat) : Draft :=
  if handle' = handle then draft else drafts handle'

theorem changed_self (drafts : Nat → Draft) (handle : Nat) (draft : Draft) :
    changed drafts handle draft handle = draft := if_pos rfl

theorem changed_of_ne (drafts : Nat → Draft) (draft : Draft) {handle' : Nat}
    (h : handle' ≠ handle) : changed drafts handle draft handle' = drafts handle' := if_neg h

namespace Stands

theorem not_isDirectoryAt (h : Stands made files history handle draft) :
    files.isDirectoryAt draft.location = false := by
  rw [isDirectoryAt,h.node]
  split <;> rfl

theorem ne_of_place (h : Stands made files history handle draft)
    (hplace : made.place path.text = .ok (.entry location)) : draft.location ≠ location := by
  obtain ⟨above,stem,serial,hdraft,-,-⟩ := h.place
  rw [hdraft]
  exact (ne_temporary_of_place hplace above stem serial).symm

theorem frame (h : Stands made files history handle draft) (hstep : step.handle? ≠ some handle)
    (hcovers : later.Covers files) (hserial : files.serial ≤ later.serial)
    (hnode : later.node? draft.location = files.node? draft.location) :
    Stands made later (step :: history) handle draft where
  closed := fun hclosed => h.closed ((History.closed_cons_of_ne hstep).1 hclosed)
  text := by
    rw [History.textOf_cons_of_ne hstep]
    exact h.text
  place := by
    obtain ⟨above,stem,serial,hdraft,hlower,habove⟩ := h.place
    exact ⟨above,stem,serial,hdraft,Nat.lt_of_lt_of_le hlower hserial,hcovers.directory _ habove⟩
  free := h.free
  node := by
    simp only [hnode,h.node,History.closed_cons_of_ne hstep]

end Stands

/-- A step that finishes no draft and writes to none that is closed publishes nothing. -/
theorem Published.frame (h : Published made files history location)
    (hfinished : step.finished? = Option.none)
    (htext : ∀ handle, history.Closed handle → step.textFor handle = [])
    (hnode : later.node? location = files.node? location) :
    Published made later (step :: history) location := by
  have hlast : History.lastFinished (step :: history) = history.lastFinished :=
    History.lastFinished_cons hfinished
  refine ⟨fun hnone => ?_,fun handle hsome => ?_⟩
  · rw [hlast] at hnone
    exact hnode.trans (h.none hnone)
  · rw [hlast] at hsome
    obtain ⟨bytes,hencode,hfile⟩ := h.some handle hsome
    have hclosed := History.closed_of_lastFinished hsome
    refine ⟨bytes,?_,hnode.trans hfile⟩
    rw [History.textOf_cons,htext handle hclosed,List.append_nil]
    exact hencode

namespace Sound

theorem lt_of_closed (h : Sound made path files drafts history) (hclosed : history.Closed handle) :
    handle < history.started := by
  rcases hclosed with hmem | hmem
  · exact h.numbered _ hmem handle rfl
  · exact h.numbered _ hmem handle rfl

/-- The step of one draft, of which only its own state, its temporary file and the file at the path
can change. -/
theorem update (h : Sound made path files drafts history) (hhandle : handle < history.started)
    (hstep : step.handle? = some handle) (hlocation : draft.location = (drafts handle).location)
    (hcovers : later.Covers files) (hgrounded : later.Grounded) (hserial : later.serial = files.serial)
    (hfits : step.finished? ≠ none → PathFits path.text)
    (hspent : PathFits path.text → draft.closed = true → History.Closed (step :: history) handle)
    (hstands : Stands made later (step :: history) handle draft)
    (hpublished : ∀ location, made.place path.text = .ok (.entry location) →
      Published made later (step :: history) location)
    (hnode : ∀ location, location ≠ draft.location →
      made.place path.text ≠ .ok (.entry location) →
      later.node? location = files.node? location) :
    Sound made path later (changed drafts handle draft) (step :: history) := by
  have hstarted : History.started (step :: history) = history.started := History.started_cons hstep
  have hsame : ∀ handle', (changed drafts handle draft handle').location =
      (drafts handle').location := by
    intro handle'
    by_cases heq : handle' = handle
    · rw [heq,changed_self,hlocation]
    · rw [changed_of_ne drafts draft heq]
  refine ⟨hcovers.trans h.covers,hgrounded,?_,?_,?_,?_,?_,?_,hpublished,?_⟩
  · intro other hother handle' hhandle'
    rw [hstarted]
    rcases List.mem_cons.1 hother with rfl | hother
    · obtain rfl := Option.some.inj (hstep.symm.trans hhandle')
      exact hhandle
    · exact h.numbered other hother handle' hhandle'
  · rw [hstarted]
    exact h.placed
  · intro hlast
    by_cases hfinished : step.finished? = none
    · rw [History.lastFinished_cons hfinished] at hlast
      exact h.fits hlast
    · exact hfits hfinished
  · intro handle' hhandle' hpath hclosed
    rw [hstarted] at hhandle'
    by_cases heq : handle' = handle
    · rw [heq,changed_self] at hclosed
      rw [heq]
      exact hspent hpath hclosed
    · rw [changed_of_ne drafts draft heq] at hclosed
      have hother : step.handle? ≠ some handle' := by
        rw [hstep]
        exact fun hsome => heq (Option.some.inj hsome).symm
      exact (History.closed_cons_of_ne hother).2 (h.spent handle' hhandle' hpath hclosed)
  · intro handle' hhandle'
    rw [hstarted] at hhandle'
    by_cases heq : handle' = handle
    · rw [heq,changed_self]
      exact hstands
    · rw [changed_of_ne drafts draft heq]
      have hold := h.stands handle' hhandle'
      have hother : step.handle? ≠ some handle' := by
        rw [hstep]
        exact fun hsome => heq (Option.some.inj hsome).symm
      refine hold.frame hother hcovers (Nat.le_of_eq hserial.symm) (hnode _ ?_ ?_)
      · rw [hlocation]
        exact fun hmeet => heq (h.distinct handle' handle hhandle' hhandle hmeet)
      · exact fun hplace => hold.ne_of_place hplace rfl
  · intro handle' handle'' hhandle' hhandle'' hmeet
    rw [hstarted] at hhandle' hhandle''
    rw [hsame,hsame] at hmeet
    exact h.distinct handle' handle'' hhandle' hhandle'' hmeet
  · intro location hdrafts hplace
    have hold : ∀ handle', handle' < history.started → location ≠ (drafts handle').location := by
      intro handle' hhandle'
      rw [← hsame]
      exact hdrafts handle' (by rwa [hstarted])
    have hne : location ≠ draft.location := by
      rw [hlocation]
      exact hold handle hhandle
    exact (hnode location hne hplace).trans (h.others location hold hplace)

theorem start (h : Sound made path files drafts history)
    (hdraft : files.makeTemporary path.parent.text path.name = .ok (later,location))
    (hplaced : PathFits path.text → ∃ location, made.place path.text = .ok (.entry location)) :
    Sound made path later (changed drafts history.started { location }) (.start :: history) := by
  obtain ⟨stem,_,place,-,-,-,-,habove,hlocation,hlater⟩ := makeTemporary_eq_ok_iff.1 hdraft
  have hcovers := covers_of_makeTemporary hdraft
  have hnode := node?_of_makeTemporary hdraft
  have hfresh := files.serial_le_freshSerial
  have hserial : later.serial = files.freshSerial + 1 := by rw [hlater]
  have hstarted := History.started_cons_start history
  have hnew : ∀ handle, handle < history.started → (drafts handle).location ≠ location := by
    intro handle hhandle hmeet
    obtain ⟨_,_,serial,hold,hlower,-⟩ := (h.stands handle hhandle).place
    rw [hlocation,hold] at hmeet
    have hname := (List.append_inj' hmeet rfl).2
    simp at hname
    omega
  have hplain : ∀ location', made.place path.text = .ok (.entry location') → location' ≠ location := by
    intro location' hplace
    rw [hlocation]
    exact ne_temporary_of_place hplace place.location stem files.freshSerial
  have hfree : files.node? location = none := by
    rw [hlocation]
    exact node?_freshSerial files place.location stem
  have hunused : ∀ step ∈ history, step.handle? ≠ some history.started := fun step hstep hhandle =>
    Nat.lt_irrefl _ (h.numbered step hstep _ hhandle)
  refine ⟨hcovers.trans h.covers,?_,?_,fun _ => hplaced,?_,?_,?_,?_,?_,?_⟩
  · refine h.grounded.of_added hcovers hlocation habove fun other hsome => ?_
    rw [hnode] at hsome
    split at hsome
    · rename_i heq
      exact .inl heq
    · exact .inr hsome
  · intro step hstep handle hhandle
    rw [hstarted]
    rcases List.mem_cons.1 hstep with rfl | hstep
    · cases hhandle
    · exact Nat.lt_succ_of_lt (h.numbered step hstep handle hhandle)
  · rw [History.lastFinished_cons rfl]
    exact h.fits
  · intro handle hhandle hpath hclosed
    rw [hstarted] at hhandle
    by_cases heq : handle = history.started
    · rw [heq,changed_self] at hclosed
      cases hclosed
    · rw [changed_of_ne drafts _ heq] at hclosed
      rw [History.closed_cons_of_ne (by simp [Step.handle?])]
      exact h.spent handle (by omega) hpath hclosed
  · intro handle hhandle
    rw [hstarted] at hhandle
    have hlive : ¬History.Closed (.start :: history) history.started := by
      rw [History.closed_cons_of_ne (by simp [Step.handle?])]
      exact History.not_closed hunused
    by_cases heq : handle = history.started
    · subst heq
      rw [changed_self]
      refine ⟨fun hclosed => absurd hclosed hlive,?_,⟨place.location,stem,_,hlocation,by omega,hcovers.directory _ habove⟩,?_,?_⟩
      · rw [History.textOf_cons_of_ne (by simp [Step.handle?]),History.textOf_eq_nil hunused]
        rfl
      · have hbefore := h.others location (fun handle hhandle => (hnew handle hhandle).symm)
          fun hplace => hplain location hplace rfl
        exact hbefore.symm.trans hfree
      · rw [if_neg hlive,hnode,if_pos rfl]
    · have hbefore : handle < history.started := by omega
      rw [changed_of_ne drafts _ heq]
      refine (h.stands handle hbefore).frame (by simp [Step.handle?]) hcovers (by omega) ?_
      rw [hnode,if_neg (hnew handle hbefore)]
  · intro handle handle' hhandle hhandle' hmeet
    rw [hstarted] at hhandle hhandle'
    unfold changed at hmeet
    split at hmeet
    · rename_i heq
      split at hmeet
      · rename_i heq'
        rw [heq,heq']
      · exact absurd hmeet.symm (hnew handle' (by omega))
    · split at hmeet
      · exact absurd hmeet (hnew handle (by omega))
      · exact h.distinct handle handle' (by omega) (by omega) hmeet
  · intro location' hplace
    refine (h.published location' hplace).frame rfl (fun _ _ => rfl) ?_
    rw [hnode,if_neg (hplain location' hplace)]
  · intro location' hdrafts hplace
    have hne : location' ≠ location := by
      have hlast := hdrafts history.started (by omega)
      rwa [changed_self] at hlast
    rw [hnode,if_neg hne]
    refine h.others location' (fun handle hhandle => ?_) hplace
    have hold := hdrafts handle (by omega)
    rwa [changed_of_ne drafts _ (by omega)] at hold

theorem write (h : Sound made path files drafts history) (hhandle : handle < history.started)
    (hopen : (drafts handle).closed = false) {piece : Text} {bytes : Bytes}
    (hpiece : Utf8.encode piece = .ok bytes) :
    Sound made path files (changed drafts handle
      { drafts handle with written := bytes :: (drafts handle).written })
      (.write handle piece :: history) := by
  have hold := h.stands handle hhandle
  have hlive : ¬history.Closed handle := fun hclosed => by
    rw [hold.closed hclosed] at hopen
    cases hopen
  have hclosed : History.Closed (.write handle piece :: history) handle ↔ history.Closed handle := by
    simp [History.Closed]
  have htext : Utf8.encode (History.textOf (.write handle piece :: history) handle) =
      .ok ((drafts handle).content ++ bytes) := by
    rw [History.textOf_cons,Step.textFor,if_pos rfl]
    exact Utf8.encode_append hold.text hpiece
  refine h.update hhandle rfl rfl ⟨rfl,fun _ => id,fun _ _ => id⟩ h.grounded rfl ?_ ?_ ?_ ?_
    fun _ _ _ => rfl
  · intro hfinished
    exact absurd rfl hfinished
  · intro _ hspent
    rw [hopen] at hspent
    cases hspent
  · refine ⟨fun h => hold.closed (hclosed.1 h),?_,hold.place,hold.free,?_⟩
    · rw [htext]
      simp [Draft.content]
    · simp only [hold.node,hclosed]
  · intro location hplace
    refine (h.published location hplace).frame rfl (fun handle' hclosed' => if_neg ?_) rfl
    rintro rfl
    exact hlive hclosed'

theorem finish (h : Sound made path files drafts history) (hhandle : handle < history.started)
    (hfits : PathFits path.text) (hplace : made.place path.text = .ok (.entry location))
    (hfree : files.isDirectoryAt location = false) :
    Sound made path
      ((files.erase (drafts handle).location).put location (.file (drafts handle).content))
      (changed drafts handle (drafts handle).close) (.finish handle :: history) := by
  have hold := h.stands handle hhandle
  obtain ⟨above,stem,serial,hlocation,hserial,habove⟩ := hold.place
  obtain ⟨parent,name,hentry,hparent⟩ := place_eq_entry hplace
  have hne : location ≠ [] := by simp [hentry]
  have hdraftNe : (drafts handle).location ≠ [] := by simp [hlocation]
  have happart : (drafts handle).location ≠ location := hold.ne_of_place hplace
  have hnode : ∀ other, ((files.erase (drafts handle).location).put location
      (.file (drafts handle).content)).node? other =
        if other = location then some (.file (drafts handle).content)
        else if other = (drafts handle).location then none else files.node? other := by
    intro other
    rw [node?_put _ _ _ hne,node?_erase _ _ hdraftNe]
  have htext : History.textOf (.finish handle :: history) handle = history.textOf handle := by
    rw [History.textOf_cons]
    exact List.append_nil _
  have hcovers : Covers ((files.erase (drafts handle).location).put location
      (.file (drafts handle).content)) files := by
    have hfile := hold.not_isDirectoryAt
    rw [hlocation] at hfile ⊢
    exact covers_put_erase hfile hfree _
  have hclosed : History.Closed (.finish handle :: history) handle := .inl List.mem_cons_self
  refine h.update hhandle rfl rfl hcovers ?_ rfl (fun _ => hfits) (fun _ _ => hclosed) ?_ ?_ ?_
  · have hdirectory := h.covers.directory parent hparent
    refine h.grounded.of_added hcovers hentry hdirectory fun other hsome => ?_
    rw [hnode] at hsome
    split at hsome
    · rename_i heq
      exact .inl heq
    · split at hsome
      · cases hsome
      · exact .inr hsome
  · refine ⟨fun _ => rfl,?_,?_,hold.free,?_⟩
    · rw [htext]
      exact hold.text
    · exact ⟨above,stem,serial,hlocation,hserial,hcovers.directory _ habove⟩
    · rw [if_pos hclosed]
      exact (hnode _).trans ((if_neg happart).trans (if_pos rfl))
  · intro other hother
    obtain rfl : location = other := by
      have hsame := Except.ok.inj (hplace.symm.trans hother)
      injection hsame
    refine ⟨fun hnone => ?_,fun handle' hlast => ?_⟩
    · cases hnone
    · obtain rfl : handle = handle' := Option.some.inj hlast
      rw [htext]
      exact ⟨_,hold.text,(hnode location).trans (if_pos rfl)⟩
  · intro other hother hplace'
    have hneTarget : other ≠ location := by
      rintro rfl
      exact hplace' hplace
    rw [hnode,if_neg hneTarget]
    exact if_neg hother

/-- The attempt to finish a draft closes it, even if the path is too long. -/
theorem spend (h : Sound made path files drafts history) (hlong : ¬PathFits path.text) :
    Sound made path files (changed drafts handle (drafts handle).close) history := by
  have hsame : ∀ handle', (changed drafts handle (drafts handle).close handle').location =
      (drafts handle').location := by
    intro handle'
    by_cases heq : handle' = handle
    · rw [heq,changed_self]
      rfl
    · rw [changed_of_ne drafts _ heq]
  refine ⟨h.covers,h.grounded,h.numbered,h.placed,h.fits,?_,?_,?_,h.published,?_⟩
  · exact fun _ _ hfits => absurd hfits hlong
  · intro handle' hhandle'
    by_cases heq : handle' = handle
    · have hold := h.stands handle' hhandle'
      rw [heq] at hold ⊢
      rw [changed_self]
      exact ⟨fun _ => rfl,hold.text,hold.place,hold.free,hold.node⟩
    · rw [changed_of_ne drafts _ heq]
      exact h.stands handle' hhandle'
  · simp only [hsame]
    exact h.distinct
  · simp only [hsame]
    exact h.others

theorem discard (h : Sound made path files drafts history) (hhandle : handle < history.started) :
    Sound made path (files.erase (drafts handle).location)
      (changed drafts handle (drafts handle).close) (.discard handle :: history) := by
  have hold := h.stands handle hhandle
  obtain ⟨above,stem,serial,hlocation,hserial,habove⟩ := hold.place
  have hdraftNe : (drafts handle).location ≠ [] := by simp [hlocation]
  have hnode : ∀ other, (files.erase (drafts handle).location).node? other =
      if other = (drafts handle).location then none else files.node? other :=
    fun other => node?_erase _ _ hdraftNe
  have hcovers : Covers (files.erase (drafts handle).location) files := by
    have hfile := hold.not_isDirectoryAt
    rw [hlocation] at hfile ⊢
    exact covers_erase hfile
  have hclosed : History.Closed (.discard handle :: history) handle := .inr List.mem_cons_self
  have hfinished : Step.finished? (.discard handle) = none := rfl
  refine h.update hhandle rfl rfl hcovers ?_ rfl (absurd hfinished) (fun _ _ => hclosed) ?_ ?_ ?_
  · refine h.grounded.of_covers hcovers fun other last hnamed => ?_
    rw [hnode] at hnamed
    split at hnamed
    · cases hnamed
    · exact .inl hnamed
  · refine ⟨fun _ => rfl,?_,?_,hold.free,?_⟩
    · rw [History.textOf_cons]
      exact (congrArg Utf8.encode (List.append_nil _)).trans hold.text
    · exact ⟨above,stem,serial,hlocation,hserial,hcovers.directory _ habove⟩
    · rw [if_pos hclosed]
      exact (hnode _).trans (if_pos rfl)
  · intro location hplace
    refine (h.published location hplace).frame rfl (fun _ _ => rfl) ?_
    exact (hnode location).trans (if_neg (hold.ne_of_place hplace).symm)
  · intro other hother _
    exact (hnode other).trans (if_neg hother)

end Sound

end Drafting
end LoadLedger
