import LoadLedger.Proofs.FileTree.Replaceable
import LoadLedger.Proofs.Listing.Spelling
import LoadLedger.Store

/-! # Writing a ledger

A write that succeeds leaves the listing of the ledger in the file and the store clean. One that
fails leaves the store dirty, unless an error passes through it, which only a machine that refuses
something can bring about. Otherwise what decides is whether a file can be put at the path and
whether the listing has a UTF-8 form and no number too long; once a write has succeeded, so will the
next.
-/
namespace LoadLedger

/-- The outcome of an operation through which no error can pass. -/
def Outcome.returned {σ α : Type} (outcome : Outcome σ α) : Outcome σ (Except WriteError α) :=
  { outcome with result := .ok outcome.result }

/-- The disk takes the names of files, but nothing more. -/
def Machine.fullDisk : Machine := { flush := some .noSpace, abandon := some .noSpace }

namespace Store

/-- A write puts the listing into the file, or leaves the store dirty, or an error passes through
it and leaves it clean. -/
theorem writeOn_cases (machine : Machine) (store : Store) (files : FileTree) :
    (∃ content later, later.contentOf store.path.text = .ok content ∧
      Utf8.encode store.dump = .ok content ∧ store.ledger.OwnersFit ∧
      store.writeOn machine files =
        ⟨.ok true,{ store with dirty := false, written := true },later,
          [.wrote store.ledger.size store.path.text]⟩) ∨
    (∃ error later, store.writeOn machine files =
      ⟨.ok false,{ store with dirty := true },later,[.writeFailed store.path.text error]⟩) ∨
    ∃ error later, machine ≠ .sound ∧ store.writeOn machine files =
      ⟨.error error,{ store with dirty := false },later,[]⟩ := by
  simp only [writeOn]
  rcases hreplace : files.replaceOn machine store.path
      (Listing.pieces Listing.currentVersion store.ledger) with ⟨later,_ | error | error⟩
  · obtain ⟨hpieces,content,hcontent,hencode⟩ :=
      FileTree.replace_eq_ok (FileTree.replace_of_replaceOn hreplace)
    have hfits := (Listing.numbersFit_pieces_iff.1 hpieces).2
    exact .inl ⟨content,later,hcontent,hencode,hfits,rfl⟩
  · exact .inr (.inl ⟨error,later,rfl⟩)
  · refine .inr (.inr ⟨error,later,?_,rfl⟩)
    rintro rfl
    exact FileTree.replaceOn_sound_ne_raised error hreplace

theorem writeNow_eq (store : Store) (files : FileTree) : store.writeNow files =
    match files.replace store.path (Listing.pieces Listing.currentVersion store.ledger) with
    | (files,.error error) =>
      ⟨false,{ store with dirty := true },files,[.writeFailed store.path.text error]⟩
    | (files,.ok ()) =>
      ⟨true,{ store with dirty := false, written := true },files,
        [.wrote store.ledger.size store.path.text]⟩ := by
  simp only [writeNow,writeOn,FileTree.replace]
  rcases hreplace : files.replaceOn .sound store.path
      (Listing.pieces Listing.currentVersion store.ledger) with ⟨later,_ | error | error⟩
  · rfl
  · rfl
  · exact absurd hreplace (FileTree.replaceOn_sound_ne_raised error)

theorem writeNow_cases (store : Store) (files : FileTree) :
    (∃ content later, later.contentOf store.path.text = .ok content ∧
      Utf8.encode store.dump = .ok content ∧ store.ledger.OwnersFit ∧
      store.writeNow files =
        ⟨true,{ store with dirty := false, written := true },later,
          [.wrote store.ledger.size store.path.text]⟩) ∨
    ∃ error later, store.writeNow files =
      ⟨false,{ store with dirty := true },later,[.writeFailed store.path.text error]⟩ := by
  obtain ⟨content,later,hcontent,hencode,hfits,hwrite⟩ | ⟨error,later,hwrite⟩ | ⟨_,_,hsound,-⟩ :=
    store.writeOn_cases .sound files
  · exact .inl ⟨content,later,hcontent,hencode,hfits,by rw [writeNow,hwrite]; rfl⟩
  · exact .inr ⟨error,later,by rw [writeNow,hwrite]; rfl⟩
  · exact absurd rfl hsound

theorem contentOf_writeNow {store : Store} {files : FileTree}
    (h : (store.writeNow files).result = true) : store.ledger.OwnersFit ∧ ∃ content,
      (store.writeNow files).files.contentOf store.path.text = .ok content ∧
      Utf8.encode store.dump = .ok content := by
  obtain ⟨content,later,hcontent,hencode,hfits,hwrite⟩ | ⟨error,later,hwrite⟩ :=
    store.writeNow_cases files
  · rw [hwrite]
    exact ⟨hfits,content,hcontent,hencode⟩
  · rw [hwrite] at h
    cases h

theorem writeNow_of_replaceable {store : Store} {files : FileTree} {content : Bytes}
    (h : files.Replaceable store.path) (hfits : store.ledger.OwnersFit)
    (hencode : Utf8.encode store.dump = .ok content) : (store.writeNow files).result = true := by
  have hpieces := Listing.numbersFit_pieces_iff.2 ⟨Listing.fits_currentVersion,hfits⟩
  obtain ⟨later,hreplace⟩ := h.replace hpieces hencode
  rw [writeNow_eq,hreplace]

theorem replaceable_of_writeNow {store : Store} {files : FileTree}
    (h : (store.writeNow files).result = true) : (store.writeNow files).files.Replaceable store.path := by
  rw [writeNow_eq] at h ⊢
  cases hreplace : files.replace store.path (Listing.pieces Listing.currentVersion store.ledger) with
  | mk later result =>
    cases result with
    | error error => simp [hreplace] at h
    | ok _ => exact FileTree.replaceable_of_replace hreplace

/-! ## What stays -/

/-- A store that differs from an earlier one only in what is known of writes. -/
structure Keeps (after before : Store) : Prop where
  vocabulary : after.vocabulary = before.vocabulary
  path : after.path = before.path
  ledger : after.ledger = before.ledger

theorem keeps_requestWrite (store : Store) (files : FileTree) :
    Keeps (store.requestWrite files).state store := by
  unfold requestWrite
  split <;> exact ⟨rfl,rfl,rfl⟩

theorem keeps_writeOn (machine : Machine) (store : Store) (files : FileTree) :
    Keeps (store.writeOn machine files).state store := by
  obtain ⟨_,_,-,-,-,hwrite⟩ | ⟨_,_,hwrite⟩ | ⟨_,_,-,hwrite⟩ := store.writeOn_cases machine files
  all_goals
    rw [hwrite]
    exact ⟨rfl,rfl,rfl⟩

theorem keeps_runPending (store : Store) (files : FileTree) (machine : Machine) :
    Keeps (store.runPending files machine).state store := by
  unfold runPending
  split
  · have hkeeps := { store with pending := false }.keeps_writeOn machine files
    exact ⟨hkeeps.vocabulary,hkeeps.path,hkeeps.ledger⟩
  · exact ⟨rfl,rfl,rfl⟩

theorem keeps_flush (store : Store) (files : FileTree) (machine : Machine) :
    Keeps (store.flush files machine).state store := by
  simp only [flush]
  split
  · have hkeeps := { store with pending := false }.keeps_writeOn machine files
    exact ⟨hkeeps.vocabulary,hkeeps.path,hkeeps.ledger⟩
  · exact ⟨rfl,rfl,rfl⟩

end Store
end LoadLedger
