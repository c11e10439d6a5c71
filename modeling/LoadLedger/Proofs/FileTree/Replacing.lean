import LoadLedger.Draft
import LoadLedger.Proofs.Utf8Forms

/-! # What replacing a file puts there

A draft collects the encodings of its pieces, and finishing it leaves them at the path of the file.
The path still leads to the same place: taking the draft away and putting the file in its place
touches no directory and takes away no plain name.
-/
namespace LoadLedger

namespace FileTree

/-- A later tree in which every path of an earlier tree still leads on. -/
structure Covers (later tree : FileTree) : Prop where
  home : later.home = tree.home
  directory : ∀ location, tree.isDirectoryAt location = true → later.isDirectoryAt location = true
  named : ∀ above name, (tree.node? (above ++ [.plain name])).isSome = true →
    (later.node? (above ++ [.plain name])).isSome = true

theorem Covers.follow {later tree : FileTree} (h : later.Covers tree) {names : List Bytes}
    {start location : Location} (hfollow : tree.follow start names = .ok location) :
    later.follow start names = .ok location := by
  induction names generalizing start with
  | nil => exact hfollow
  | cons name names ih =>
    rw [FileTree.follow] at hfollow ⊢
    split at hfollow
    · rename_i hstart
      rw [if_pos (h.directory start hstart)]
      split at hfollow
      · rename_i hdot
        rw [if_pos hdot]
        exact ih hfollow
      · rename_i hdot
        rw [if_neg hdot]
        split at hfollow
        · rename_i hdots
          rw [if_pos hdots]
          exact ih hfollow
        · rename_i hdots
          rw [if_neg hdots]
          split at hfollow
          · cases hfollow
          · rename_i hlength
            rw [if_neg hlength]
            simp only [] at hfollow ⊢
            split at hfollow
            · rename_i hnamed
              rw [if_pos (h.named start name hnamed)]
              exact ih hfollow
            · cases hfollow
    · cases hfollow

theorem Covers.placeOf {later tree : FileTree} (h : later.Covers tree) {bytes : Bytes}
    {place : Place} (hplace : tree.placeOf bytes = .ok place) : later.placeOf bytes = .ok place := by
  simp only [FileTree.placeOf,h.home] at hplace ⊢
  split at hplace
  · cases hplace
  · rename_i hempty
    split at hplace
    · cases hplace
    · rename_i hlength
      rw [if_neg hempty,if_neg hlength]
      split at hplace
      · exact hplace
      · rename_i last hlast
        split at hplace
        · cases hplace
        · rename_i directory hfollow
          split at hplace
          · rename_i hdirectory
            rw [h.follow hfollow]
            simp only [h.directory directory hdirectory,if_true]
            exact hplace
          · cases hplace

theorem Covers.place {later tree : FileTree} (h : later.Covers tree) {path : Text} {place : Place}
    (hplace : tree.place path = .ok place) : later.place path = .ok place := by
  rw [FileTree.place] at hplace ⊢
  split at hplace
  · cases hplace
  · rename_i bytes hbytes
    split at hplace
    · cases hplace
    · rename_i found hfound
      obtain rfl := Except.ok.inj hplace
      simp only [h.placeOf hfound]

theorem Covers.trans {last later tree : FileTree} (h : last.Covers later) (h' : later.Covers tree) :
    last.Covers tree where
  home := h.home.trans h'.home
  directory := fun location hlocation => h.directory location (h'.directory location hlocation)
  named := fun above name hnamed => h.named above name (h'.named above name hnamed)

def Place.location : Place → Location
  | .entry location | .itself location => location

/-- Whether the name of a temporary file and the path to it from the top are short enough. -/
def DraftFits (stem above : Bytes) : Prop :=
  ¬(stem.length + temporaryExtra > nameLimit ∨
    above.length + 1 + (stem.length + temporaryExtra) > pathLimit)

/-- A temporary file is made in a directory, empty, and under a name that is no plain one. What
stands in the tree matters only for the way to that directory. -/
theorem makeTemporary_eq_ok_iff {tree later : FileTree} {directory stem : Text} {draft : Location} :
    tree.makeTemporary directory stem = .ok (later,draft) ↔ ∃ name bytes place,
      pathBytes stem = .ok name ∧ pathBytes directory = .ok bytes ∧
      (∃ above, pathBytes (tree.absolute directory) = .ok above ∧ DraftFits name above) ∧
      tree.placeOf bytes = .ok place ∧ tree.isDirectoryAt place.location = true ∧
      draft = place.location ++ [.temporary name tree.freshSerial] ∧
      later = { tree.put draft (.file []) with serial := tree.freshSerial + 1 } := by
  simp only [makeTemporary]
  constructor
  · intro h
    split at h
    · cases h
    · cases h
    · cases h
    · rename_i name bytes above hname hbytes habove
      split at h
      · cases h
      all_goals
        rename_i location hplace
        split at h
        · cases h
        · cases h
        · rename_i hdirectory
          split at h
          · cases h
          · rename_i hfits
            obtain ⟨rfl,rfl⟩ := Prod.mk.inj (Except.ok.inj h)
            exact ⟨name,bytes,_,hname,hbytes,⟨above,habove,hfits⟩,hplace,
              decide_eq_true hdirectory,rfl,rfl⟩
  · rintro ⟨name,bytes,place,hname,hbytes,⟨above,habove,hfits⟩,hplace,hdirectory,rfl,rfl⟩
    have hnode : tree.node? place.location = some .directory := of_decide_eq_true hdirectory
    rw [hname,hbytes,habove]
    simp only [hplace]
    cases place <;> simp only [Place.location] at hnode ⊢ <;> rw [hnode] <;> exact if_neg hfits

theorem rename_eq_ok {tree later : FileTree} {draft : Location} {content : Bytes} {path : Text}
    (h : tree.rename draft content path = .ok later) : ∃ location,
      tree.place path = .ok (.entry location) ∧ tree.isDirectoryAt location = false ∧
      later = (tree.erase draft).put location (.file content) := by
  simp only [rename] at h
  split at h
  · cases h
  · cases h
  · cases h
  · cases h
  · rename_i location hplace
    split at h
    · cases h
    · split at h
      · cases h
      · rename_i hdirectory
        exact ⟨location,hplace,by simpa using hdirectory,(Except.ok.inj h).symm⟩

theorem covers_put {tree : FileTree} {above : Location} {stem : Bytes} {serial : Nat}
    (h : tree.isDirectoryAt (above ++ [.temporary stem serial]) = false) (content : Bytes)
    (count : Nat) :
    Covers { tree.put (above ++ [.temporary stem serial]) (.file content) with serial := count }
      tree := by
  have hnode (place : Location) (hplace : place ≠ above ++ [.temporary stem serial]) :
      (tree.put (above ++ [.temporary stem serial]) (.file content)).node? place =
        tree.node? place := by
    rw [node?_put _ _ _ (by simp),if_neg hplace]
  refine ⟨rfl,?_,?_⟩
  · intro place hplace
    have hne : place ≠ above ++ [.temporary stem serial] := by
      rintro rfl
      rw [h] at hplace
      cases hplace
    rw [isDirectoryAt] at hplace ⊢
    exact (congrArg (fun node => decide (node = some Node.directory)) (hnode place hne)).trans hplace
  · intro place name hnamed
    exact (congrArg Option.isSome (hnode _ (by simp))).trans hnamed

theorem covers_put_erase {tree : FileTree} {above location : Location} {stem : Bytes} {serial : Nat}
    (hdraft : tree.isDirectoryAt (above ++ [.temporary stem serial]) = false)
    (hlocation : tree.isDirectoryAt location = false) (content : Bytes) :
    Covers ((tree.erase (above ++ [.temporary stem serial])).put location (.file content)) tree := by
  have hne : location ≠ [] := by
    rintro rfl
    simp [isDirectoryAt,node?] at hlocation
  have hnode (place : Location) (hdraft : place ≠ above ++ [.temporary stem serial])
      (hplace : place ≠ location) :
      ((tree.erase (above ++ [.temporary stem serial])).put location (.file content)).node? place =
        tree.node? place := by
    rw [node?_put _ _ _ hne,if_neg hplace,node?_erase _ _ (by simp),if_neg hdraft]
  refine ⟨rfl,?_,?_⟩
  · intro place hplace
    have hdraft' : place ≠ above ++ [.temporary stem serial] := by
      rintro rfl
      rw [hdraft] at hplace
      cases hplace
    have hlocation' : place ≠ location := by
      rintro rfl
      rw [hlocation] at hplace
      cases hplace
    rw [isDirectoryAt,hnode place hdraft' hlocation']
    exact hplace
  · intro place name hnamed
    by_cases hplace : place ++ [.plain name] = location
    · rw [node?_put _ _ _ hne,if_pos hplace]
      rfl
    · rw [hnode _ (by simp) hplace]
      exact hnamed

theorem contentOf_eq_ok {tree : FileTree} {path : Text} {location : Location} {content : Bytes}
    (hplace : tree.place path = .ok (.entry location))
    (hnode : tree.node? location = some (.file content)) : tree.contentOf path = .ok content := by
  rw [contentOf,hplace]
  simp only [hnode]

theorem contentOf_rename {tree drafted later : FileTree} {directory stem path : Text}
    {draft : Location} {content : Bytes}
    (hdraft : tree.makeTemporary directory stem = .ok (drafted,draft))
    (hrename : drafted.rename draft content path = .ok later) :
    later.contentOf path = .ok content := by
  obtain ⟨name,bytes,above,-,-,-,-,-,rfl,hdrafted⟩ := makeTemporary_eq_ok_iff.1 hdraft
  obtain ⟨location,hplace,hlocation,rfl⟩ := rename_eq_ok hrename
  have hnode : drafted.node? (above.location ++ [.temporary name tree.freshSerial]) =
      some (.file []) := by
    rw [hdrafted]
    exact (node?_put tree _ (.file []) (by simp)).trans (if_pos rfl)
  have hfile : drafted.isDirectoryAt (above.location ++ [.temporary name tree.freshSerial]) =
      false := by
    simp [isDirectoryAt,hnode]
  have hne : location ≠ [] := by
    rintro rfl
    simp [isDirectoryAt,node?] at hlocation
  apply contentOf_eq_ok ((covers_put_erase hfile hlocation content).place hplace)
  rw [node?_put _ _ _ hne,if_pos rfl]

end FileTree

/-! ## Drafts -/

namespace Draft

theorem start_eq_ok_iff {tree later : FileTree} {path : PathName} {draft : Draft} :
    start tree path = (later,.ok draft) ↔ draft = { location := draft.location } ∧
      ∃ made, tree.ensureDirectories path.parent = (made,.ok ()) ∧
        made.makeTemporary path.parent.text path.name = .ok (later,draft.location) := by
  unfold start
  constructor
  · intro h
    split at h
    · cases h
    · rename_i made hmade
      split at h
      · cases h
      · rename_i drafted location hdraft
        obtain ⟨rfl,hok⟩ := Prod.mk.inj h
        obtain rfl := Except.ok.inj hok
        exact ⟨rfl,made,hmade,hdraft⟩
  · rintro ⟨hdraft,made,hmade,htemporary⟩
    rw [hmade]
    simp only [htemporary]
    rw [← hdraft]

theorem finish_eq_ok {draft closed : Draft} {tree later : FileTree} {path : PathName}
    (h : draft.finish tree path = (closed,later,.ok ())) :
    tree.rename draft.location draft.content path.text = .ok later := by
  unfold finish at h
  split at h
  · cases h
  · split at h
    · cases h
    · rename_i renamed hrename
      obtain ⟨-,hrest⟩ := Prod.mk.inj h
      obtain ⟨rfl,-⟩ := Prod.mk.inj hrest
      exact hrename

theorem write_eq_ok {draft later : Draft} {piece : Text} (h : draft.write piece = .ok later) :
    ∃ bytes, Utf8.encode piece = .ok bytes ∧ later.location = draft.location ∧
      later.content = draft.content ++ bytes := by
  unfold write at h
  split at h
  · cases h
  · split at h
    · cases h
    · rename_i bytes hbytes
      obtain rfl := Except.ok.inj h
      exact ⟨bytes,hbytes,rfl,by simp [content]⟩

/-- Pieces written one after another are the encoding of the text that they make up, and their
numbers can be written. -/
theorem writeAll_eq_ok {draft later : Draft} {pieces : List Piece}
    (h : draft.writeAll pieces = .ok later) : (∀ piece ∈ pieces, piece.numbersFit = true) ∧
      ∃ bytes, Utf8.encode (pieces.flatMap (·.text)) = .ok bytes ∧
        later.location = draft.location ∧ later.content = draft.content ++ bytes := by
  induction pieces generalizing draft with
  | nil =>
    obtain rfl := Except.ok.inj h
    exact ⟨by simp,[],rfl,rfl,by simp⟩
  | cons piece pieces ih =>
    rw [writeAll] at h
    split at h
    · rename_i hfits
      split at h
      · cases h
      · rename_i written hwrite
        obtain ⟨bytes,hbytes,hlocation,hcontent⟩ := write_eq_ok hwrite
        obtain ⟨hpieces,rest,hrest,hlocation',hcontent'⟩ := ih h
        refine ⟨List.forall_mem_cons.2 ⟨hfits,hpieces⟩,bytes ++ rest,?_,hlocation'.trans hlocation,?_⟩
        · rw [List.flatMap_cons]
          exact Utf8.encode_append hbytes hrest
        · rw [hcontent',hcontent,List.append_assoc]
    · cases h

end Draft

/-! ## Replacing a file -/

namespace Draft

theorem refusal_sound (draft : Draft) : draft.refusal .sound = none := by
  simp [refusal,Machine.sound]

theorem startOn_sound (tree : FileTree) (path : PathName) :
    startOn .sound tree path = start tree path := by
  simp [startOn,Machine.sound]

theorem finishOn_sound (draft : Draft) (tree : FileTree) (path : PathName) :
    draft.finishOn .sound tree path = draft.finish tree path := by
  simp [finishOn,Machine.sound]

theorem finish_of_finishOn {machine : Machine} {draft closed : Draft} {tree later : FileTree}
    {path : PathName} (h : draft.finishOn machine tree path = (closed,later,.ok ())) :
    draft.finish tree path = (closed,later,.ok ()) := by
  unfold finishOn at h
  split at h
  · exact h
  · split at h
    · cases h
    · cases h
    · cases h
    · exact h

theorem start_of_startOn {machine : Machine} {tree later : FileTree} {path : PathName}
    {draft : Draft} (h : startOn machine tree path = (later,.ok draft)) :
    start tree path = (later,.ok draft) := by
  unfold startOn at h
  dsimp only at h
  split at h
  · cases h
  · split at h
    · cases h
    · split at h
      · cases h
      · exact h

theorem writeAll_of_writeAllOn {machine : Machine} {draft later : Draft} {pieces : List Piece}
    (h : draft.writeAllOn machine pieces = .ok later) : draft.writeAll pieces = .ok later := by
  unfold writeAllOn at h
  split at h
  · exact h
  · split at h
    · split at h <;> cases h
    · exact h

end Draft

namespace FileTree

variable {machine : Machine} {tree later : FileTree} {path : PathName} {pieces : List Piece}

theorem giveUpOn_ne_done (machine : Machine) (tree later : FileTree) (draft : Draft)
    (error : WriteError) : tree.giveUpOn machine draft error ≠ (later,.done) := by
  unfold giveUpOn
  split <;> simp

theorem replaceOn_sound (tree : FileTree) (path : PathName) (pieces : List Piece) :
    tree.replaceOn .sound path pieces =
      match Draft.start tree path with
      | (tree,.error error) => (tree,.failed (.file error))
      | (tree,.ok draft) =>
        match draft.writeAll pieces with
        | .error error => ((draft.discard tree).2.1,.failed error)
        | .ok draft =>
          match draft.finish tree path with
          | (draft,tree,.error error) => ((draft.discard tree).2.1,.failed (.file error))
          | (_,tree,.ok ()) => (tree,.done) := by
  have hgive (tree : FileTree) (draft : Draft) (error : WriteError) :
      tree.giveUpOn .sound draft error = ((draft.discard tree).2.1,.failed error) := by
    rw [giveUpOn,Draft.refusal_sound]
  have hwrite (draft : Draft) : draft.writeAllOn .sound pieces = draft.writeAll pieces := rfl
  simp only [replaceOn,Draft.startOn_sound,hwrite,Draft.finishOn_sound,hgive]
  rfl

theorem replace_eq (tree : FileTree) (path : PathName) (pieces : List Piece) :
    tree.replace path pieces =
      match Draft.start tree path with
      | (tree,.error error) => (tree,.error (.file error))
      | (tree,.ok draft) =>
        match draft.writeAll pieces with
        | .error error => ((draft.discard tree).2.1,.error error)
        | .ok draft =>
          match draft.finish tree path with
          | (draft,tree,.error error) => ((draft.discard tree).2.1,.error (.file error))
          | (_,tree,.ok ()) => (tree,.ok ()) := by
  rw [replace,replaceOn_sound]
  rcases Draft.start tree path with ⟨drafted,error | draft⟩
  · rfl
  · dsimp only
    cases draft.writeAll pieces with
    | error error => rfl
    | ok written =>
      dsimp only
      rcases written.finish drafted path with ⟨closed,later,error | _⟩ <;> rfl

theorem replaceOn_sound_ne_raised (error : WriteError) :
    tree.replaceOn .sound path pieces ≠ (later,.raised error) := by
  rw [replaceOn_sound]
  intro h
  split at h
  · cases h
  · split at h
    · cases h
    · split at h <;> cases h

/-- A file that is replaced although the machine may refuse is replaced as if it refused nothing. -/
theorem replace_of_replaceOn (h : tree.replaceOn machine path pieces = (later,.done)) :
    tree.replace path pieces = (later,.ok ()) := by
  unfold replaceOn at h
  split at h
  · cases h
  · split at h
    · cases h
    · rename_i drafted draft hstart
      split at h
      · exact absurd h (giveUpOn_ne_done _ _ _ _ _)
      · rename_i written hwritten
        split at h
        · exact absurd h (giveUpOn_ne_done _ _ _ _ _)
        · rename_i closed renamed hfinish
          obtain ⟨rfl,-⟩ := Prod.mk.inj h
          rw [replace_eq,Draft.start_of_startOn hstart]
          simp only [Draft.writeAll_of_writeAllOn hwritten,Draft.finish_of_finishOn hfinish]

end FileTree

theorem FileTree.replace_steps {tree later : FileTree} {path : PathName} {pieces : List Piece}
    (h : tree.replace path pieces = (later,.ok ())) : ∃ drafted draft written,
      Draft.start tree path = (drafted,.ok draft) ∧ draft.writeAll pieces = .ok written ∧
      drafted.rename written.location written.content path.text = .ok later := by
  rw [replace_eq] at h
  split at h
  · cases h
  · rename_i drafted draft hstart
    split at h
    · cases h
    · rename_i written hwritten
      split at h
      · cases h
      · rename_i closed renamed hfinish
        obtain ⟨rfl,-⟩ := Prod.mk.inj h
        exact ⟨drafted,draft,written,hstart,hwritten,Draft.finish_eq_ok hfinish⟩

/-- A file that is replaced holds the encoding of its pieces. -/
theorem FileTree.replace_eq_ok {tree later : FileTree} {path : PathName} {pieces : List Piece}
    (h : tree.replace path pieces = (later,.ok ())) :
    (∀ piece ∈ pieces, piece.numbersFit = true) ∧ ∃ bytes, later.contentOf path.text = .ok bytes ∧
      Utf8.encode (pieces.flatMap (·.text)) = .ok bytes := by
  obtain ⟨drafted,draft,written,hstart,hwritten,hrename⟩ := replace_steps h
  obtain ⟨hdraft,made,-,htemporary⟩ := Draft.start_eq_ok_iff.1 hstart
  obtain ⟨hpieces,bytes,hbytes,hlocation,hcontent⟩ := Draft.writeAll_eq_ok hwritten
  rw [hlocation,hcontent,hdraft] at hrename
  exact ⟨hpieces,bytes,contentOf_rename htemporary hrename,hbytes⟩

end LoadLedger
