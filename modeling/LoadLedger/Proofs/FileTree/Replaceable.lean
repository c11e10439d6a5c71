import LoadLedger.Proofs.FileTree.Replacing

/-! # Where a file can be put

Whether a file can be put at a path depends on the directories on the way and on what stands at the
path, and not on the content. Once a file has been put there, another can take its place.
-/
namespace LoadLedger

namespace FileTree

/-- Nothing stands at a path. -/
def Absent (tree : FileTree) (path : Text) : Prop :=
  ∃ subject, tree.contentOf path = .error (.system .noEntry subject)

/-- A draft can be started beside the path, and then no directory stands at the path. -/
def Replaceable (tree : FileTree) (path : PathName) : Prop :=
  ∃ drafted draft location, Draft.start tree path = (drafted,.ok draft) ∧
    drafted.place path.text = .ok (.entry location) ∧ drafted.isDirectoryAt location = false

/-! ## Directories that are there -/

theorem isDirectory_iff {tree : FileTree} {path : Text} : tree.isDirectory path = true ↔
    ∃ place, tree.place path = .ok place ∧ tree.isDirectoryAt place.location = true := by
  unfold isDirectory find? isDirectoryAt
  cases tree.place path with
  | error error => simp
  | ok place => cases place <;> simp [Place.location] <;> exact decide_eq_true_iff.symm

theorem Covers.isDirectory {later tree : FileTree} (h : later.Covers tree) {path : Text}
    (hpath : tree.isDirectory path = true) : later.isDirectory path = true := by
  obtain ⟨place,hplace,hdirectory⟩ := isDirectory_iff.1 hpath
  exact isDirectory_iff.2 ⟨place,h.place hplace,h.directory _ hdirectory⟩

theorem covers_put_directory {tree : FileTree} {location : Location}
    (h : tree.node? location = none) : Covers (tree.put location .directory) tree := by
  have hne : location ≠ [] := by
    rintro rfl
    simp [node?] at h
  have hnode (place : Location) (hplace : (tree.node? place).isSome = true) :
      (tree.put location .directory).node? place = tree.node? place := by
    have hother : place ≠ location := by
      rintro rfl
      rw [h] at hplace
      cases hplace
    rw [node?_put _ _ _ hne,if_neg hother]
  refine ⟨rfl,?_,?_⟩
  · intro place hplace
    have hdirectory : tree.node? place = some .directory := of_decide_eq_true hplace
    exact decide_eq_true ((hnode place (by rw [hdirectory]; rfl)).trans hdirectory)
  · intro above name hnamed
    rw [hnode _ hnamed]
    exact hnamed

theorem makeDirectory_eq_ok {tree later : FileTree} {path : Text}
    (h : tree.makeDirectory path = .ok later) : ∃ location,
      tree.place path = .ok (.entry location) ∧ tree.node? location = none ∧
      later = tree.put location .directory := by
  unfold makeDirectory at h
  split at h
  · cases h
  · cases h
  · rename_i location hplace
    split at h
    · cases h
    · rename_i hnode
      exact ⟨location,hplace,by simpa using hnode,(Except.ok.inj h).symm⟩

theorem isDirectory_of_ensureDirectory {tree later : FileTree} {path : Text}
    (h : tree.ensureDirectory path = (later,.ok ())) : later.isDirectory path = true := by
  unfold ensureDirectory at h
  split at h
  · rename_i made hmade
    obtain ⟨rfl,-⟩ := Prod.mk.inj h
    obtain ⟨location,hplace,hnode,rfl⟩ := makeDirectory_eq_ok hmade
    have hne : location ≠ [] := by
      rintro rfl
      simp [node?] at hnode
    refine isDirectory_iff.2 ⟨_,(covers_put_directory hnode).place hplace,decide_eq_true ?_⟩
    rw [Place.location,node?_put _ _ _ hne,if_pos rfl]
  · obtain ⟨rfl,hresult⟩ := Prod.mk.inj h
    split at hresult
    · rename_i hdirectory
      exact hdirectory
    · cases hresult

theorem ensureDirectory_of_isDirectory {tree : FileTree} {path : Text}
    (h : tree.isDirectory path = true) : tree.ensureDirectory path = (tree,.ok ()) := by
  unfold ensureDirectory
  cases hmade : tree.makeDirectory path with
  | ok made =>
    obtain ⟨location,hplace,hnode,-⟩ := makeDirectory_eq_ok hmade
    obtain ⟨place,hplace',hdirectory⟩ := isDirectory_iff.1 h
    obtain rfl := Except.ok.inj (hplace.symm.trans hplace')
    rw [isDirectoryAt,Place.location,hnode] at hdirectory
    cases hdirectory
  | error error => simp [h]

theorem isDirectory_of_ensureParts {tree later : FileTree} {root : PathRoot} {parts : List Text}
    (h : tree.ensureParts root parts = (later,.ok ())) :
    later.isDirectory (PathName.mk root parts.reverse).text = true := by
  cases parts with
  | nil => exact isDirectory_of_ensureDirectory h
  | cons part above =>
    simp only [ensureParts] at h
    split at h
    · rename_i made hmade
      exact isDirectory_of_ensureDirectory (hmade.trans h)
    · split at h
      · split at h
        · exact isDirectory_of_ensureDirectory h
        · rename_i hfailed
          exact absurd h (hfailed later)
      · cases h

/-- The directories above a file need not be made a second time. -/
theorem ensureDirectories_of_covers {tree made later : FileTree} {path : PathName}
    (h : tree.ensureDirectories path = (made,.ok ())) (hlater : later.Covers made) :
    later.ensureDirectories path = (later,.ok ()) := by
  unfold ensureDirectories at h ⊢
  have hpath := hlater.isDirectory (isDirectory_of_ensureParts h)
  have hensure := ensureDirectory_of_isDirectory hpath
  cases hparts : path.parts.reverse with
  | nil =>
    rw [hparts] at hensure
    exact hensure
  | cons part above =>
    rw [hparts] at hensure
    simp only [ensureParts,hensure]

/-! ## A name that no file has yet -/

theorem le_foldr_serialBound (location : Location) (bound : Nat) :
    bound ≤ location.foldr (fun name bound => max (serialBound name) bound) bound := by
  induction location with
  | nil => exact Nat.le_refl _
  | cons name location ih => exact Nat.le_trans ih (Nat.le_max_right _ _)

theorem serial_le_freshSerial (tree : FileTree) : tree.serial ≤ tree.freshSerial := by
  unfold freshSerial
  generalize tree.nodes = nodes
  induction nodes with
  | nil => exact Nat.le_refl _
  | cons entry nodes ih => exact Nat.le_trans ih (le_foldr_serialBound _ _)

theorem serialBound_le_freshSerial {tree : FileTree} {location : Location} {node : Node}
    (h : (location,node) ∈ tree.nodes) {name : FileName} (hname : name ∈ location) :
    serialBound name ≤ tree.freshSerial := by
  have hnames (location : Location) (bound : Nat) : ∀ name ∈ location, serialBound name ≤
      location.foldr (fun name bound => max (serialBound name) bound) bound := by
    induction location with
    | nil => simp
    | cons name location ih =>
      rw [List.foldr_cons]
      intro other hother
      rcases List.mem_cons.1 hother with rfl | hother
      · exact Nat.le_max_left _ _
      · exact Nat.le_trans (ih other hother) (Nat.le_max_right _ _)
  unfold freshSerial
  generalize tree.nodes = nodes at h
  induction nodes with
  | nil => cases h
  | cons entry nodes ih =>
    rw [List.foldr_cons]
    rcases List.mem_cons.1 h with rfl | h
    · exact hnames _ _ name hname
    · exact Nat.le_trans (ih h) (le_foldr_serialBound _ _)

theorem node?_freshSerial (tree : FileTree) (above : Location) (stem : Bytes) :
    tree.node? (above ++ [.temporary stem tree.freshSerial]) = none := by
  rw [node?,if_neg (by simp)]
  cases hlookup : tree.nodes.lookup (above ++ [.temporary stem tree.freshSerial]) with
  | none => rfl
  | some node =>
    obtain ⟨before,after,hnodes,-⟩ := List.lookup_eq_some_iff.1 hlookup
    have hmem : (above ++ [.temporary stem tree.freshSerial],node) ∈ tree.nodes := by simp [hnodes]
    have hbound : serialBound (.temporary stem tree.freshSerial) ≤ tree.freshSerial :=
      serialBound_le_freshSerial hmem (by simp)
    simp only [serialBound] at hbound
    omega

theorem covers_of_makeTemporary {tree later : FileTree} {directory stem : Text} {draft : Location}
    (h : tree.makeTemporary directory stem = .ok (later,draft)) : later.Covers tree := by
  obtain ⟨name,bytes,place,-,-,-,-,-,rfl,rfl⟩ := makeTemporary_eq_ok_iff.1 h
  have hfree := node?_freshSerial tree place.location name
  exact covers_put (by rw [isDirectoryAt,hfree]; rfl) _ _

theorem Covers.makeTemporary {tree later drafted : FileTree} {directory stem : Text}
    {draft : Location} (h : later.Covers tree)
    (hdraft : tree.makeTemporary directory stem = .ok (drafted,draft)) :
    ∃ drafted draft, later.makeTemporary directory stem = .ok (drafted,draft) := by
  obtain ⟨name,bytes,place,hname,hbytes,hfits,hplace,hdirectory,-,-⟩ :=
    makeTemporary_eq_ok_iff.1 hdraft
  rw [absolute,← h.home] at hfits
  exact ⟨_,_,makeTemporary_eq_ok_iff.2 ⟨name,bytes,place,hname,hbytes,hfits,h.placeOf hplace,
    h.directory _ hdirectory,rfl,rfl⟩⟩

theorem node?_of_makeTemporary {tree drafted : FileTree} {directory stem : Text} {draft : Location}
    (h : tree.makeTemporary directory stem = .ok (drafted,draft)) (location : Location) :
    drafted.node? location = if location = draft then some (.file []) else tree.node? location := by
  obtain ⟨name,bytes,place,-,-,-,-,-,rfl,rfl⟩ := makeTemporary_eq_ok_iff.1 h
  exact node?_put tree location (.file []) (by simp)

end FileTree

/-! ## Writing and renaming a draft -/

theorem Draft.writeAll_of_encode {draft : Draft} {pieces : List Piece} {bytes : Bytes}
    (hopen : draft.closed = false) (hfits : ∀ piece ∈ pieces, piece.numbersFit = true)
    (hencode : Utf8.encode (pieces.flatMap (·.text)) = .ok bytes) :
    ∃ written, draft.writeAll pieces = .ok written ∧ written.closed = false := by
  induction pieces generalizing draft bytes with
  | nil => exact ⟨draft,rfl,hopen⟩
  | cons piece pieces ih =>
    obtain ⟨hfit,hrest⟩ := List.forall_mem_cons.1 hfits
    obtain ⟨hplain,-⟩ := Utf8.encode_eq_ok_iff.1 hencode
    have hpiece : Utf8.encode piece.text = .ok (piece.text.flatMap Utf8.encodePoint) :=
      Utf8.encode_eq_ok_iff.2 ⟨fun c hc => hplain c (by simp [hc]),rfl⟩
    have hpieces : Utf8.encode (pieces.flatMap (·.text)) =
        .ok ((pieces.flatMap (·.text)).flatMap Utf8.encodePoint) :=
      Utf8.encode_eq_ok_iff.2 ⟨fun c hc => hplain c (List.mem_append_right _ hc),rfl⟩
    rw [writeAll,if_pos hfit,write,hopen]
    simp only [hpiece]
    exact ih rfl hrest hpieces

namespace FileTree

theorem rename_of_place {tree : FileTree} {draft location : Location} {path : Text}
    (content : Bytes) (hdraft : (tree.node? draft).isSome = true)
    (hplace : tree.place path = .ok (.entry location)) (hfree : tree.isDirectoryAt location = false) :
    tree.rename draft content path = .ok ((tree.erase draft).put location (.file content)) := by
  have hsome : (tree.node? draft).isNone = false := by simpa using hdraft
  simp only [rename,hplace,hsome,hfree]
  rfl

theorem Replaceable.replace {tree : FileTree} {path : PathName} {pieces : List Piece} {bytes : Bytes}
    (h : tree.Replaceable path) (hfits : ∀ piece ∈ pieces, piece.numbersFit = true)
    (hencode : Utf8.encode (pieces.flatMap (·.text)) = .ok bytes) :
    ∃ later, tree.replace path pieces = (later,.ok ()) := by
  obtain ⟨drafted,draft,location,hstart,hplace,hfree⟩ := h
  obtain ⟨hdraft,made,-,htemporary⟩ := Draft.start_eq_ok_iff.1 hstart
  have hopen : draft.closed = false := by rw [hdraft]
  obtain ⟨written,hwritten,hclosed⟩ := Draft.writeAll_of_encode hopen hfits hencode
  obtain ⟨-,_,-,hlocation,-⟩ := Draft.writeAll_eq_ok hwritten
  have hsome : (drafted.node? written.location).isSome = true := by
    rw [node?_of_makeTemporary htemporary,if_pos hlocation]
    rfl
  have hrename := rename_of_place written.content hsome hplace hfree
  refine ⟨(drafted.erase written.location).put location (.file written.content),?_⟩
  simp only [replace_eq,hstart,hwritten,Draft.finish,hclosed,hrename]
  rfl

/-- A file that was put somewhere can be replaced there. -/
theorem replaceable_of_replace {tree later : FileTree} {path : PathName} {pieces : List Piece}
    (h : tree.replace path pieces = (later,.ok ())) : later.Replaceable path := by
  obtain ⟨drafted,draft,written,hstart,hwritten,hrename⟩ := replace_steps h
  obtain ⟨hdraft,made,hmade,htemporary⟩ := Draft.start_eq_ok_iff.1 hstart
  obtain ⟨-,_,-,hlocation,-⟩ := Draft.writeAll_eq_ok hwritten
  rw [hlocation] at hrename
  obtain ⟨location,hplace,hfree,hlater⟩ := rename_eq_ok hrename
  have hne : location ≠ [] := by
    rintro rfl
    simp [isDirectoryAt,node?] at hfree
  have hcovers : later.Covers drafted := by
    have hnode := node?_of_makeTemporary htemporary draft.location
    rw [if_pos rfl] at hnode
    obtain ⟨name,_,above,-,-,-,-,-,hplain,-⟩ := makeTemporary_eq_ok_iff.1 htemporary
    rw [hlater]
    rw [hplain] at hnode ⊢
    exact covers_put_erase (by rw [isDirectoryAt,hnode]; rfl) hfree written.content
  have hmakes := hcovers.trans (covers_of_makeTemporary htemporary)
  have hensure := ensureDirectories_of_covers hmade hmakes
  obtain ⟨again,next,hagain⟩ := hmakes.makeTemporary htemporary
  refine ⟨again,{ location := next },location,Draft.start_eq_ok_iff.2 ⟨rfl,later,hensure,hagain⟩,
    (covers_of_makeTemporary hagain).place (hcovers.place hplace),?_⟩
  have hfile : later.node? location = some (.file written.content) := by
    rw [hlater,node?_put _ _ _ hne,if_pos rfl]
  rw [isDirectoryAt,node?_of_makeTemporary hagain,hfile]
  split <;> rfl

end FileTree
end LoadLedger
