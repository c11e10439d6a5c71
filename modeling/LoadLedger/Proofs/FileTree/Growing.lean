import LoadLedger.Proofs.FileTree.Replaceable

/-! # What an attempt leaves behind

Whatever an attempt to replace a file does on its way, what is left of a failed one are directories,
each at the end of a path above that of the file. A successful one leaves the file besides. The
draft goes in either case: it stands in a directory, and a file there can always be taken away.
-/
namespace LoadLedger

/-- One path lies above another that goes on from it. -/
def PathName.IsAbove (above path : PathName) : Prop :=
  above.root = path.root ∧ ∃ part parts, path.parts = above.parts ++ part :: parts

theorem PathName.isAbove_of_suffix {path : PathName} {above : List Text} (hne : above ≠ [])
    (h : above <:+ path.parent.parts.reverse) : IsAbove ⟨path.root,above.reverse⟩ path := by
  obtain ⟨front,hfront⟩ := h
  have hparent : path.parts.dropLast = above.reverse ++ front.reverse := by
    rw [← List.reverse_append,hfront,List.reverse_reverse]
    rfl
  have hsome : path.parts ≠ [] := by
    intro hnil
    rw [hnil] at hparent
    simp [hne] at hparent
  have hall := List.dropLast_concat_getLast hsome
  rw [hparent,List.append_assoc] at hall
  obtain ⟨part,parts,hrest⟩ :=
    List.exists_cons_of_ne_nil (List.append_ne_nil_of_right_ne_nil front.reverse
      (List.cons_ne_nil (path.parts.getLast hsome) []))
  exact ⟨rfl,part,parts,by rw [← hall,hrest]⟩

namespace FileTree

/-- Whatever stands in a tree stands in a directory. -/
def Grounded (tree : FileTree) : Prop :=
  ∀ above name, (tree.node? (above ++ [name])).isSome = true → tree.isDirectoryAt above = true

/-- A later tree that differs only by directories at the ends of paths above the given one. -/
structure Grown (later tree : FileTree) (path : PathName) : Prop where
  home : later.home = tree.home
  node : ∀ location, later.node? location = tree.node? location ∨
    (tree.node? location = none ∧ later.node? location = some .directory ∧
      ∃ above : PathName, above.IsAbove path ∧ later.place above.text = .ok (.entry location))

/-- A later tree in which all files but those at some locations are as before and temporary files
are no more and no fewer, and whose new directories are at the ends of paths above the given one. -/
structure Spares (later tree : FileTree) (path : PathName) (target : Location → Prop) : Prop where
  home : later.home = tree.home
  file : ∀ location, ¬target location → ∀ content,
    later.node? location = some (.file content) ↔ tree.node? location = some (.file content)
  temporary : ∀ above stem serial,
    later.node? (above ++ [.temporary stem serial]) = tree.node? (above ++ [.temporary stem serial])
  directory : ∀ location, tree.isDirectoryAt location = true → later.isDirectoryAt location = true
  added : ∀ location, later.isDirectoryAt location = true → tree.isDirectoryAt location = true ∨
    ∃ above : PathName, above.IsAbove path ∧ later.place above.text = .ok (.entry location)

/-! ## Trees in which everything stands in a directory -/

theorem grounded_of_nodes {tree : FileTree}
    (h : ∀ entry ∈ tree.nodes, tree.isDirectoryAt entry.1.dropLast = true) : tree.Grounded := by
  intro above name hnode
  rw [node?,if_neg (by simp)] at hnode
  obtain ⟨node,hnode⟩ := Option.isSome_iff_exists.1 hnode
  obtain ⟨before,after,hnodes,-⟩ := List.lookup_eq_some_iff.1 hnode
  have habove := h (above ++ [name],node) (by simp [hnodes])
  rwa [List.dropLast_concat] at habove

theorem isSome_of_isDirectoryAt {tree : FileTree} {location : Location}
    (h : tree.isDirectoryAt location = true) : (tree.node? location).isSome = true := by
  have hnode : tree.node? location = some .directory := of_decide_eq_true h
  rw [hnode]
  rfl

theorem Grounded.of_covers {later tree : FileTree} (h : tree.Grounded) (hcovers : later.Covers tree)
    (hnew : ∀ above name, (later.node? (above ++ [name])).isSome = true →
      (tree.node? (above ++ [name])).isSome = true ∨ later.isDirectoryAt above = true) :
    later.Grounded := by
  intro above name hnode
  rcases hnew above name hnode with hold | hdirectory
  · exact hcovers.directory above (h above name hold)
  · exact hdirectory

theorem Grounded.of_added {later tree : FileTree} (h : tree.Grounded) (hcovers : later.Covers tree)
    {above location : Location} {name : FileName} (hlocation : location = above ++ [name])
    (habove : tree.isDirectoryAt above = true)
    (hnew : ∀ other, (later.node? other).isSome = true →
      other = location ∨ (tree.node? other).isSome = true) : later.Grounded := by
  refine h.of_covers hcovers fun parent last hnamed => ?_
  rcases hnew (parent ++ [last]) hnamed with heq | hold
  · obtain ⟨rfl,-⟩ := List.append_inj' (heq.trans hlocation) rfl
    exact .inr (hcovers.directory parent habove)
  · exact .inl hold

theorem Grounded.isDirectoryAt_of_append {tree : FileTree} (h : tree.Grounded)
    {above names : Location} (hbelow : tree.isDirectoryAt (above ++ names) = true) :
    tree.isDirectoryAt above = true := by
  induction names generalizing above with
  | nil => simpa using hbelow
  | cons name names ih =>
    have hnext : tree.isDirectoryAt (above ++ [name]) = true := ih (by simpa using hbelow)
    exact h above name (isSome_of_isDirectoryAt hnext)

theorem reach_of_isDirectoryAt {tree : FileTree} {start names : Location}
    (h : ∀ before name after, names = before ++ name :: after →
      tree.isDirectoryAt (start ++ before) = true) : tree.reach start names = .ok () := by
  induction names generalizing start with
  | nil => rfl
  | cons name names ih =>
    have hstart : tree.isDirectoryAt start = true := by simpa using h [] name names rfl
    have hnode : tree.node? start = some .directory := of_decide_eq_true hstart
    rw [reach,hnode]
    refine ih fun before next after hnames => ?_
    have hnext := h (name :: before) next after (by rw [hnames]; rfl)
    simpa using hnext

theorem erase_of_node?_eq_none {tree : FileTree} {location : Location} (hne : location ≠ [])
    (h : tree.node? location = none) : tree.erase location = tree := by
  rw [node?,if_neg hne,List.lookup_eq_none_iff] at h
  have hnodes : tree.nodes.filter (·.1 ≠ location) = tree.nodes := by
    refine List.filter_eq_self.2 fun entry hentry => decide_eq_true fun heq => ?_
    simpa [heq] using h entry hentry
  rw [erase,hnodes]

theorem Grounded.unlink {tree : FileTree} (h : tree.Grounded) {above : Location} {name : FileName}
    (habove : tree.isDirectoryAt above = true) : tree.unlink (above ++ [name]) =
      if (tree.node? (above ++ [name])).isSome then .ok (tree.erase (above ++ [name]))
      else .error .noEntry := by
  have hreach : tree.reach [] (above ++ [name]) = .ok () := by
    apply reach_of_isDirectoryAt
    intro before next after hnames
    have hprefix : before <+: above := by
      have hlength := congrArg List.length hnames
      simp only [List.length_append,List.length_cons,List.length_nil] at hlength
      exact List.prefix_of_prefix_length_le ⟨_,hnames.symm⟩ ⟨[name],rfl⟩ (by omega)
    obtain ⟨rest,rfl⟩ := hprefix
    exact h.isDirectoryAt_of_append habove
  simp only [FileTree.unlink,hreach]

/-! ## Growing -/

theorem placeOf_eq_entry {tree : FileTree} {bytes : Bytes} {location : Location}
    (h : tree.placeOf bytes = .ok (.entry location)) : ∃ above name,
      location = above ++ [.plain name] ∧ tree.isDirectoryAt above = true := by
  simp only [placeOf] at h
  split at h
  · cases h
  · split at h
    · cases h
    · split at h
      · cases h
      · rename_i last hlast
        split at h
        · cases h
        · rename_i directory hfollow
          split at h
          · rename_i hdirectory
            split at h
            · cases h
            · split at h
              · cases h
              · split at h
                · cases h
                · cases h
                  exact ⟨directory,last,rfl,hdirectory⟩
          · cases h

theorem place_eq_ok_iff {tree : FileTree} {path : Text} {found : Place} :
    tree.place path = .ok found ↔
      ∃ bytes, pathBytes path = .ok bytes ∧ tree.placeOf bytes = .ok found := by
  unfold place
  cases pathBytes path with
  | error error => simp
  | ok bytes => cases hplace : tree.placeOf bytes <;> simp [hplace]

theorem place_eq_entry {tree : FileTree} {path : Text} {location : Location}
    (h : tree.place path = .ok (.entry location)) : ∃ above name,
      location = above ++ [.plain name] ∧ tree.isDirectoryAt above = true := by
  obtain ⟨bytes,-,hplace⟩ := place_eq_ok_iff.1 h
  exact placeOf_eq_entry hplace

/-- A path never leads to a temporary file. -/
theorem ne_temporary_of_place {tree : FileTree} {path : Text} {location : Location}
    (h : tree.place path = .ok (.entry location)) (above : Location) (stem : Bytes) (serial : Nat) :
    location ≠ above ++ [.temporary stem serial] := by
  obtain ⟨directory,name,rfl,-⟩ := place_eq_entry h
  simp

variable {path : PathName}

theorem Grown.refl (tree : FileTree) : tree.Grown tree path := ⟨rfl,fun _ => .inl rfl⟩

theorem Grown.covers {later tree : FileTree} (h : later.Grown tree path) : later.Covers tree where
  home := h.home
  directory := by
    intro location hlocation
    rcases h.node location with hsame | ⟨-,hnew,-⟩
    · rw [isDirectoryAt,hsame]
      exact hlocation
    · exact decide_eq_true hnew
  named := by
    intro above name hnamed
    rcases h.node (above ++ [.plain name]) with hsame | ⟨-,hnew,-⟩
    · rw [hsame]
      exact hnamed
    · rw [hnew]
      rfl

theorem Grown.trans {last later tree : FileTree} (h : last.Grown later path)
    (h' : later.Grown tree path) : last.Grown tree path where
  home := h.home.trans h'.home
  node := by
    intro location
    rcases h.node location with hsame | ⟨hfree,hnew,habove⟩
    · rw [hsame]
      refine (h'.node location).imp_right fun ⟨hfree,hnew,above,habove,hplace⟩ => ?_
      exact ⟨hfree,hnew,above,habove,h.covers.place hplace⟩
    · rcases h'.node location with hsame | ⟨-,hdirectory,-⟩
      · exact .inr ⟨hsame ▸ hfree,hnew,habove⟩
      · rw [hfree] at hdirectory
        cases hdirectory

theorem Grown.of_node?_eq {other later tree : FileTree} (h : later.Grown tree path)
    (hhome : other.home = later.home)
    (hnode : ∀ location, other.node? location = later.node? location) : other.Grown tree path := by
  have hgrown : other.Grown later path := ⟨hhome,fun location => .inl (hnode location)⟩
  exact hgrown.trans h

theorem Grown.grounded {later tree : FileTree} (h : later.Grown tree path) (htree : tree.Grounded) :
    later.Grounded := by
  refine htree.of_covers h.covers fun above name hnamed => ?_
  rcases h.node (above ++ [name]) with hsame | ⟨-,-,_,-,hplace⟩
  · exact .inl (hsame ▸ hnamed)
  · obtain ⟨directory,last,heq,hdirectory⟩ := place_eq_entry hplace
    obtain ⟨rfl,-⟩ := List.append_inj' heq rfl
    exact .inr hdirectory

theorem grown_ensureDirectory {above : PathName} (tree : FileTree) (h : above.IsAbove path) :
    Grown (tree.ensureDirectory above.text).1 tree path := by
  unfold ensureDirectory
  cases hmade : tree.makeDirectory above.text with
  | error error => exact .refl tree
  | ok made =>
    obtain ⟨location,hplace,hfree,rfl⟩ := makeDirectory_eq_ok hmade
    have hne : location ≠ [] := by
      rintro rfl
      simp [node?] at hfree
    refine ⟨rfl,fun other => ?_⟩
    by_cases hother : other = location
    · subst hother
      refine .inr ⟨hfree,?_,above,h,(covers_put_directory hfree).place hplace⟩
      exact (node?_put tree other .directory hne).trans (if_pos rfl)
    · exact .inl ((node?_put tree other .directory hne).trans (if_neg hother))

theorem Grown.spares {later tree : FileTree} (h : later.Grown tree path) :
    later.Spares tree path (fun _ => False) where
  home := h.home
  file := by
    intro location _ content
    rcases h.node location with hsame | ⟨hfree,hnew,-⟩
    · rw [hsame]
    · rw [hfree,hnew]
      simp
  temporary := by
    intro above stem serial
    rcases h.node (above ++ [.temporary stem serial]) with hsame | ⟨-,-,_,-,hplace⟩
    · exact hsame
    · exact absurd rfl (ne_temporary_of_place hplace above stem serial)
  directory := h.covers.directory
  added := by
    intro location hlocation
    rcases h.node location with hsame | ⟨-,-,above,habove,hplace⟩
    · rw [isDirectoryAt,hsame] at hlocation
      exact .inl hlocation
    · exact .inr ⟨above,habove,hplace⟩

/-- The end of a path without parts is reached without being named, so it cannot be made. -/
theorem ensureDirectory_of_root (tree : FileTree) (root : PathRoot) :
    (tree.ensureDirectory (PathName.mk root []).text).1 = tree := by
  have hplace : ∀ location, tree.place (PathName.mk root []).text ≠ .ok (.entry location) := by
    intro location hplace
    obtain ⟨bytes,hbytes,hplace⟩ := place_eq_ok_iff.1 hplace
    cases root with
    | relative =>
      obtain rfl : [dotByte] = bytes := Except.ok.inj hbytes
      simp [placeOf,splitNames,follow,dotByte,slashByte,pathLimit] at hplace
      split at hplace <;> cases hplace
    | slash =>
      obtain rfl : [slashByte] = bytes := Except.ok.inj hbytes
      simp [placeOf,splitNames,pathLimit] at hplace
    | doubleSlash =>
      obtain rfl : [slashByte,slashByte] = bytes := Except.ok.inj hbytes
      simp [placeOf,splitNames,pathLimit] at hplace
  unfold ensureDirectory
  cases hmade : tree.makeDirectory (PathName.mk root []).text with
  | error error => rfl
  | ok made =>
    obtain ⟨location,hentry,-⟩ := makeDirectory_eq_ok hmade
    exact absurd hentry (hplace location)

theorem grown_ensureParts (tree : FileTree) (root : PathRoot) {parts : List Text}
    (h : ∀ above, above ≠ [] → above <:+ parts → (PathName.mk root above.reverse).IsAbove path) :
    Grown (tree.ensureParts root parts).1 tree path := by
  induction parts generalizing tree with
  | nil =>
    rw [ensureParts,ensureDirectory_of_root]
    exact .refl tree
  | cons part above ih =>
    have hpath := h (part :: above) (by simp) (List.suffix_refl _)
    have hfirst := grown_ensureDirectory tree hpath
    have habove (tree : FileTree) := ih tree fun rest hne hrest =>
      h rest hne (hrest.trans (List.suffix_cons part above))
    rw [ensureParts]
    generalize htried : tree.ensureDirectory _ = tried at hfirst ⊢
    obtain ⟨made,_ | _⟩ := tried
    · rename_i error
      simp only [] at hfirst ⊢
      split
      · have hmore := (habove made).trans hfirst
        split
        · rename_i more hensure
          rw [hensure] at hmore
          exact (grown_ensureDirectory more hpath).trans hmore
        · exact hmore
      · exact hfirst
    · exact hfirst

theorem grown_of_ensureDirectories {tree made : FileTree} {path : PathName}
    {result : Except FileError Unit} (h : tree.ensureDirectories path.parent = (made,result)) :
    made.Grown tree path := by
  have hgrown : Grown (tree.ensureDirectories path.parent).1 tree path :=
    grown_ensureParts tree path.root fun above => PathName.isAbove_of_suffix
  rwa [h] at hgrown

end FileTree

/-! ## Attempts -/

namespace Draft

open FileTree

theorem started {tree drafted : FileTree} {path : PathName} {draft : Draft}
    (h : start tree path = (drafted,.ok draft)) : ∃ made above stem,
      tree.ensureDirectories path.parent = (made,.ok ()) ∧ made.isDirectoryAt above = true ∧
      draft.location = above ++ [.temporary stem made.freshSerial] ∧ drafted.Covers made ∧
      ∀ location, drafted.node? location =
        if location = draft.location then some (.file []) else made.node? location := by
  obtain ⟨-,made,hmade,hdraft⟩ := start_eq_ok_iff.1 h
  obtain ⟨stem,_,place,-,-,-,-,hdirectory,hlocation,-⟩ := makeTemporary_eq_ok_iff.1 hdraft
  exact ⟨made,place.location,stem,hmade,hdirectory,hlocation,covers_of_makeTemporary hdraft,
    node?_of_makeTemporary hdraft⟩

theorem discard_of_grounded {draft : Draft} {tree : FileTree} {above : Location} {name : FileName}
    (htree : tree.Grounded) (habove : tree.isDirectoryAt above = true)
    (hlocation : draft.location = above ++ [name]) :
    draft.discard tree = (draft.close,tree.erase draft.location,.ok ()) := by
  have hne : draft.location ≠ [] := by simp [hlocation]
  have hunlink : tree.unlink draft.location = if (tree.node? draft.location).isSome then
      .ok (tree.erase draft.location) else .error .noEntry := by
    rw [hlocation]
    exact htree.unlink habove
  rw [discard,hunlink]
  by_cases hsome : (tree.node? draft.location).isSome = true
  · rw [if_pos hsome]
  · have hnone : tree.node? draft.location = none := by simpa using hsome
    rw [if_neg hsome,erase_of_node?_eq_none hne hnone]

/-- A draft that was started can be thrown away, and then it is as if there had been none. -/
theorem discard_of_start {tree drafted : FileTree} {path : PathName} {draft : Draft}
    (htree : tree.Grounded) (h : start tree path = (drafted,.ok draft)) :
    ∃ made later, tree.ensureDirectories path.parent = (made,.ok ()) ∧
      (∀ other : Draft, other.location = draft.location →
        other.discard drafted = (other.close,later,.ok ())) ∧
      later.home = made.home ∧ ∀ location, later.node? location = made.node? location := by
  obtain ⟨made,above,stem,hmade,habove,hlocation,hcovers,hnode⟩ := started h
  have hgrown := grown_of_ensureDirectories hmade
  have hdrafted : drafted.Grounded := by
    refine (hgrown.grounded htree).of_added hcovers hlocation habove fun location hsome => ?_
    rw [hnode] at hsome
    split at hsome
    · rename_i heq
      exact .inl heq
    · exact .inr hsome
  have hne : draft.location ≠ [] := by simp [hlocation]
  refine ⟨made,drafted.erase draft.location,hmade,fun other hother => ?_,hcovers.home,?_⟩
  · rw [← hother] at hlocation ⊢
    exact discard_of_grounded hdrafted (hcovers.directory _ habove) hlocation
  · intro location
    rw [node?_erase _ _ hne,hnode]
    by_cases heq : location = draft.location
    · have hfree := node?_freshSerial made above stem
      rw [if_pos heq,heq,hlocation,hfree]
    · rw [if_neg heq,if_neg heq]

theorem grown_of_start {tree later : FileTree} {path : PathName} {error : FileError}
    (h : start tree path = (later,.error error)) : later.Grown tree path := by
  unfold start at h
  split at h
  · rename_i made _ hmade
    obtain ⟨rfl,-⟩ := Prod.mk.inj h
    exact grown_of_ensureDirectories hmade
  · rename_i made hmade
    split at h
    · obtain ⟨rfl,-⟩ := Prod.mk.inj h
      exact grown_of_ensureDirectories hmade
    · cases h

theorem finish_eq_error {draft closed : Draft} {tree later : FileTree} {path : PathName}
    {error : FileError} (h : draft.finish tree path = (closed,later,.error error)) :
    later = tree ∧ closed.location = draft.location := by
  unfold finish at h
  split at h
  · cases h
    exact ⟨rfl,rfl⟩
  · split at h
    · cases h
      exact ⟨rfl,rfl⟩
    · cases h

end Draft

namespace FileTree

theorem grown_of_replace {tree later : FileTree} {path : PathName} {pieces : List Piece}
    {error : WriteError} (htree : tree.Grounded)
    (h : tree.replace path pieces = (later,.error error)) : later.Grown tree path := by
  rw [replace_eq] at h
  cases hstart : Draft.start tree path with
  | mk drafted result =>
    rw [hstart] at h
    cases result with
    | error error =>
      obtain ⟨rfl,-⟩ := Prod.mk.inj h
      exact Draft.grown_of_start hstart
    | ok draft =>
      obtain ⟨made,discarded,hmade,hdiscard,hhome,hnode⟩ := Draft.discard_of_start htree hstart
      have hgrown := grown_of_ensureDirectories hmade
      have hdiscarded : discarded.Grown tree path := hgrown.of_node?_eq hhome hnode
      simp only [] at h
      split at h
      · rw [hdiscard draft rfl] at h
        obtain ⟨rfl,-⟩ := Prod.mk.inj h
        exact hdiscarded
      · rename_i written hwritten
        obtain ⟨-,_,-,hlocation,-⟩ := Draft.writeAll_eq_ok hwritten
        split at h
        · rename_i closed left error hfinish
          obtain ⟨rfl,hclosed⟩ := Draft.finish_eq_error hfinish
          rw [hdiscard closed (hclosed.trans hlocation)] at h
          obtain ⟨rfl,-⟩ := Prod.mk.inj h
          exact hdiscarded
        · cases h

theorem node?_of_replace {tree later : FileTree} {path : PathName} {pieces : List Piece}
    (h : tree.replace path pieces = (later,.ok ())) : ∃ made location content,
      made.Grown tree path ∧ later.Covers made ∧ later.place path.text = .ok (.entry location) ∧
      made.isDirectoryAt location = false ∧ ∀ other, later.node? other =
        if other = location then some (.file content) else made.node? other := by
  obtain ⟨drafted,draft,written,hstart,hwritten,hrename⟩ := replace_steps h
  obtain ⟨-,_,-,hlocation,-⟩ := Draft.writeAll_eq_ok hwritten
  rw [hlocation] at hrename
  obtain ⟨location,hplace,hfree,hlater⟩ := rename_eq_ok hrename
  obtain ⟨made,above,stem,hmade,-,hdraft,hcovers,hnode⟩ := Draft.started hstart
  have hgrown := grown_of_ensureDirectories hmade
  have hfile : drafted.isDirectoryAt draft.location = false := by
    rw [isDirectoryAt,hnode,if_pos rfl]
    rfl
  have hrenamed : later.Covers drafted := by
    rw [hlater,hdraft]
    exact covers_put_erase (hdraft ▸ hfile) hfree written.content
  have hmadeFree : made.isDirectoryAt location = false := by
    cases hdirectory : made.isDirectoryAt location with
    | false => rfl
    | true => exact (hcovers.directory location hdirectory).symm.trans hfree
  have hne : location ≠ [] := by
    rintro rfl
    cases hmadeFree
  have hdraftNe : draft.location ≠ [] := by simp [hdraft]
  refine ⟨made,location,written.content,hgrown,hrenamed.trans hcovers,hrenamed.place hplace,
    hmadeFree,fun other => ?_⟩
  rw [hlater,node?_put _ _ _ hne,node?_erase _ _ hdraftNe,hnode]
  by_cases hother : other = location
  · rw [if_pos hother,if_pos hother]
  · rw [if_neg hother,if_neg hother]
    by_cases hdrafted : other = draft.location
    · rw [if_pos hdrafted,hdrafted,hdraft,node?_freshSerial]
    · rw [if_neg hdrafted,if_neg hdrafted]

theorem Grounded.replace {tree : FileTree} (h : tree.Grounded) (path : PathName)
    (pieces : List Piece) : (tree.replace path pieces).1.Grounded := by
  cases hreplace : tree.replace path pieces with
  | mk later result =>
    cases result with
    | error error => exact (grown_of_replace h hreplace).grounded h
    | ok _ =>
      obtain ⟨made,location,content,hgrown,hcovers,hplace,-,hnode⟩ := node?_of_replace hreplace
      refine (hgrown.grounded h).of_covers hcovers fun above name hnamed => ?_
      rw [hnode] at hnamed
      split at hnamed
      · rename_i heq
        obtain ⟨directory,_,hlocation,hdirectory⟩ := place_eq_entry hplace
        obtain ⟨rfl,-⟩ := List.append_inj' (heq.trans hlocation) rfl
        exact .inr hdirectory
      · exact .inl hnamed

end FileTree
end LoadLedger
