import LoadLedger.Proofs.FileTree.Growing
import LoadLedger.Proofs.TextPieces

/-! # The last name of a path

The bytes of a path hold a slash only where the path has one, so its names are those of the path of
its directory and the last one. Where a draft can be made beside a path at which no directory
stands, the path therefore leads to a name in the directory of the draft, and a file can be put
there.
-/
namespace LoadLedger

namespace Utf8

def namePoint (c : CodePoint) : Bytes :=
  if standsForByte c then [UInt8.ofNat (c.val - 0xDC00)] else encodePoint c

theorem encodeName_eq_ok_iff {text : Text} {bytes : Bytes} : encodeName text = .ok bytes ↔
    (∀ c ∈ text, c.IsSurrogate → standsForByte c = true) ∧ bytes = text.flatMap namePoint := by
  have hplain : firstFailure? (fun c => c.IsSurrogate && !standsForByte c) 0 text = none ↔
      ∀ c ∈ text, c.IsSurrogate → standsForByte c = true := by
    rw [firstFailure?_eq_none_iff]
    simp
  rw [← hplain]
  unfold encodeName
  cases firstFailure? (fun c => c.IsSurrogate && !standsForByte c) 0 text with
  | some error => simp
  | none =>
    rw [Except.ok.injEq,and_iff_right rfl]
    exact eq_comm

theorem encodePoint_of_lt {c : CodePoint} {b : UInt8} (h : b ∈ encodePoint c) (hb : b.toNat < 128) :
    c.val = b.toNat := by
  have hbound := c.isLt
  by_cases h1 : c.val < 0x80
  · rw [encodePoint,if_pos h1,List.mem_singleton] at h
    rw [h,toNat_ofNat (by omega)]
  by_cases h2 : c.val < 0x800
  · rw [encodePoint_two (by omega) h2] at h
    simp only [List.mem_cons,List.not_mem_nil,or_false] at h
    rcases h with rfl | rfl <;> rw [toNat_ofNat (by omega)] at hb <;> omega
  by_cases h3 : c.val < 0x10000
  · rw [encodePoint_three (by omega) h3] at h
    simp only [List.mem_cons,List.not_mem_nil,or_false] at h
    rcases h with rfl | rfl | rfl <;> rw [toNat_ofNat (by omega)] at hb <;> omega
  · rw [encodePoint_four (by omega)] at h
    simp only [List.mem_cons,List.not_mem_nil,or_false] at h
    rcases h with rfl | rfl | rfl | rfl <;> rw [toNat_ofNat (by omega)] at hb <;> omega

theorem namePoint_of_lt {c : CodePoint} {b : UInt8} (h : b ∈ namePoint c) (hb : b.toNat < 128) :
    c.val = b.toNat := by
  unfold namePoint at h
  split at h
  · rename_i hstands
    have hrange : 0xDC80 ≤ c.val ∧ c.val < 0xDD00 := by simpa [standsForByte] using hstands
    rw [List.mem_singleton] at h
    rw [h,toNat_ofNat (by omega)] at hb
    omega
  · exact encodePoint_of_lt h hb

theorem namePoint_ne_nil (c : CodePoint) : namePoint c ≠ [] := by
  unfold namePoint encodePoint
  simp only []
  repeat' split
  all_goals exact List.cons_ne_nil _ _

end Utf8

namespace Text

theorem join_concat {sep last : Text} {pieces : List Text} (h : pieces ≠ []) :
    join sep (pieces ++ [last]) = join sep pieces ++ sep ++ last := by
  induction pieces with
  | nil => exact absurd rfl h
  | cons piece pieces ih =>
    by_cases hnil : pieces = []
    · subst hnil
      rfl
    · rw [List.cons_append,join_cons (by simp),ih hnil,join_cons hnil]
      simp only [List.append_assoc]

end Text

namespace PathName

/-- The parts of a path are names, as they are in every path that is taken from a text. -/
def Proper (path : PathName) : Prop := ∀ part ∈ path.parts, part ≠ [] ∧ CodePoint.slash ∉ part

instance (path : PathName) : Decidable path.Proper :=
  List.decidableBAll (fun part : Text => part ≠ [] ∧ CodePoint.slash ∉ part) path.parts

theorem proper_ofText (text : Text) : (ofText text).Proper := by
  intro part hpart
  obtain ⟨hsplit,hkept⟩ := List.mem_filter.1 hpart
  have hne : part ≠ [] := by
    rintro rfl
    simp at hkept
  exact ⟨hne,Text.notMem_of_mem_split hsplit⟩

theorem Proper.append {path other : PathName} (h : path.Proper) (hother : other.Proper) :
    (path.append other).Proper := by
  unfold PathName.append
  split
  · intro part hpart
    exact (List.mem_append.1 hpart).elim (h part) (hother part)
  · exact hother

theorem Proper.text_eq {path : PathName} (hpath : path.Proper) (h : path.parts ≠ []) :
    (path.parent.text = dot ∧ path.text = path.name) ∨
    ∃ start, path.text = start ++ CodePoint.slash :: path.name ∧
      (path.parent.text = start ++ [CodePoint.slash] ∨ path.parent.text = start ∧ start ≠ []) := by
  obtain ⟨root,parts⟩ := path
  rcases List.eq_nil_or_concat parts with rfl | ⟨front,last,rfl⟩
  · exact absurd rfl h
  have htext : text ⟨root,front.concat last⟩ =
      root.text ++ Text.join [CodePoint.slash] (front ++ [last]) := by simp [text]
  have hname : name ⟨root,front.concat last⟩ = last := by simp [name]
  have hparent : parent ⟨root,front.concat last⟩ = ⟨root,front⟩ := by simp [parent]
  rw [htext,hname,hparent]
  by_cases hfront : front = []
  · subst hfront
    cases root with
    | relative => exact .inl ⟨rfl,rfl⟩
    | slash => exact .inr ⟨[],rfl,.inl rfl⟩
    | doubleSlash => exact .inr ⟨[CodePoint.slash],rfl,.inl rfl⟩
  · refine .inr ⟨root.text ++ Text.join [CodePoint.slash] front,?_,?_⟩
    · rw [Text.join_concat hfront]
      simp only [List.append_assoc,List.singleton_append]
    · have htext' : text ⟨root,front⟩ = root.text ++ Text.join [CodePoint.slash] front := by
        simp [text,hfront]
      refine .inr ⟨htext',?_⟩
      obtain ⟨part,parts,rfl⟩ := List.exists_cons_of_ne_nil hfront
      have hpart := (hpath part (by simp)).1
      cases parts with
      | nil => simp [hpart]
      | cons next parts => simp [Text.join_cons]

end PathName

namespace FileTree

/-! ## The bytes of a path -/

theorem pathBytes_eq_ok_iff {path : Text} {bytes : Bytes} : pathBytes path = .ok bytes ↔
    Utf8.encodeName path = .ok bytes ∧ 0 ∉ bytes := by
  unfold pathBytes
  cases Utf8.encodeName path with
  | error error => simp
  | ok found =>
    rw [Except.ok.injEq]
    by_cases hnull : 0 ∈ found
    · have hcontains : found.contains 0 = true := List.contains_iff_mem.2 hnull
      simp only [hcontains,if_true]
      constructor
      · intro h
        cases h
      · rintro ⟨rfl,h⟩
        exact absurd hnull h
    · have hcontains : found.contains 0 = false := by simpa using hnull
      simp only [hcontains,Bool.false_eq_true,if_false,Except.ok.injEq]
      exact ⟨fun h => ⟨h,h ▸ hnull⟩,fun h => h.1⟩

theorem pathBytes_append_eq_ok_iff {path rest : Text} {bytes : Bytes} :
    pathBytes (path ++ rest) = .ok bytes ↔ ∃ front back, pathBytes path = .ok front ∧
      pathBytes rest = .ok back ∧ bytes = front ++ back := by
  simp only [pathBytes_eq_ok_iff,Utf8.encodeName_eq_ok_iff]
  constructor
  · rintro ⟨⟨hplain,rfl⟩,hnull⟩
    rw [List.flatMap_append,List.mem_append,not_or] at hnull
    exact ⟨_,_,⟨⟨fun c hc => hplain c (List.mem_append_left _ hc),rfl⟩,hnull.1⟩,
      ⟨⟨fun c hc => hplain c (List.mem_append_right _ hc),rfl⟩,hnull.2⟩,List.flatMap_append⟩
  · rintro ⟨_,_,⟨⟨hpath,rfl⟩,hnull⟩,⟨⟨hrest,rfl⟩,hnull'⟩,rfl⟩
    refine ⟨⟨fun c hc => ?_,List.flatMap_append.symm⟩,?_⟩
    · exact (List.mem_append.1 hc).elim (hpath c) (hrest c)
    · intro hzero
      exact (List.mem_append.1 hzero).elim hnull hnull'

theorem pathBytes_ne_nil {path : Text} {bytes : Bytes} (h : pathBytes path = .ok bytes)
    (hne : path ≠ []) : bytes ≠ [] := by
  obtain ⟨hname,-⟩ := pathBytes_eq_ok_iff.1 h
  obtain ⟨-,rfl⟩ := Utf8.encodeName_eq_ok_iff.1 hname
  obtain ⟨c,rest,rfl⟩ := List.exists_cons_of_ne_nil hne
  simp [Utf8.namePoint_ne_nil c]

theorem slashByte_notMem_pathBytes {path : Text} {bytes : Bytes} (h : pathBytes path = .ok bytes)
    (hslash : CodePoint.slash ∉ path) : slashByte ∉ bytes := by
  obtain ⟨hname,-⟩ := pathBytes_eq_ok_iff.1 h
  obtain ⟨-,rfl⟩ := Utf8.encodeName_eq_ok_iff.1 hname
  intro hbyte
  obtain ⟨c,hc,hmem⟩ := List.mem_flatMap.1 hbyte
  have hval := Utf8.namePoint_of_lt hmem (by decide)
  have hceq : c = CodePoint.slash := Fin.eq_of_val_eq hval
  exact hslash (hceq ▸ hc)

/-! ## The names in a path -/

theorem splitNames_slash (rest : Bytes) : splitNames (slashByte :: rest) = splitNames rest := by
  rw [splitNames.eq_def]
  exact if_pos rfl

theorem splitNames_singleton {b : UInt8} (h : b ≠ slashByte) : splitNames [b] = [[b]] := by
  rw [splitNames.eq_def]
  exact if_neg h

theorem splitNames_cons_slash {b : UInt8} (h : b ≠ slashByte) (rest : Bytes) :
    splitNames (b :: slashByte :: rest) = [b] :: splitNames rest := by
  rw [splitNames.eq_def]
  simp only [if_neg h,splitNames_slash]
  cases splitNames rest <;> rfl

theorem splitNames_cons {b next : UInt8} (h : b ≠ slashByte) (hnext : next ≠ slashByte)
    (rest : Bytes) : ∃ name names, splitNames (next :: rest) = name :: names ∧
      splitNames (b :: next :: rest) = (b :: name) :: names := by
  have hsome : splitNames (next :: rest) ≠ [] := by
    rw [splitNames.eq_def]
    simp only [if_neg hnext]
    split
    · split <;> exact List.cons_ne_nil _ _
    · exact List.cons_ne_nil _ _
  obtain ⟨name,names,hnames⟩ := List.exists_cons_of_ne_nil hsome
  refine ⟨name,names,hnames,?_⟩
  rw [splitNames.eq_def]
  simp only [if_neg h,hnames,if_neg hnext]

theorem splitNames_append_slash (front back : Bytes) :
    splitNames (front ++ slashByte :: back) = splitNames front ++ splitNames back := by
  induction front with
  | nil => exact splitNames_slash back
  | cons b front ih =>
    rw [List.cons_append]
    by_cases hb : b = slashByte
    · subst hb
      rw [splitNames_slash,splitNames_slash,ih]
    cases front with
    | nil =>
      rw [List.nil_append,splitNames_cons_slash hb,splitNames_singleton hb]
      rfl
    | cons next front =>
      rw [List.cons_append] at ih ⊢
      by_cases hnext : next = slashByte
      · subst hnext
        rw [splitNames_slash,splitNames_slash] at ih
        rw [splitNames_cons_slash hb,splitNames_cons_slash hb,ih]
        rfl
      · obtain ⟨name,names,hnames,hcons⟩ := splitNames_cons hb hnext front
        obtain ⟨name',names',hnames',hcons'⟩ :=
          splitNames_cons hb hnext (front ++ slashByte :: back)
        rw [hnames,hnames'] at ih
        obtain ⟨rfl,rfl⟩ := List.cons.inj ih
        rw [hcons,hcons']
        rfl

theorem splitNames_of_notMem {bytes : Bytes} (hne : bytes ≠ []) (h : slashByte ∉ bytes) :
    splitNames bytes = [bytes] := by
  induction bytes with
  | nil => exact absurd rfl hne
  | cons b rest ih =>
    obtain ⟨hb,hrest⟩ : slashByte ≠ b ∧ slashByte ∉ rest := by simpa using h
    cases rest with
    | nil => exact splitNames_singleton (Ne.symm hb)
    | cons next rest =>
      have hnext : next ≠ slashByte := fun heq => hrest (heq ▸ List.mem_cons_self)
      obtain ⟨name,names,hnames,hcons⟩ := splitNames_cons (Ne.symm hb) hnext rest
      obtain ⟨rfl,rfl⟩ := List.cons.inj (hnames.symm.trans (ih (by simp) hrest))
      exact hcons

/-! ## Following names -/

/-- Where the names of a path are followed from. -/
def startOf (tree : FileTree) (bytes : Bytes) : Location :=
  if bytes.head? = some slashByte then [] else tree.home

theorem follow_append {tree : FileTree} {start middle : Location} {front : List Bytes}
    (back : List Bytes) (h : tree.follow start front = .ok middle) :
    tree.follow start (front ++ back) = tree.follow middle back := by
  induction front generalizing start with
  | nil =>
    obtain rfl := Except.ok.inj h
    rfl
  | cons name front ih =>
    rw [follow] at h
    rw [List.cons_append,follow]
    split at h
    · rename_i hstart
      rw [if_pos hstart]
      split at h
      · rename_i hdot
        rw [if_pos hdot]
        exact ih h
      · rename_i hdot
        rw [if_neg hdot]
        split at h
        · rename_i hdots
          rw [if_pos hdots]
          exact ih h
        · rename_i hdots
          rw [if_neg hdots]
          split at h
          · cases h
          · rename_i hlength
            rw [if_neg hlength]
            simp only [] at h ⊢
            split at h
            · rename_i hnamed
              rw [if_pos hnamed]
              exact ih h
            · cases h
    · cases h

theorem follow_of_placeOf {tree : FileTree} {bytes : Bytes} {place : Place}
    (h : tree.placeOf bytes = .ok place) (hplace : tree.isDirectoryAt place.location = true) :
    tree.follow (tree.startOf bytes) (splitNames bytes) = .ok place.location := by
  simp only [placeOf] at h
  split at h
  · cases h
  · split at h
    · cases h
    · split at h
      · rename_i hlast
        obtain rfl := Except.ok.inj h
        rw [List.getLast?_eq_none_iff.1 hlast]
        rfl
      · rename_i last hlast
        obtain ⟨front,hnames⟩ := List.getLast?_eq_some_iff.1 hlast
        rw [hnames,List.dropLast_concat] at h
        rw [hnames]
        split at h
        · cases h
        · rename_i directory hfollow
          have hfront : tree.follow (tree.startOf bytes) front = .ok directory := hfollow
          rw [follow_append [last] hfront,follow]
          split at h
          · rename_i hdirectory
            rw [if_pos hdirectory]
            split at h
            · rename_i hdot
              obtain rfl := Except.ok.inj h
              rw [if_pos hdot]
              rfl
            · rename_i hdot
              rw [if_neg hdot]
              split at h
              · rename_i hdots
                obtain rfl := Except.ok.inj h
                rw [if_pos hdots]
                rfl
              · rename_i hdots
                rw [if_neg hdots]
                split at h
                · cases h
                · rename_i hlength
                  obtain rfl := Except.ok.inj h
                  simp only [if_neg hlength,Place.location] at hplace ⊢
                  rw [if_pos (isSome_of_isDirectoryAt hplace)]
                  rfl
          · cases h

/-- A path leads to its last name if the names before it lead to a directory, unless it leads to a
directory itself. -/
theorem placeOf_of_follow {tree : FileTree} (htree : tree.Grounded) {bytes last : Bytes}
    {names : List Bytes} {directory : Location} (hlength : bytes.length ≤ pathLimit)
    (hnames : splitNames bytes = names ++ [last]) (hlast : last.length ≤ nameLimit)
    (hfollow : tree.follow (tree.startOf bytes) names = .ok directory)
    (hdirectory : tree.isDirectoryAt directory = true) : ∃ place, tree.placeOf bytes = .ok place ∧
      (place = .entry (directory ++ [.plain last]) ∨
        tree.isDirectoryAt place.location = true) := by
  have hempty : ¬bytes.isEmpty = true := by
    intro hempty
    rw [List.isEmpty_iff.1 hempty] at hnames
    simp [splitNames] at hnames
  have hlong : ¬bytes.length > pathLimit := Nat.not_lt.2 hlength
  have hlongLast : ¬last.length > nameLimit := Nat.not_lt.2 hlast
  unfold startOf at hfollow
  simp only [placeOf,if_neg hempty,if_neg hlong,hnames,List.getLast?_concat,List.dropLast_concat,
    hfollow,if_pos hdirectory]
  by_cases hdot : last = [dotByte]
  · exact ⟨.itself directory,by rw [if_pos hdot],.inr hdirectory⟩
  · rw [if_neg hdot]
    by_cases hdots : last = [dotByte,dotByte]
    · refine ⟨.itself directory.dropLast,by rw [if_pos hdots],.inr ?_⟩
      rcases List.eq_nil_or_concat directory with rfl | ⟨above,name,rfl⟩
      · exact hdirectory
      · rw [List.concat_eq_append] at hdirectory
        have habove := htree.isDirectoryAt_of_append hdirectory
        simpa [Place.location] using habove
    · exact ⟨_,by rw [if_neg hdots,if_neg hlongLast],.inl rfl⟩

theorem pathBytes_of_parts {path : PathName} (hpath : path.Proper) (hparts : path.parts ≠ [])
    {above last : Bytes} (habove : pathBytes path.parent.text = .ok above)
    (hlast : pathBytes path.name = .ok last) : ∃ bytes names, pathBytes path.text = .ok bytes ∧
      splitNames bytes = names ++ [last] ∧
      ∀ (tree : FileTree) directory,
        tree.follow (tree.startOf above) (splitNames above) = .ok directory →
        tree.follow (tree.startOf bytes) names = .ok directory := by
  have hname : path.name ≠ [] ∧ CodePoint.slash ∉ path.name := by
    rcases List.eq_nil_or_concat path.parts with hnil | ⟨front,name,hconcat⟩
    · exact absurd hnil hparts
    · have hmem : path.name ∈ path.parts := by simp [PathName.name,hconcat]
      exact hpath _ hmem
  have hne := pathBytes_ne_nil hlast hname.1
  have hslash := slashByte_notMem_pathBytes hlast hname.2
  have hnames := splitNames_of_notMem hne hslash
  have hseparator : pathBytes [CodePoint.slash] = .ok [slashByte] := rfl
  rcases hpath.text_eq hparts with ⟨hdot,htext⟩ | ⟨start,htext,hparent⟩
  · rw [htext]
    rw [hdot] at habove
    obtain rfl : [dotByte] = above := Except.ok.inj habove
    refine ⟨last,[],hlast,hnames,fun tree directory hfollow => ?_⟩
    have hhead : last.head? ≠ some slashByte := fun hhead => hslash (List.mem_of_head? hhead)
    have hhome : tree.startOf [dotByte] = tree.home := rfl
    have hdots : splitNames [dotByte] = [[dotByte]] := rfl
    rw [hhome,hdots,follow] at hfollow
    rw [startOf,if_neg hhead]
    split at hfollow
    · rw [if_pos rfl] at hfollow
      exact hfollow
    · cases hfollow
  · obtain ⟨front,hfront,hend⟩ : ∃ front, pathBytes start = .ok front ∧
        (above = front ++ [slashByte] ∨ above = front ∧ front ≠ []) := by
      rcases hparent with hparent | ⟨hparent,hstart⟩
      · rw [hparent] at habove
        obtain ⟨front,back,hfront,hback,rfl⟩ := pathBytes_append_eq_ok_iff.1 habove
        obtain rfl := Except.ok.inj (hseparator.symm.trans hback)
        exact ⟨front,hfront,.inl rfl⟩
      · rw [hparent] at habove
        exact ⟨above,habove,.inr ⟨rfl,pathBytes_ne_nil habove hstart⟩⟩
    have hbytes : pathBytes path.text = .ok (front ++ slashByte :: last) := by
      rw [htext]
      exact pathBytes_append_eq_ok_iff.2 ⟨_,_,hfront,
        pathBytes_append_eq_ok_iff.2 ⟨_,_,hseparator,hlast,rfl⟩,rfl⟩
    have hsplit := splitNames_append_slash front last
    rw [hnames] at hsplit
    refine ⟨_,_,hbytes,hsplit,fun tree directory hfollow => ?_⟩
    rcases hend with rfl | ⟨rfl,hsome⟩
    · rw [splitNames_append_slash,show splitNames [] = [] from rfl,List.append_nil] at hfollow
      cases front <;> exact hfollow
    · obtain ⟨b,rest,rfl⟩ := List.exists_cons_of_ne_nil hsome
      exact hfollow

theorem not_isDirectoryAt_of_place {tree : FileTree} {path : Text} {place : Place}
    (h : tree.isDirectory path = false) (hplace : tree.place path = .ok place) :
    tree.isDirectoryAt place.location = false := by
  cases hdirectory : tree.isDirectoryAt place.location with
  | false => rfl
  | true => exact (isDirectory_iff.2 ⟨place,hplace,hdirectory⟩).symm.trans h

/-- A draft is made by its path from the top, from which dots are gone, so the path of the file
itself may still be too long. -/
def PathFits (path : Text) : Prop := ∀ bytes, pathBytes path = .ok bytes → bytes.length ≤ pathLimit

instance (path : Text) : Decidable (PathFits path) :=
  match hbytes : pathBytes path with
  | .ok bytes => decidable_of_iff (bytes.length ≤ pathLimit) (by simp [PathFits,hbytes])
  | .error _ => .isTrue (by simp [PathFits,hbytes])

theorem place_of_not_pathFits (tree : FileTree) {path : Text} (h : ¬PathFits path) :
    tree.place path = .error (.system .nameTooLong (.path path)) := by
  obtain ⟨bytes,hrest⟩ := Classical.not_forall.1 h
  obtain ⟨hbytes,hlength⟩ := Classical.not_imp.1 hrest
  have hsome : bytes.isEmpty = false := by
    cases bytes with
    | nil => exact absurd (Nat.zero_le _) hlength
    | cons b bytes => rfl
  simp only [place,hbytes,placeOf,hsome,Nat.lt_of_not_le hlength]
  rfl

/-- Where a draft can be made beside a path at which no directory stands, the path leads to its last
name in a directory, unless it is too long. -/
theorem place_of_makeTemporary {tree drafted : FileTree} {path : PathName} {draft : Location}
    (hpath : path.Proper) (htree : tree.Grounded)
    (hdraft : tree.makeTemporary path.parent.text path.name = .ok (drafted,draft))
    (hfits : PathFits path.text) (hfree : tree.isDirectory path.text = false) : ∃ location,
      tree.place path.text = .ok (.entry location) ∧ tree.isDirectoryAt location = false := by
  obtain ⟨last,above,place,hlast,habove,⟨_,-,hdraftFits⟩,hplace,hdirectory,-,-⟩ :=
    makeTemporary_eq_ok_iff.1 hdraft
  have hparts : path.parts ≠ [] := by
    intro hnil
    have hparent : path.parent = path := by
      rw [PathName.parent,hnil]
      obtain ⟨root,parts⟩ := path
      exact congrArg (PathName.mk root) hnil.symm
    rw [hparent] at habove
    have hself := not_isDirectoryAt_of_place hfree (place_eq_ok_iff.2 ⟨above,habove,hplace⟩)
    rw [hdirectory] at hself
    cases hself
  obtain ⟨bytes,names,hbytes,hnames,hfollow⟩ := pathBytes_of_parts hpath hparts habove hlast
  unfold DraftFits at hdraftFits
  obtain ⟨found,hfound,hentry⟩ := placeOf_of_follow htree (hfits bytes hbytes) hnames (by omega)
    (hfollow tree _ (follow_of_placeOf hplace hdirectory)) hdirectory
  have hpathPlace : tree.place path.text = .ok found := place_eq_ok_iff.2 ⟨bytes,hbytes,hfound⟩
  have hfoundFree := not_isDirectoryAt_of_place hfree hpathPlace
  rcases hentry with rfl | hentry
  · exact ⟨_,hpathPlace,hfoundFree⟩
  · rw [hentry] at hfoundFree
    cases hfoundFree

end FileTree
end LoadLedger
