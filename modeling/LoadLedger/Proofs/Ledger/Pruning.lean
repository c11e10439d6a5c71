import LoadLedger.Proofs.Ledger.Views
import LoadLedger.Store
import Mathlib.Data.Set.Card

/-! # What a pruning does, and what two of them do

A pruning looks at two things only: whether a package is installed, and whether the owner of a dex
file is among its users. So two prunings come to one, of what is installed both times. What is
reported of a pruning are the packages that are gone after it and the dex files that were taken from
installed packages, and nothing is reported if it changes nothing.
-/
namespace LoadLedger

namespace Installed

/-- Whether a package is installed for the owner of a dex file. -/
def admits (installed : Installed) (name : Text) (owner : Owner) : Bool :=
  (installed.find? name).any fun users => owner.isAmong users

/-- What is installed both times: the packages in common, each for the users in common. -/
def meet (installed other : Installed) : Installed :=
  installed.filterMap fun name users =>
    (other.find? name).map fun others => users.filter others.contains

theorem admits_iff {installed : Installed} {name : Text} {owner : Owner} :
    installed.admits name owner = true ↔
      ∃ users, installed.find? name = some users ∧ owner.isAmong users = true := by
  rw [admits,Option.any_eq_true]

theorem find?_meet (installed other : Installed) (name : Text) : (installed.meet other).find? name =
    (installed.find? name).bind fun users =>
      (other.find? name).map fun others => users.filter others.contains :=
  TextMap.find?_filterMap _ _ _

theorem contains_meet (installed other : Installed) (name : Text) :
    (installed.meet other).contains name = (installed.contains name && other.contains name) := by
  rw [TextMap.contains,find?_meet,TextMap.contains,TextMap.contains]
  cases installed.find? name <;> cases other.find? name <;> rfl

theorem isAmong_filter (users others : List Int) (owner : Owner) :
    owner.isAmong (users.filter others.contains) = (owner.isAmong users && owner.isAmong others) := by
  cases owner with
  | noOne => rfl
  | user id =>
    rw [Bool.eq_iff_iff,Bool.and_eq_true]
    simp [Owner.isAmong]

theorem admits_meet (installed other : Installed) (name : Text) (owner : Owner) :
    (installed.meet other).admits name owner =
      (installed.admits name owner && other.admits name owner) := by
  rw [admits,find?_meet,admits,admits]
  cases installed.find? name with
  | none => rfl
  | some users =>
    cases other.find? name with
    | none => simp
    | some others => simp [isAmong_filter]

end Installed

namespace Ledger

/-! ## One pruning and two -/

variable {ledger : Ledger} {installed : Installed}

theorem flag?_prune_iff {name : Text} {used : Bool} :
    (ledger.prune installed).flag? name = some used ↔
      ledger.flag? name = some used ∧ installed.contains name = true ∧ (used = true ∨
        ∃ path dex, ledger.dexUse? name path = some dex ∧ installed.admits name dex.owner = true) := by
  rw [flag?_prune_eq_some_iff,TextMap.contains]
  simp only [Installed.admits]
  cases installed.find? name with
  | none => simp
  | some users => simp

theorem dexUse?_prune_iff {name path : Text} {dex : DexUse} :
    (ledger.prune installed).dexUse? name path = some dex ↔
      ledger.dexUse? name path = some dex ∧ installed.admits name dex.owner = true := by
  rw [dexUse?_prune_eq_some_iff,Installed.admits_iff]

theorem contains_prune_iff {name : Text} : (ledger.prune installed).contains name = true ↔
    ledger.contains name = true ∧ installed.contains name = true ∧ (ledger.flag? name = some true ∨
      ∃ path dex, ledger.dexUse? name path = some dex ∧ installed.admits name dex.owner = true) := by
  simp only [contains_eq_isSome_flag?,Option.isSome_iff_exists,flag?_prune_iff]
  constructor
  · rintro ⟨used,hflag,hinstalled,hstays⟩
    refine ⟨⟨used,hflag⟩,hinstalled,hstays.imp_left fun hused => ?_⟩
    rw [hflag,hused]
  · rintro ⟨⟨used,hflag⟩,hinstalled,hstays⟩
    refine ⟨used,hflag,hinstalled,hstays.imp_left fun hused => ?_⟩
    exact Option.some.inj (hflag.symm.trans hused)

/-- A pruning depends on nothing but which packages are installed and whom they admit. -/
theorem prune_congr {other : Installed}
    (hcontains : ∀ name, installed.contains name = other.contains name)
    (hadmits : ∀ name owner, installed.admits name owner = other.admits name owner) :
    ledger.prune installed = ledger.prune other := by
  apply ext_views
  · intro name
    apply Option.ext
    intro used
    simp only [flag?_prune_iff,hcontains,hadmits]
  · intro name path
    apply Option.ext
    intro dex
    simp only [dexUse?_prune_iff,hadmits]

theorem prune_prune (ledger : Ledger) (installed other : Installed) :
    (ledger.prune installed).prune other = ledger.prune (installed.meet other) := by
  apply ext_views
  · intro name
    apply Option.ext
    intro used
    simp only [flag?_prune_iff,dexUse?_prune_iff,Installed.contains_meet,Installed.admits_meet,
      Bool.and_eq_true]
    constructor
    · rintro ⟨⟨hflag,hinstalled,-⟩,hother,hstays⟩
      refine ⟨hflag,⟨hinstalled,hother⟩,hstays.imp_right ?_⟩
      rintro ⟨path,dex,⟨hdex,hadmits⟩,hadmits'⟩
      exact ⟨path,dex,hdex,hadmits,hadmits'⟩
    · rintro ⟨hflag,⟨hinstalled,hother⟩,hstays⟩
      refine ⟨⟨hflag,hinstalled,hstays.imp_right ?_⟩,hother,hstays.imp_right ?_⟩
      · rintro ⟨path,dex,hdex,hadmits,-⟩
        exact ⟨path,dex,hdex,hadmits⟩
      · rintro ⟨path,dex,hdex,hadmits,hadmits'⟩
        exact ⟨path,dex,⟨hdex,hadmits⟩,hadmits'⟩
  · intro name path
    apply Option.ext
    intro dex
    simp only [dexUse?_prune_iff,Installed.admits_meet,Bool.and_eq_true,and_assoc]

theorem prune_self (ledger : Ledger) (installed : Installed) :
    (ledger.prune installed).prune installed = ledger.prune installed := by
  rw [prune_prune]
  refine prune_congr (fun name => ?_) fun name owner => ?_
  · rw [Installed.contains_meet,Bool.and_self]
  · rw [Installed.admits_meet,Bool.and_self]

theorem prune_comm (ledger : Ledger) (installed other : Installed) :
    (ledger.prune installed).prune other = (ledger.prune other).prune installed := by
  rw [prune_prune,prune_prune]
  refine prune_congr (fun name => ?_) fun name owner => ?_
  · rw [Installed.contains_meet,Installed.contains_meet,Bool.and_comm]
  · rw [Installed.admits_meet,Installed.admits_meet,Bool.and_comm]

/-! ## What is reported -/

def vanished (installed : Installed) (ledger : Ledger) : List Text :=
  ledger.keys.filter fun name => !(ledger.prune installed).contains name

/-- The dex files, each with the name of the package, that a pruning takes from an installed package. -/
def strandedIn (installed : Installed) (name : Text) (use : PackageUse) : List (Text × Text) :=
  if installed.contains name
  then (use.dexFiles.entries.filter fun q => !installed.admits name q.2.owner).map fun q => (name,q.1)
  else []

def stranded (installed : Installed) (ledger : Ledger) : List (Text × Text) :=
  ledger.entries.flatMap fun p => strandedIn installed p.1 p.2

theorem mem_vanished_iff {name : Text} : name ∈ ledger.vanished installed ↔
    ledger.contains name = true ∧ (ledger.prune installed).contains name = false := by
  rw [vanished,List.mem_filter,← TextMap.contains_iff_mem_keys,Bool.not_eq_true']

theorem mem_strandedIn_iff {name : Text} {use : PackageUse} {file : Text × Text} :
    file ∈ strandedIn installed name use ↔ file.1 = name ∧ installed.contains name = true ∧
      ∃ dex, use.dexFiles.find? file.2 = some dex ∧ installed.admits name dex.owner = false := by
  rw [strandedIn,List.mem_ite_nil_right,List.mem_map]
  constructor
  · rintro ⟨hinstalled,⟨path,dex⟩,hstranded,rfl⟩
    obtain ⟨hdex,hadmits⟩ := List.mem_filter.1 hstranded
    exact ⟨rfl,hinstalled,dex,TextMap.find?_eq_some_iff.2 hdex,by simpa using hadmits⟩
  · obtain ⟨name',path⟩ := file
    rintro ⟨rfl,hinstalled,dex,hdex,hadmits⟩
    have hmem := TextMap.find?_eq_some_iff.1 hdex
    exact ⟨hinstalled,(path,dex),List.mem_filter.2 ⟨hmem,by simpa using hadmits⟩,rfl⟩

theorem nodup_strandedIn (installed : Installed) (name : Text) (use : PackageUse) :
    (strandedIn installed name use).Nodup := by
  unfold strandedIn
  split
  · refine List.pairwise_map.2 ((use.dexFiles.sorted.filter _).imp fun hbefore hsame => ?_)
    exact Text.ne_of_before hbefore (Prod.mk.inj hsame).2
  · exact List.nodup_nil

theorem mem_stranded_iff {file : Text × Text} : file ∈ ledger.stranded installed ↔
    installed.contains file.1 = true ∧ ∃ dex, ledger.dexUse? file.1 file.2 = some dex ∧
      installed.admits file.1 dex.owner = false := by
  simp only [stranded,List.mem_flatMap,mem_strandedIn_iff,Prod.exists,← TextMap.find?_eq_some_iff,
    dexUse?,Option.bind_eq_some_iff]
  constructor
  · rintro ⟨name,use,huse,rfl,hinstalled,dex,hdex,hadmits⟩
    exact ⟨hinstalled,dex,⟨use,huse,hdex⟩,hadmits⟩
  · rintro ⟨hinstalled,dex,⟨use,huse,hdex⟩,hadmits⟩
    exact ⟨file.1,use,huse,rfl,hinstalled,dex,hdex,hadmits⟩

theorem nodup_vanished (ledger : Ledger) (installed : Installed) :
    (ledger.vanished installed).Nodup := ledger.nodup_keys.filter _

theorem nodup_stranded (ledger : Ledger) (installed : Installed) :
    (ledger.stranded installed).Nodup := by
  refine List.nodup_flatMap.2 ⟨fun p _ => nodup_strandedIn installed p.1 p.2,?_⟩
  refine ledger.sorted.imp fun hbefore file hfile hfile' => ?_
  have hname := (mem_strandedIn_iff.1 hfile).1
  have hname' := (mem_strandedIn_iff.1 hfile').1
  exact Text.ne_of_before hbefore (hname.symm.trans hname')

theorem packages_pruned (ledger : Ledger) (installed : Installed) :
    (ledger.pruned installed).packages = (ledger.vanished installed).length := by
  rw [pruned,vanished,TextMap.keys,List.filter_map,List.length_map,List.countP_eq_length_filter]
  refine congrArg List.length (List.filter_congr fun p hp => ?_)
  have hfind := TextMap.find?_eq_some_iff.2 hp
  rw [Function.comp_apply,TextMap.contains,prune,TextMap.find?_filterMap,hfind,Option.bind_some,
    Option.not_isSome]

theorem dexFiles_pruned (ledger : Ledger) (installed : Installed) :
    (ledger.pruned installed).dexFiles = (ledger.stranded installed).length := by
  rw [pruned,stranded]
  simp only []
  induction ledger.entries with
  | nil => rfl
  | cons p entries ih =>
    rw [List.foldr_cons,List.flatMap_cons,List.length_append,← ih,strandedIn,TextMap.contains]
    simp only [Installed.admits]
    cases installed.find? p.1 with
    | none => simp
    | some users => simp [PackageUse.strandedFiles,List.countP_eq_length_filter]

theorem pruned_eq_zero_iff : (ledger.pruned installed).packages = 0 ∧
    (ledger.pruned installed).dexFiles = 0 ↔ ledger.prune installed = ledger := by
  rw [packages_pruned,dexFiles_pruned,List.length_eq_zero_iff,List.length_eq_zero_iff,
    List.eq_nil_iff_forall_not_mem,List.eq_nil_iff_forall_not_mem]
  simp only [mem_vanished_iff,mem_stranded_iff]
  constructor
  · rintro ⟨hnone,hnone'⟩
    have hstays {name : Text} {used : Bool} (hflag : ledger.flag? name = some used) :
        (ledger.prune installed).flag? name = some used := by
      have hknown : ledger.contains name = true := by
        rw [contains_eq_isSome_flag?,hflag,Option.isSome_some]
      have hkept : (ledger.prune installed).contains name = true := by
        simpa [hknown] using hnone name
      rw [contains_eq_isSome_flag?,Option.isSome_iff_exists] at hkept
      obtain ⟨used',hused⟩ := hkept
      obtain rfl := Option.some.inj (hflag.symm.trans (flag?_prune hused))
      exact hused
    apply ext_views
    · intro name
      apply Option.ext
      exact fun used => ⟨flag?_prune,hstays⟩
    · intro name path
      apply Option.ext
      refine fun dex => ⟨dexUse?_prune,fun hdex => dexUse?_prune_iff.2 ⟨hdex,?_⟩⟩
      obtain ⟨used,hflag⟩ := exists_flag?_of_dexUse? hdex
      have hinstalled := (flag?_prune_iff.1 (hstays hflag)).2.1
      cases hadmits : installed.admits name dex.owner with
      | true => rfl
      | false => exact absurd ⟨hinstalled,dex,hdex,hadmits⟩ (hnone' (name,path))
  · intro hsame
    refine ⟨fun name => ?_,?_⟩
    · rintro ⟨hknown,hgone⟩
      rw [hsame,hknown] at hgone
      cases hgone
    · rintro ⟨name,path⟩ ⟨-,dex,hdex,hadmits⟩
      rw [← hsame,dexUse?_prune_iff,hadmits] at hdex
      cases hdex.2

theorem ncard_mem {α : Type} {l : List α} (h : l.Nodup) : {a | a ∈ l}.ncard = l.length := by
  classical
  rw [← List.coe_toFinset,Set.ncard_coe_finset,List.toFinset_card_of_nodup h]

/-- A pruning keeps the packages that are installed and have their flag or a dex file of one of their
users, with their flag and the dex files of their users, all as they were. Two prunings come to the
one of what is installed both times, so pruning again changes nothing and the order does not matter.
A store reports a pruning exactly if the ledger changes, with the number of packages that have
disappeared and of dex files that were taken from installed packages. -/
theorem prunes_exactly (ledger : Ledger) (installed : Installed) :
    (∀ name,
      ((ledger.prune installed).contains name = true ↔
        ledger.contains name = true ∧ installed.contains name = true ∧
        (ledger.flag? name = some true ∨ ∃ path dex, ledger.dexUse? name path = some dex ∧
          installed.admits name dex.owner = true)) ∧
      (∀ used, (ledger.prune installed).flag? name = some used ↔
        (ledger.prune installed).contains name = true ∧ ledger.flag? name = some used) ∧
      ∀ path dex, (ledger.prune installed).dexUse? name path = some dex ↔
        ledger.dexUse? name path = some dex ∧ installed.admits name dex.owner = true) ∧
    (∀ other, (ledger.prune installed).prune other = ledger.prune (installed.meet other)) ∧
    (ledger.prune installed).prune installed = ledger.prune installed ∧
    (∀ other, (ledger.prune installed).prune other = (ledger.prune other).prune installed) ∧
    (∀ store : Store, store.prune installed =
      ({ store with ledger := store.ledger.prune installed },
        if store.ledger.prune installed = store.ledger then []
        else [.pruned (store.ledger.pruned installed)])) ∧
    (Note.pruned (ledger.pruned installed)).severity = .debug ∧
    (ledger.pruned installed).packages = {name | ledger.contains name = true ∧
      (ledger.prune installed).contains name = false}.ncard ∧
    (ledger.pruned installed).dexFiles = {file : Text × Text | installed.contains file.1 = true ∧
      ∃ dex, ledger.dexUse? file.1 file.2 = some dex ∧
        installed.admits file.1 dex.owner = false}.ncard := by
  refine ⟨fun name => ⟨contains_prune_iff,fun used => ?_,fun path dex => dexUse?_prune_iff⟩,
    prune_prune ledger installed,prune_self ledger installed,prune_comm ledger installed,
    fun store => ?_,rfl,?_,?_⟩
  · rw [contains_eq_isSome_flag?,Option.isSome_iff_exists]
    constructor
    · exact fun hflag => ⟨⟨used,hflag⟩,flag?_prune hflag⟩
    · rintro ⟨⟨used',hflag'⟩,hflag⟩
      obtain rfl := Option.some.inj (hflag.symm.trans (flag?_prune hflag'))
      exact hflag'
  · simp only [Store.prune,pruned_eq_zero_iff]
  · simp only [packages_pruned,← ncard_mem (nodup_vanished ledger installed),mem_vanished_iff]
  · simp only [dexFiles_pruned,← ncard_mem (nodup_stranded ledger installed),mem_stranded_iff]

/-- A package that is not installed takes its dex files with it, and they are not counted. -/
example :
    let known : DexUse := ⟨.user 0,false,TextSet.ofList ["arm"]⟩
    let gone : DexUse := ⟨.user 10,true,TextSet.ofList ["arm"]⟩
    let files : TextMap DexUse := (TextMap.empty.insert "p" known).insert "q" gone
    let ledger : Ledger := (TextMap.empty.insert "a" ⟨false,files⟩).insert "b" ⟨true,files⟩
    ledger.pruned (TextMap.empty.insert "a" [0]) = ⟨1,1⟩ := by decide

end Ledger
end LoadLedger
