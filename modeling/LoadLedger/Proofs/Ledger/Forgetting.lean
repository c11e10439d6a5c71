import LoadLedger.Listing
import LoadLedger.Proofs.Ledger.Summary

/-! # Pruning leaves no trace

A pruned ledger is that of the loads that outlast the pruning: what the others brought in, be it a
record, a package or a place in between, is gone as if they had never been. All that is asked of
the loads is that no dex file is claimed by two owners.
-/
namespace LoadLedger

/-- The loads that a pruning spares: those of an installed package that are of a primary or split
file, or of one of its users. -/
def Load.outlasts (installed : Installed) (load : Load) : Bool :=
  match installed.find? load.package with
  | none => false
  | some users => load.primaryOrSplit || load.owner.isAmong users

variable {vocabulary : Vocabulary} {installed : Installed}

namespace Load

theorem isOf_iff {name : Text} {load : Load} : load.isOf vocabulary name = true ↔
    vocabulary.contains load.isa = true ∧ load.package = name := by
  simp [isOf]

theorem isOfFile_iff {name path : Text} {load : Load} :
    load.isOfFile vocabulary name path = true ↔ load.isOf vocabulary name = true ∧
      load.primaryOrSplit = false ∧ load.path = path := by
  simp [isOfFile,and_assoc]

theorem outlasts_of_primary {load : Load} {users : List Int}
    (hinstalled : installed.find? load.package = some users) (hprimary : load.primaryOrSplit = true) :
    load.outlasts installed = true := by
  simp [outlasts,hinstalled,hprimary]

theorem outlasts_of_isOfFile {name path : Text} {load : Load} {users : List Int}
    (hinstalled : installed.find? name = some users)
    (hload : load.isOfFile vocabulary name path = true) :
    load.outlasts installed = load.owner.isAmong users := by
  obtain ⟨hof,hsecondary,-⟩ := isOfFile_iff.1 hload
  obtain ⟨-,rfl⟩ := isOf_iff.1 hof
  simp [outlasts,hinstalled,hsecondary]

end Load

namespace Ledger

/-- No load is refused because its dex file is another owner's, be that told or not. -/
def Undisputed (vocabulary : Vocabulary) (loads : List Load) : Prop :=
  ∀ before load after, loads = before ++ load :: after →
    ¬((∃ path recorded given, (ofLoads vocabulary before).record vocabulary load =
        .error (.ownerMismatch path recorded given)) ∨
      (ofLoads vocabulary before).record vocabulary load = .error .longNumber)

/-- Loads are undisputed if and only if those of one dex file have one owner. -/
theorem undisputed_iff {loads : List Load} : Undisputed vocabulary loads ↔
    ∀ seen ∈ loads, ∀ load ∈ loads, seen.isOfFile vocabulary load.package load.path = true →
      load.isOfFile vocabulary load.package load.path = true → seen.owner = load.owner := by
  constructor
  · intro h
    have hfirst : ∀ load ∈ loads, ∀ name path, load.isOfFile vocabulary name path = true →
        ∃ first, loads.find? (·.isOfFile vocabulary name path) = some first ∧
          load.owner = first.owner := by
      intro load hmem name path hload
      obtain ⟨hof,hsecondary,rfl⟩ := Load.isOfFile_iff.1 hload
      obtain ⟨hisa,rfl⟩ := Load.isOf_iff.1 hof
      obtain ⟨before,after,hloads⟩ := List.append_of_mem hmem
      cases hfind : loads.find? (·.isOfFile vocabulary load.package load.path) with
      | none => exact absurd hload (List.find?_eq_none.1 hfind load hmem)
      | some first =>
        refine ⟨first,rfl,Classical.byContradiction fun hne => ?_⟩
        refine h before load after hloads ?_
        refine (record_ofLoads_refused_iff vocabulary before after load).2 ?_
        exact ⟨hisa,hsecondary,first,hloads ▸ hfind,Ne.symm hne⟩
    intro seen hseen load hload hsame hself
    obtain ⟨first,hfind,howner⟩ := hfirst seen hseen _ _ hsame
    obtain ⟨first',hfind',howner'⟩ := hfirst load hload _ _ hself
    obtain rfl := Option.some.inj (hfind.symm.trans hfind')
    exact howner.trans howner'.symm
  · intro h before load after hloads hrefused
    obtain ⟨hisa,hsecondary,first,hfirst,hne⟩ :=
      (record_ofLoads_refused_iff vocabulary before after load).1 hrefused
    rw [← hloads] at hfirst
    have hload : load.isOfFile vocabulary load.package load.path = true := by
      simp [Load.isOfFile,Load.isOf,hisa,hsecondary]
    exact hne (h first (List.mem_of_find?_eq_some hfirst) load (by simp [hloads])
      (List.find?_some hfirst) hload)

theorem Undisputed.owner_eq {loads : List Load} (h : Undisputed vocabulary loads) {name path : Text}
    {seen load : Load} (hseen : seen ∈ loads.filter (·.isOfFile vocabulary name path))
    (hload : load ∈ loads.filter (·.isOfFile vocabulary name path)) : seen.owner = load.owner := by
  obtain ⟨hmem,hsame⟩ := List.mem_filter.1 hseen
  obtain ⟨hmem',hself⟩ := List.mem_filter.1 hload
  obtain ⟨hof,-,rfl⟩ := Load.isOfFile_iff.1 hself
  obtain ⟨-,rfl⟩ := Load.isOf_iff.1 hof
  exact undisputed_iff.1 h seen hmem load hmem' hsame hself

theorem Undisputed.filter {loads : List Load} (h : Undisputed vocabulary loads)
    (keep : Load → Bool) : Undisputed vocabulary (loads.filter keep) :=
  undisputed_iff.2 fun seen hseen load hload => undisputed_iff.1 h seen
    (List.mem_filter.1 hseen).1 load (List.mem_filter.1 hload).1

/-! ## What the loads that outlast a pruning tell -/

/-- Either all loads of a dex file outlast the pruning or none does. -/
theorem Undisputed.dexUse?_filter_outlasts {loads : List Load} (h : Undisputed vocabulary loads)
    {name path : Text} {users : List Int} (hinstalled : installed.find? name = some users)
    {dex : DexUse} (howner : dex.owner.isAmong users = true) :
    (ofLoads vocabulary (loads.filter (·.outlasts installed))).dexUse? name path = some dex ↔
      (ofLoads vocabulary loads).dexUse? name path = some dex := by
  have hsame : ∀ seen ∈ loads.filter (·.isOfFile vocabulary name path),
      ∀ load ∈ loads.filter (·.isOfFile vocabulary name path), seen.owner = load.owner :=
    fun _ hseen _ hload => h.owner_eq hseen hload
  have houtlasts : ∀ load ∈ loads.filter (·.isOfFile vocabulary name path),
      load.outlasts installed = load.owner.isAmong users :=
    fun load hload => Load.outlasts_of_isOfFile hinstalled (List.mem_filter.1 hload).2
  have hcomm : (loads.filter (·.outlasts installed)).filter (·.isOfFile vocabulary name path) =
      (loads.filter (·.isOfFile vocabulary name path)).filter (·.outlasts installed) := by
    simp only [List.filter_filter,Bool.and_comm]
  rw [dexUse?_ofLoads,dexUse?_ofLoads,hcomm]
  generalize loads.filter (·.isOfFile vocabulary name path) = file at hsame houtlasts ⊢
  cases file with
  | nil => rfl
  | cons first others =>
    have hfirst : ∀ load ∈ first :: others, load.outlasts installed = first.owner.isAmong users :=
      fun load hload => by rw [houtlasts load hload,hsame load hload first List.mem_cons_self]
    cases hamong : first.owner.isAmong users with
    | true =>
      rw [List.filter_eq_self.2 fun load hload => (hfirst load hload).trans hamong]
    | false =>
      have hnone : (first :: others).filter (·.outlasts installed) = [] :=
        List.filter_eq_nil_iff.2 fun load hload => by simp [hfirst load hload,hamong]
      have hgone : dex.owner ≠ first.owner := by
        intro howners
        rw [howners,hamong] at howner
        cases howner
      rw [hnone]
      refine iff_of_false (by simp [DexUse.ofLoads]) fun hdex => hgone ?_
      exact congrArg DexUse.owner (Option.some.inj hdex).symm

theorem flag?_ofLoads_eq_some_iff {loads : List Load} {name : Text} {used : Bool} :
    (ofLoads vocabulary loads).flag? name = some used ↔
      (∃ load ∈ loads, load.isOf vocabulary name = true) ∧
      (used = true ↔ ∃ load ∈ loads, load.isOf vocabulary name = true ∧
        load.primaryOrSplit = true ∧ load.usedByOthers = true) := by
  have hused : (loads.filter (·.isOf vocabulary name)).any
      (fun load => load.primaryOrSplit && load.usedByOthers) = true ↔
        ∃ load ∈ loads, load.isOf vocabulary name = true ∧
          load.primaryOrSplit = true ∧ load.usedByOthers = true := by
    simp [List.any_eq_true]
  rw [flag?_ofLoads,← hused,Option.ite_none_right_eq_some,List.any_eq_true,Option.some.injEq,
    eq_comm,Bool.eq_iff_iff]

/-- Of a package that stays, the loads that outlast the pruning tell the same flag as all loads, since
none of a primary or split file is lost. -/
theorem Undisputed.flag?_filter_outlasts {loads : List Load} (h : Undisputed vocabulary loads)
    {name : Text} {users : List Int} (hinstalled : installed.find? name = some users) {used : Bool}
    (hstays : used = true ∨ ∃ path dex, (ofLoads vocabulary loads).dexUse? name path = some dex ∧
      dex.owner.isAmong users = true) :
    (ofLoads vocabulary (loads.filter (·.outlasts installed))).flag? name = some used ↔
      (ofLoads vocabulary loads).flag? name = some used := by
  have hprimary : (∃ load ∈ loads.filter (·.outlasts installed), load.isOf vocabulary name = true ∧
      load.primaryOrSplit = true ∧ load.usedByOthers = true) ↔
      ∃ load ∈ loads, load.isOf vocabulary name = true ∧
        load.primaryOrSplit = true ∧ load.usedByOthers = true := by
    constructor
    · rintro ⟨load,hload,hflag⟩
      exact ⟨load,(List.mem_filter.1 hload).1,hflag⟩
    · rintro ⟨load,hload,hof,hsplit,hused⟩
      have hname := (Load.isOf_iff.1 hof).2
      have houtlasts := Load.outlasts_of_primary (hname ▸ hinstalled) hsplit
      exact ⟨load,List.mem_filter.2 ⟨hload,houtlasts⟩,hof,hsplit,hused⟩
  rw [flag?_ofLoads_eq_some_iff,flag?_ofLoads_eq_some_iff,hprimary]
  refine and_congr_left fun hflag => ⟨?_,fun _ => ?_⟩
  · rintro ⟨load,hload,hof⟩
    exact ⟨load,(List.mem_filter.1 hload).1,hof⟩
  · rcases hstays with hused | ⟨path,dex,hdex,howner⟩
    · obtain ⟨load,hload,hof,-⟩ := hprimary.2 (hflag.1 hused)
      exact ⟨load,hload,hof⟩
    · have hkept := (h.dexUse?_filter_outlasts hinstalled howner).2 hdex
      obtain ⟨used',hused'⟩ := exists_flag?_of_dexUse? hkept
      exact (flag?_ofLoads_eq_some_iff.1 hused').1

theorem Undisputed.prune_filter_outlasts {loads : List Load} (h : Undisputed vocabulary loads)
    (installed : Installed) :
    (ofLoads vocabulary (loads.filter (·.outlasts installed))).prune installed =
      (ofLoads vocabulary loads).prune installed := by
  have hkept {name : Text} {users : List Int} (hinstalled : installed.find? name = some users) :
      (∃ path dex, (ofLoads vocabulary (loads.filter (·.outlasts installed))).dexUse? name path =
        some dex ∧ dex.owner.isAmong users = true) ↔
      ∃ path dex, (ofLoads vocabulary loads).dexUse? name path = some dex ∧
        dex.owner.isAmong users = true :=
    exists_congr fun _ => exists_congr fun _ => and_congr_left fun howner =>
      h.dexUse?_filter_outlasts hinstalled howner
  apply ext_views
  · intro name
    apply Option.ext
    intro used
    rw [flag?_prune_eq_some_iff,flag?_prune_eq_some_iff]
    constructor
    · rintro ⟨hflag,users,hinstalled,hstays⟩
      rw [hkept hinstalled] at hstays
      exact ⟨(h.flag?_filter_outlasts hinstalled hstays).1 hflag,users,hinstalled,hstays⟩
    · rintro ⟨hflag,users,hinstalled,hstays⟩
      have hflag' := (h.flag?_filter_outlasts hinstalled hstays).2 hflag
      rw [← hkept hinstalled] at hstays
      exact ⟨hflag',users,hinstalled,hstays⟩
  · intro name path
    apply Option.ext
    intro dex
    rw [dexUse?_prune_eq_some_iff,dexUse?_prune_eq_some_iff]
    refine and_congr_left fun ⟨users,hinstalled,howner⟩ => ?_
    exact h.dexUse?_filter_outlasts hinstalled howner

/-- The loads that do not outlast a pruning leave no trace in the pruned ledger. So two runs of loads
that agree on those that do end in the same ledger and the same listing. -/
theorem pruned_loads_leave_no_trace {loads : List Load} (h : Undisputed vocabulary loads)
    (installed : Installed) :
    Undisputed vocabulary (loads.filter (·.outlasts installed)) ∧
    (ofLoads vocabulary loads).prune installed =
      (ofLoads vocabulary (loads.filter (·.outlasts installed))).prune installed ∧
    ∀ others, Undisputed vocabulary others →
      others.filter (·.outlasts installed) = loads.filter (·.outlasts installed) →
      (ofLoads vocabulary others).prune installed = (ofLoads vocabulary loads).prune installed ∧
      ∀ version, Listing.render version ((ofLoads vocabulary others).prune installed) =
        Listing.render version ((ofLoads vocabulary loads).prune installed) := by
  refine ⟨h.filter _,(h.prune_filter_outlasts installed).symm,fun others hothers hagree => ?_⟩
  have hsame : (ofLoads vocabulary others).prune installed =
      (ofLoads vocabulary loads).prune installed := by
    rw [← hothers.prune_filter_outlasts installed,hagree,h.prune_filter_outlasts installed]
  exact ⟨hsame,fun version => by rw [hsame]⟩

/-- Loads of a user that is gone, among those of one who stays: in between, for a package of their
own, for one that is not installed, and with an unknown instruction set. -/
def mixedLoads : List Load :=
  [⟨"b","q",.user 10,"arm",true,false⟩,⟨"a","p",.user 0,"arm",false,false⟩,
    ⟨"a","q",.user 10,"arm",true,false⟩,⟨"c","p",.user 0,"arm",true,true⟩,
    ⟨"a","p",.user 10,"mips",true,false⟩,⟨"b","p",.user 10,"arm",false,true⟩,
    ⟨"a","p",.user 0,"x86",true,false⟩]

theorem pruned_mixedLoads :
    let vocabulary : Vocabulary := TextSet.ofList ["arm","x86"]
    let installed : Installed := (TextMap.empty.insert "a" [0]).insert "b" [0,11]
    Undisputed vocabulary mixedLoads ∧
    (ofLoads vocabulary mixedLoads).prune installed = (ofLoads vocabulary
      [⟨"a","p",.user 0,"arm",false,false⟩,⟨"b","p",.user 10,"arm",false,true⟩,
        ⟨"a","p",.user 0,"x86",true,false⟩]).prune installed := by
  intro vocabulary installed
  have hundisputed : Undisputed vocabulary mixedLoads := undisputed_iff.2 (by decide)
  have hpruned := (pruned_loads_leave_no_trace hundisputed installed).2.1
  have houtlast : mixedLoads.filter (·.outlasts installed) =
      [⟨"a","p",.user 0,"arm",false,false⟩,⟨"b","p",.user 10,"arm",false,true⟩,
        ⟨"a","p",.user 0,"x86",true,false⟩] := by decide
  rw [houtlast] at hpruned
  exact ⟨hundisputed,hpruned⟩

def disputedLoads (id : Int) : List Load :=
  [⟨"p","x",.user 0,"arm",false,false⟩,⟨"p","x",.user id,"arm",false,false⟩]

/-- If the number of that user is too long, the dispute is not told, and leaves a trace. -/
theorem pruned_disputedLoads : ¬∀ (vocabulary : Vocabulary) (installed : Installed)
    (loads : List Load),
    (∀ before load after, loads = before ++ load :: after → ∀ path recorded given,
      (ofLoads vocabulary before).record vocabulary load ≠
        .error (.ownerMismatch path recorded given)) →
    (ofLoads vocabulary loads).prune installed =
      (ofLoads vocabulary (loads.filter (·.outlasts installed))).prune installed := by
  intro h
  obtain ⟨id,hid⟩ : ∃ id, Owner.tooLong = .user id := ⟨_,rfl⟩
  have hlong := Owner.fits_tooLong
  have hne := Owner.user_zero_ne_tooLong
  rw [hid] at hlong hne
  have hzero : id ≠ 0 := fun heq => hne (heq ▸ rfl)
  let vocabulary : Vocabulary := TextSet.ofList ["arm"]
  let installed : Installed := TextMap.empty.insert "p" [id]
  have howner : ∀ seen ∈ disputedLoads id, seen.owner.fits = true → seen.owner = .user 0 := by
    simp [disputedLoads,hlong]
  have htold : ∀ before load after, disputedLoads id = before ++ load :: after →
      ∀ path recorded given, (ofLoads vocabulary before).record vocabulary load ≠
        .error (.ownerMismatch path recorded given) := by
    intro before load after hloads path recorded given hrecord
    obtain ⟨-,-,-,rfl,hne,⟨hfits,hfits'⟩,first,hfirst,rfl⟩ :=
      (record_ofLoads_eq_ownerMismatch_iff vocabulary before after load).1 hrecord
    rw [← hloads] at hfirst
    have hload : load ∈ disputedLoads id := by simp [hloads]
    have hseen := List.mem_of_find?_eq_some hfirst
    exact hne ((howner first hseen hfits).trans (howner load hload hfits').symm)
  have hprune := h vocabulary installed (disputedLoads id) htold
  have hlasting : (disputedLoads id).filter (·.outlasts installed) =
      [⟨"p","x",.user id,"arm",false,false⟩] := by
    have hfind : installed.find? "p" = some [id] := rfl
    have hgone : ¬(0 : Int) = id := fun heq => hzero heq.symm
    simp only [disputedLoads,List.filter_cons,Load.outlasts,hfind,Owner.isAmong]
    simp [hgone]
  have hdex : ((ofLoads vocabulary ((disputedLoads id).filter (·.outlasts installed))).prune
      installed).dexUse? "p" "x" = some (.ofLoad (.user id) false (some "arm")) := by
    rw [hlasting]
    refine dexUse?_prune_eq_some_iff.2 ⟨rfl,_,rfl,?_⟩
    simp [DexUse.ofLoad,Owner.isAmong]
  rw [← hprune] at hdex
  have hknown := (dexUse?_prune_eq_some_iff.1 hdex).1
  have hfirst := owner_dexUse?_ofLoads vocabulary (disputedLoads id) "p" "x"
  rw [hknown] at hfirst
  exact hne (Option.some.inj hfirst).symm

end Ledger
end LoadLedger
