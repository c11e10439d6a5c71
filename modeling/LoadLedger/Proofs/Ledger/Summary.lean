import LoadLedger.Proofs.Ledger.Views
import Mathlib.Data.List.Induction

/-! # A ledger is a summary of its loads

What a ledger tells after a run of loads can be read off the list of loads, without a ledger: which
loads count, which of them was the first of a dex file, and what those of the same owner have in
common. A refused load leaves no trace in this.
-/
namespace LoadLedger

namespace Load

variable (vocabulary : Vocabulary)

/-- A load of a package that counts: its instruction set is known. -/
def isOf (name : Text) (load : Load) : Bool :=
  vocabulary.contains load.isa && load.package == name

/-- A load that counts of a secondary dex file. -/
def isOfFile (name path : Text) (load : Load) : Bool :=
  load.isOf vocabulary name && !load.primaryOrSplit && load.path == path

end Load

/-- Those loads of a dex file that agree with the first one on the owner. -/
def Load.sameOwner (first : Load) (loads : List Load) : List Load :=
  loads.filter (·.owner == first.owner)

/-- What the loads of a dex file tell about it: the first one tells the owner, and those of the same
owner tell the flag and the instruction sets. -/
def DexUse.ofLoads : List Load → Option DexUse
  | [] => none
  | first :: others =>
    some
      { owner := first.owner
        usedByOthers := (first.sameOwner (first :: others)).any (·.usedByOthers)
        isas := TextSet.ofList ((first.sameOwner (first :: others)).map (·.isa)) }

/-- One more load tells the same about a file, whether it comes last in the list or is entered
in the record of those before it. -/
theorem DexUse.ofLoads_concat (loads : List Load) (load : Load) :
    ofLoads (loads ++ [load]) = some (afterLoad load (ofLoads loads)) := by
  cases loads with
  | nil => simp [ofLoads,afterLoad,Load.sameOwner,Load.dexUse,DexUse.ofLoad]
  | cons first others =>
    have hsame : first.sameOwner (first :: (others ++ [load])) =
        first.sameOwner (first :: others) ++ first.sameOwner [load] :=
      List.filter_append (first :: others) [load]
    rw [List.cons_append,ofLoads,ofLoads,hsame,afterLoad]
    by_cases howner : load.owner = first.owner
    · have hload : first.sameOwner [load] = [load] := by simp [Load.sameOwner,howner]
      have hisas : load.dexUse.isas = TextSet.ofList [load.isa] := rfl
      have hused : load.dexUse.usedByOthers = load.usedByOthers := rfl
      rw [if_pos howner.symm,hload,merge_eq,hisas,hused,List.any_append,List.map_append,
        TextSet.ofList_append]
      simp
    · have hload : first.sameOwner [load] = [] := by simp [Load.sameOwner,howner]
      rw [if_neg (Ne.symm howner),hload,List.append_nil]

namespace Ledger

variable (vocabulary : Vocabulary)

/-- The ledger after a run of loads, those that are refused left out. -/
def ofLoads (loads : List Load) : Ledger := loads.foldl (Ledger.enter vocabulary) TextMap.empty

theorem ofLoads_concat (loads : List Load) (load : Load) :
    ofLoads vocabulary (loads ++ [load]) = (ofLoads vocabulary loads).enter vocabulary load := by
  rw [ofLoads,List.foldl_append,← ofLoads,List.foldl_cons,List.foldl_nil]

theorem dexUse?_ofLoads (loads : List Load) (name path : Text) :
    (ofLoads vocabulary loads).dexUse? name path =
      DexUse.ofLoads (loads.filter (·.isOfFile vocabulary name path)) := by
  induction loads using List.reverseRecOn with
  | nil => rfl
  | append_singleton loads load ih =>
    have hcounts : load.isOfFile vocabulary name path = true ↔ vocabulary.contains load.isa = true ∧
        load.primaryOrSplit = false ∧ load.package = name ∧ load.path = path := by
      simp [Load.isOfFile,Load.isOf,and_assoc,and_left_comm]
    rw [ofLoads_concat,dexUse?_enter,ih,List.filter_append]
    by_cases h : load.isOfFile vocabulary name path = true
    · rw [if_pos (hcounts.1 h),List.filter_cons_of_pos h,List.filter_nil,DexUse.ofLoads_concat]
    · rw [if_neg (mt hcounts.2 h),List.filter_cons_of_neg h,List.filter_nil,List.append_nil]

theorem flag?_ofLoads (loads : List Load) (name : Text) :
    (ofLoads vocabulary loads).flag? name = if loads.any (·.isOf vocabulary name)
      then some ((loads.filter (·.isOf vocabulary name)).any fun load =>
        load.primaryOrSplit && load.usedByOthers)
      else none := by
  induction loads using List.reverseRecOn with
  | nil => rfl
  | append_singleton loads load ih =>
    have hcounts : load.isOf vocabulary name = true ↔ vocabulary.contains load.isa = true ∧
        load.package = name := by
      simp [Load.isOf]
    rw [ofLoads_concat,flag?_enter,ih,List.any_append,List.filter_append]
    by_cases h : load.isOf vocabulary name = true
    · rw [if_pos (hcounts.1 h)]
      cases hany : loads.any (·.isOf vocabulary name) with
      | false =>
        have hnone : loads.filter (·.isOf vocabulary name) = [] :=
          List.filter_eq_nil_iff.2 fun seen hseen => by simpa using List.any_eq_false.1 hany seen hseen
        simp [h,hnone]
      | true => simp [h]
    · rw [if_neg (mt hcounts.2 h)]
      simp [h]

theorem owner_dexUse?_ofLoads (loads : List Load) (name path : Text) :
    ((ofLoads vocabulary loads).dexUse? name path).map (·.owner) =
      (loads.find? (·.isOfFile vocabulary name path)).map (·.owner) := by
  rw [dexUse?_ofLoads,← List.head?_filter]
  cases loads.filter (·.isOfFile vocabulary name path) <;> rfl

/-- The owner known of a file is that of its first load in the whole run, unless that load comes
later. -/
theorem exists_known_iff_exists_first (before after : List Load) {load : Load}
    (hisa : vocabulary.contains load.isa = true) (hsecondary : load.primaryOrSplit = false)
    {recorded : Owner} (hne : recorded ≠ load.owner) :
    (∃ known, (ofLoads vocabulary before).dexUse? load.package load.path = some known ∧
        known.owner = recorded) ↔
      ∃ first, (before ++ load :: after).find? (·.isOfFile vocabulary load.package load.path) =
        some first ∧ first.owner = recorded := by
  have howner := owner_dexUse?_ofLoads vocabulary before load.package load.path
  constructor
  · rintro ⟨known,hknown,rfl⟩
    rw [hknown,Option.map_some,eq_comm,Option.map_eq_some_iff] at howner
    obtain ⟨first,hfirst,hsame⟩ := howner
    refine ⟨first,?_,hsame⟩
    rw [List.find?_append,hfirst,Option.some_or]
  · rintro ⟨first,hfirst,rfl⟩
    have hload : load.isOfFile vocabulary load.package load.path = true := by
      simp [Load.isOfFile,Load.isOf,hisa,hsecondary]
    rw [List.find?_append,List.find?_cons_of_pos hload] at hfirst
    cases hbefore : before.find? (·.isOfFile vocabulary load.package load.path) with
    | none =>
      rw [hbefore,Option.none_or] at hfirst
      exact absurd (congrArg Load.owner (Option.some.inj hfirst)).symm hne
    | some earlier =>
      rw [hbefore,Option.some_or] at hfirst
      obtain rfl := Option.some.inj hfirst
      rw [hbefore,Option.map_some,Option.map_eq_some_iff] at howner
      obtain ⟨known,hknown,hsame⟩ := howner
      exact ⟨known,hknown,hsame⟩

theorem record_ofLoads_eq_ownerMismatch_iff (before after : List Load) (load : Load) {path : Text}
    {recorded given : Owner} :
    (ofLoads vocabulary before).record vocabulary load = .error (.ownerMismatch path recorded given) ↔
      vocabulary.contains load.isa = true ∧ load.primaryOrSplit = false ∧ path = load.path ∧
      given = load.owner ∧ recorded ≠ given ∧ (recorded.fits = true ∧ given.fits = true) ∧ ∃ first,
        (before ++ load :: after).find? (·.isOfFile vocabulary load.package load.path) = some first ∧
        first.owner = recorded := by
  rw [record_eq_ownerMismatch_iff]
  constructor
  · rintro ⟨hisa,hsecondary,rfl,rfl,hne,hfits,hknown⟩
    exact ⟨hisa,hsecondary,rfl,rfl,hne,hfits,
      (exists_known_iff_exists_first vocabulary before after hisa hsecondary hne).1 hknown⟩
  · rintro ⟨hisa,hsecondary,rfl,rfl,hne,hfits,hfirst⟩
    exact ⟨hisa,hsecondary,rfl,rfl,hne,hfits,
      (exists_known_iff_exists_first vocabulary before after hisa hsecondary hne).2 hfirst⟩

theorem record_ofLoads_eq_longNumber_iff (before after : List Load) (load : Load) :
    (ofLoads vocabulary before).record vocabulary load = .error .longNumber ↔
      vocabulary.contains load.isa = true ∧ load.primaryOrSplit = false ∧ ∃ first,
        (before ++ load :: after).find? (·.isOfFile vocabulary load.package load.path) = some first ∧
        first.owner ≠ load.owner ∧ ¬(first.owner.fits = true ∧ load.owner.fits = true) := by
  rw [record_eq_longNumber_iff]
  constructor
  · rintro ⟨hisa,hsecondary,known,hknown,hne,hfits⟩
    obtain ⟨first,hfirst,hsame⟩ := (exists_known_iff_exists_first vocabulary before after hisa
      hsecondary hne).1 ⟨known,hknown,rfl⟩
    exact ⟨hisa,hsecondary,first,hfirst,hsame ▸ hne,hsame ▸ hfits⟩
  · rintro ⟨hisa,hsecondary,first,hfirst,hne,hfits⟩
    obtain ⟨known,hknown,hsame⟩ := (exists_known_iff_exists_first vocabulary before after hisa
      hsecondary hne).2 ⟨first,hfirst,rfl⟩
    exact ⟨hisa,hsecondary,known,hknown,hsame ▸ hne,hsame ▸ hfits⟩

theorem record_ofLoads_refused_iff (before after : List Load) (load : Load) :
    ((∃ path recorded given, (ofLoads vocabulary before).record vocabulary load =
        .error (.ownerMismatch path recorded given)) ∨
      (ofLoads vocabulary before).record vocabulary load = .error .longNumber) ↔
    vocabulary.contains load.isa = true ∧ load.primaryOrSplit = false ∧ ∃ first,
      (before ++ load :: after).find? (·.isOfFile vocabulary load.package load.path) = some first ∧
      first.owner ≠ load.owner := by
  rw [record_ofLoads_eq_longNumber_iff vocabulary before after load]
  simp only [record_ofLoads_eq_ownerMismatch_iff vocabulary before after load]
  constructor
  · rintro (⟨_,_,_,hisa,hsecondary,rfl,rfl,hne,-,first,hfirst,rfl⟩ |
      ⟨hisa,hsecondary,first,hfirst,hne,-⟩)
    · exact ⟨hisa,hsecondary,first,hfirst,hne⟩
    · exact ⟨hisa,hsecondary,first,hfirst,hne⟩
  · rintro ⟨hisa,hsecondary,first,hfirst,hne⟩
    by_cases hfits : first.owner.fits = true ∧ load.owner.fits = true
    · exact Or.inl ⟨_,_,_,hisa,hsecondary,rfl,rfl,hne,hfits,first,hfirst,rfl⟩
    · exact Or.inr ⟨hisa,hsecondary,first,hfirst,hne,hfits⟩

/-- What a run of loads means. A load is refused for an unknown instruction set, or because the first
load of its file was another owner's; this is not told if the number of one of the two owners is too
long to be written. Afterwards a package is known if a load that counts was of it;
its flag was set by a load of a primary or split file; and of a dex file is known what its secondary
loads tell. -/
theorem loads_summarised (vocabulary : Vocabulary) :
    (∀ before load after,
      (∀ isa, (ofLoads vocabulary before).record vocabulary load = .error (.unsupportedIsa isa) ↔
        vocabulary.contains load.isa = false ∧ isa = load.isa) ∧
      (∀ path recorded given,
        (ofLoads vocabulary before).record vocabulary load =
            .error (.ownerMismatch path recorded given) ↔
          vocabulary.contains load.isa = true ∧ load.primaryOrSplit = false ∧ path = load.path ∧
          given = load.owner ∧ recorded ≠ given ∧ (recorded.fits = true ∧ given.fits = true) ∧
          ∃ first, (before ++ load :: after).find?
            (·.isOfFile vocabulary load.package load.path) = some first ∧ first.owner = recorded) ∧
      ((ofLoads vocabulary before).record vocabulary load = .error .longNumber ↔
        vocabulary.contains load.isa = true ∧ load.primaryOrSplit = false ∧
        ∃ first, (before ++ load :: after).find?
          (·.isOfFile vocabulary load.package load.path) = some first ∧ first.owner ≠ load.owner ∧
          ¬(first.owner.fits = true ∧ load.owner.fits = true))) ∧
    ∀ loads name,
      ((ofLoads vocabulary loads).contains name = true ↔
        ∃ load ∈ loads, vocabulary.contains load.isa = true ∧ load.package = name) ∧
      (ofLoads vocabulary loads).flag? name = (if loads.any (·.isOf vocabulary name)
        then some ((loads.filter (·.isOf vocabulary name)).any fun load =>
          load.primaryOrSplit && load.usedByOthers)
        else none) ∧
      ∀ path, (ofLoads vocabulary loads).dexUse? name path =
        DexUse.ofLoads (loads.filter (·.isOfFile vocabulary name path)) := by
  refine ⟨fun before load after => ⟨fun isa => record_eq_unsupportedIsa_iff,
      fun path recorded given => record_ofLoads_eq_ownerMismatch_iff vocabulary before after load,
      record_ofLoads_eq_longNumber_iff vocabulary before after load⟩,
    fun loads name => ⟨?_,flag?_ofLoads vocabulary loads name,dexUse?_ofLoads vocabulary loads name⟩⟩
  · rw [contains_eq_isSome_flag?,flag?_ofLoads,Option.isSome_ite,List.any_eq_true]
    simp [Load.isOf]

/-- A file of user 0 that is then loaded as that of a user whose number is too long is refused for
another reason than its owner. -/
theorem not_mismatch_after_first : ¬∀ (vocabulary : Vocabulary) (before after : List Load)
    (load : Load),
    (∃ path recorded given, (ofLoads vocabulary before).record vocabulary load =
      .error (.ownerMismatch path recorded given)) ↔
    vocabulary.contains load.isa = true ∧ load.primaryOrSplit = false ∧ ∃ first,
      (before ++ load :: after).find? (·.isOfFile vocabulary load.package load.path) = some first ∧
      first.owner ≠ load.owner := by
  intro h
  let first : Load := ⟨"p","x",.user 0,"arm",false,false⟩
  let load : Load := ⟨"p","x",.tooLong,"arm",false,false⟩
  obtain ⟨_,_,_,hrecord⟩ := (h (TextSet.ofList ["arm"]) [first] [] load).2
    ⟨by decide,rfl,first,by rfl,Owner.user_zero_ne_tooLong⟩
  obtain ⟨-,-,-,rfl,-,⟨-,hfits⟩,-⟩ := record_eq_ownerMismatch_iff.1 hrecord
  rw [Owner.fits_tooLong] at hfits
  cases hfits

end Ledger
end LoadLedger
