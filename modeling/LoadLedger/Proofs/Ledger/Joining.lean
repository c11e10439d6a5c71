import LoadLedger.Proofs.Ledger.Lasting
import LoadLedger.Proofs.Ledger.Novelty

/-! # Observations join

Merging an observation joins it to a record: the owner stays, and the flag and the instruction sets of
both count. So what many observations make of a record depends on nothing but which they are. They may
come in any order and any number of times, and some may be merged with each other before the record
gets them. Since nothing that was merged is lost again, the record is another one in the end exactly
if one of the merges told of something new.
-/
namespace LoadLedger.DexUse

/-- The record after observations that are merged into it one after the other. -/
def mergeAll (use : DexUse) (observed : List DexUse) : DexUse := observed.foldl merge use

/-- What each of these merges tells: whether the observation added to the record. -/
def tidings (use : DexUse) : List DexUse → List Bool
  | [] => []
  | seen :: observed => use.learnsFrom seen :: tidings (use.merge seen) observed

/-- Observations of which some are merged into others first. -/
inductive Grouping
  | single (seen : DexUse)
  | join (group joined : Grouping)

namespace Grouping

def merged : Grouping → DexUse
  | .single seen => seen
  | .join group joined => group.merged.merge joined.merged

def members : Grouping → List DexUse
  | .single seen => [seen]
  | .join group joined => group.members ++ joined.members

end Grouping

/-! ## What observations come to -/

/-- A question that a merged record answers with yes if one of the two records did. -/
def Gathered (asks : DexUse → Bool) : Prop :=
  ∀ use seen, asks (use.merge seen) = (asks use || asks seen)

theorem gathered_usedByOthers : Gathered (·.usedByOthers) := fun _ _ => rfl

theorem gathered_contains (isa : Isa) : Gathered (·.isas.contains isa) := by
  intro use seen
  rw [Bool.eq_iff_iff,Bool.or_eq_true]
  exact contains_merge

theorem ext_gathered {use other : DexUse} (howner : use.owner = other.owner)
    (hasks : ∀ asks, Gathered asks → asks use = asks other) : use = other := by
  have hused := hasks _ gathered_usedByOthers
  have hisas : use.isas = other.isas :=
    TextSet.ext fun isa => Bool.eq_iff_iff.1 (hasks _ (gathered_contains isa))
  obtain ⟨owner,used,isas⟩ := use
  obtain ⟨owner',used',isas'⟩ := other
  obtain rfl : owner = owner' := howner
  obtain rfl : used = used' := hused
  obtain rfl : isas = isas' := hisas
  rfl

theorem owner_mergeAll (use : DexUse) (observed : List DexUse) :
    (use.mergeAll observed).owner = use.owner := by
  induction observed generalizing use with
  | nil => rfl
  | cons seen observed ih => exact ih (use.merge seen)

theorem Gathered.mergeAll {asks : DexUse → Bool} (h : Gathered asks) (use : DexUse)
    (observed : List DexUse) : asks (use.mergeAll observed) = (asks use || observed.any asks) := by
  induction observed generalizing use with
  | nil => exact (Bool.or_false _).symm
  | cons seen observed ih =>
    calc asks ((use.merge seen).mergeAll observed)
        = (asks (use.merge seen) || observed.any asks) := ih (use.merge seen)
      _ = (asks use || (seen :: observed).any asks) := by rw [h,Bool.or_assoc,List.any_cons]

theorem Gathered.merged {asks : DexUse → Bool} (h : Gathered asks) (group : Grouping) :
    asks group.merged = group.members.any asks := by
  induction group with
  | single seen => exact (Bool.or_false _).symm
  | join group joined ihgroup ihjoined =>
    rw [Grouping.merged,h,ihgroup,ihjoined,Grouping.members,List.any_append]

theorem mergeAll_merged_congr (use : DexUse) {groups : List Grouping} {observed : List DexUse}
    (hsame : ∀ seen, seen ∈ groups.flatMap Grouping.members ↔ seen ∈ observed) :
    use.mergeAll (groups.map Grouping.merged) = use.mergeAll observed := by
  refine ext_gathered (by rw [owner_mergeAll,owner_mergeAll]) fun asks hasks => ?_
  have hany : (groups.flatMap Grouping.members).any asks = observed.any asks := by
    rw [Bool.eq_iff_iff,List.any_eq_true,List.any_eq_true]
    simp only [hsame]
  rw [hasks.mergeAll,hasks.mergeAll,← hany,List.any_flatMap,List.any_map]
  simp only [Function.comp_def,hasks.merged]

/-! ## What the merges tell -/

theorem learnsFrom_eq_true_iff {use seen : DexUse} :
    use.learnsFrom seen = true ↔ use.merge seen ≠ use := by
  rw [← Bool.not_eq_false,not_congr learnsFrom_eq_false_iff]

theorem extends_mergeAll (use : DexUse) (observed : List DexUse) :
    (use.mergeAll observed).Extends use := by
  induction observed generalizing use with
  | nil => exact extends_refl use
  | cons seen observed ih => exact (ih (use.merge seen)).trans (extends_merge use seen)

theorem merge_eq_self_of_extends {use seen : DexUse} (h : use.Extends (use.merge seen)) :
    use.merge seen = use := by
  have hused : (use.merge seen).usedByOthers = use.usedByOthers :=
    Bool.eq_iff_iff.2 ⟨h.usedByOthers,(extends_merge use seen).usedByOthers⟩
  have hisas : (use.merge seen).isas = use.isas :=
    TextSet.ext fun isa => ⟨h.isas isa,(extends_merge use seen).isas isa⟩
  calc use.merge seen = ⟨use.owner,(use.merge seen).usedByOthers,(use.merge seen).isas⟩ := rfl
    _ = use := by rw [hused,hisas]

/-- A record is the same after many merges exactly if none of them told of anything new: what one of
them adds, no later one takes back. -/
theorem mergeAll_eq_self_iff {use : DexUse} {observed : List DexUse} :
    use.mergeAll observed = use ↔ true ∉ use.tidings observed := by
  induction observed generalizing use with
  | nil => simp [mergeAll,tidings]
  | cons seen observed ih =>
    rw [tidings,List.mem_cons,not_or]
    have hstep : use.mergeAll (seen :: observed) = (use.merge seen).mergeAll observed := rfl
    constructor
    · intro h
      have hback : use.Extends (use.merge seen) := by
        have hlast := extends_mergeAll (use.merge seen) observed
        rwa [← hstep,h] at hlast
      have hsame : use.merge seen = use := merge_eq_self_of_extends hback
      have hfirst : use.learnsFrom seen = false := learnsFrom_eq_false_iff.2 hsame
      rw [hstep,hsame] at h
      rw [hsame]
      exact ⟨by simp [hfirst],ih.1 h⟩
    · rintro ⟨hfirst,hlater⟩
      have hsame : use.merge seen = use := learnsFrom_eq_false_iff.1 (by simpa using hfirst)
      rw [hstep,ih.2 hlater,hsame]

/-- A merge leaves the owner, takes in the flag and the instruction sets, and tells whether the record
is another one. So after any number of merges the record depends on nothing but which observations
there were, whatever their owners are: not on their order, not on how often each of them came, and not
on which of them were merged with each other first. One of the merges told of something new exactly if
the record is another one than at first. -/
theorem merges_join (use seen : DexUse) {groups : List Grouping} {observed : List DexUse}
    (hsame : ∀ seen, seen ∈ groups.flatMap Grouping.members ↔ seen ∈ observed) :
    (use.merge seen).owner = use.owner ∧
    (use.merge seen).usedByOthers = (use.usedByOthers || seen.usedByOthers) ∧
    (∀ isa, (use.merge seen).isas.contains isa = true ↔
      use.isas.contains isa = true ∨ seen.isas.contains isa = true) ∧
    (use.learnsFrom seen = true ↔ use.merge seen ≠ use) ∧
    use.mergeAll (groups.map Grouping.merged) = use.mergeAll observed ∧
    (true ∈ use.tidings observed ↔ use.mergeAll observed ≠ use) := by
  refine ⟨rfl,rfl,fun _ => contains_merge,learnsFrom_eq_true_iff,use.mergeAll_merged_congr hsame,?_⟩
  rw [Ne,mergeAll_eq_self_iff,Classical.not_not]

/-- The observations `b`, `c` and `d` of three users, `b` once by itself and once merged into `c`. -/
theorem merges_join_regrouped :
    let use : DexUse := ⟨.user 0,false,TextSet.ofList ["arm"]⟩
    let b : DexUse := ⟨.user 1,true,TextSet.ofList ["x86"]⟩
    let c : DexUse := ⟨.user 2,false,TextSet.ofList ["arm","mips"]⟩
    let d : DexUse := ⟨.noOne,false,TextSet.ofList []⟩
    let groups : List Grouping := [.single d,.join (.single c) (.single b),.single b]
    (∀ seen, seen ∈ groups.flatMap Grouping.members ↔ seen ∈ [b,c,d]) ∧
    use.mergeAll (groups.map Grouping.merged) = use.mergeAll [b,c,d] ∧
    use.mergeAll [b,c,d] = ⟨.user 0,true,TextSet.ofList ["arm","mips","x86"]⟩ ∧
    use.tidings [b,c,d] = [true,true,false] := by
  intro use b c d groups
  have hsame (seen : DexUse) : seen ∈ groups.flatMap Grouping.members ↔ seen ∈ [b,c,d] := by
    have hmembers : groups.flatMap Grouping.members = [d,c,b,b] := rfl
    rw [hmembers]
    grind
  obtain ⟨-,-,-,-,hmerged,-⟩ := merges_join use b hsame
  exact ⟨hsame,hmerged,by decide,by decide⟩

end LoadLedger.DexUse
