import LoadLedger.Proofs.Ledger.Views

/-! # What is known lasts

Loads add to what is known, pruning and clearing take whole records and whole packages away, and
nothing else happens to a ledger. So a record that has lost something, or has another owner than
before, was gone in between.
-/
namespace LoadLedger

/-- A later record of a dex file in which nothing is lost. -/
structure DexUse.Extends (later earlier : DexUse) : Prop where
  owner : later.owner = earlier.owner
  usedByOthers : earlier.usedByOthers = true → later.usedByOthers = true
  isas : ∀ isa, earlier.isas.contains isa = true → later.isas.contains isa = true

namespace DexUse

theorem extends_refl (use : DexUse) : use.Extends use := ⟨rfl,id,fun _ => id⟩

theorem Extends.trans {last later earlier : DexUse} (h : last.Extends later)
    (h' : later.Extends earlier) : last.Extends earlier where
  owner := h.owner.trans h'.owner
  usedByOthers := fun hused => h.usedByOthers (h'.usedByOthers hused)
  isas := fun isa hisa => h.isas isa (h'.isas isa hisa)

theorem extends_merge (use seen : DexUse) : (use.merge seen).Extends use where
  owner := rfl
  usedByOthers := fun hused => by simp [merge,hused]
  isas := fun _ hisa => contains_merge.2 (Or.inl hisa)

theorem extends_afterLoad (load : Load) (known : DexUse) :
    (afterLoad load (some known)).Extends known := by
  rw [afterLoad]
  split
  · exact extends_merge known load.dexUse
  · exact extends_refl known

end DexUse

namespace Ledger

/-- Whatever can be done to a ledger once it is there. Looking is any kind of question, and taking a
copy. -/
inductive Step
  | record (load : Load)
  | look
  | prune (installed : Installed)
  | clear

def Step.applyTo (vocabulary : Vocabulary) (ledger : Ledger) : Step → Ledger
  | .record load => ledger.enter vocabulary load
  | .look => ledger
  | .prune installed => ledger.prune installed
  | .clear => TextMap.empty

def moment (vocabulary : Vocabulary) (start : Ledger) (steps : List Step) (k : Nat) : Ledger :=
  (steps.take k).foldl (Step.applyTo vocabulary) start

variable {vocabulary : Vocabulary}

/-! ## One step -/

theorem Step.dexUse?_extends {step : Step} {ledger : Ledger} {name path : Text}
    {earlier later : DexUse} (h : ledger.dexUse? name path = some earlier)
    (hlater : (step.applyTo vocabulary ledger).dexUse? name path = some later) :
    later.Extends earlier := by
  cases step with
  | record load =>
    rw [applyTo,dexUse?_enter,h] at hlater
    split at hlater
    · exact Option.some.inj hlater ▸ DexUse.extends_afterLoad load earlier
    · exact Option.some.inj hlater ▸ DexUse.extends_refl earlier
  | look =>
    obtain rfl := Option.some.inj (h.symm.trans hlater)
    exact DexUse.extends_refl earlier
  | prune installed =>
    obtain rfl := Option.some.inj (h.symm.trans (dexUse?_prune hlater))
    exact DexUse.extends_refl earlier
  | clear => cases hlater

theorem Step.flag?_lasts {step : Step} {ledger : Ledger} {name : Text} {earlier later : Bool}
    (h : ledger.flag? name = some earlier)
    (hlater : (step.applyTo vocabulary ledger).flag? name = some later) :
    earlier = true → later = true := by
  rintro rfl
  cases step with
  | record load =>
    rw [applyTo,flag?_enter,h] at hlater
    split at hlater
    · simpa using hlater.symm
    · exact (Option.some.inj hlater).symm
  | look => exact (Option.some.inj (h.symm.trans hlater)).symm
  | prune installed => exact (Option.some.inj (h.symm.trans (flag?_prune hlater))).symm
  | clear => cases hlater

/-! ## A run -/

theorem moment_succ (start : Ledger) (steps : List Step) (k : Nat) :
    moment vocabulary start steps (k + 1) = moment vocabulary start steps k ∨ ∃ step,
      moment vocabulary start steps (k + 1) =
        Step.applyTo vocabulary (moment vocabulary start steps k) step := by
  rw [moment,List.take_add_one,List.foldl_append,← moment]
  cases steps[k]? with
  | none => exact Or.inl rfl
  | some step => exact Or.inr ⟨step,rfl⟩

/-- A relation between the answers before and after each step extends to any two answers between
which there is always an answer. -/
theorem related_of_present {α : Type} {R : α → α → Prop} (hrefl : ∀ a, R a a)
    (htrans : ∀ a b c, R a b → R b c → R a c) {view : Nat → Option α}
    (hstep : ∀ k a b, view k = some a → view (k + 1) = some b → R a b) {i : Nat} {a : α}
    (hi : view i = some a) {j : Nat} (hij : i ≤ j) (hpresent : ∀ k, i < k → k < j → view k ≠ none)
    {b : α} (hj : view j = some b) : R a b := by
  induction hij generalizing b with
  | refl => exact Option.some.inj (hi.symm.trans hj) ▸ hrefl a
  | @step j hij ih =>
    have hbefore : view j ≠ none := by
      rcases Nat.eq_or_lt_of_le hij with rfl | hlt
      · simp [hi]
      · exact hpresent j hlt j.lt_succ_self
    obtain ⟨c,hc⟩ := Option.ne_none_iff_exists'.1 hbefore
    have hac := ih (fun k hik hkj => hpresent k hik (Nat.lt_succ_of_lt hkj)) hc
    exact htrans a c b hac (hstep j c b hc hj)

theorem extends_of_present {start : Ledger} {steps : List Step} {name path : Text} {i j : Nat}
    (hij : i ≤ j)
    (hpresent : ∀ k, i < k → k < j → (moment vocabulary start steps k).dexUse? name path ≠ none)
    {earlier later : DexUse} (hi : (moment vocabulary start steps i).dexUse? name path = some earlier)
    (hj : (moment vocabulary start steps j).dexUse? name path = some later) :
    later.Extends earlier := by
  refine related_of_present (R := fun earlier later => later.Extends earlier) DexUse.extends_refl
    (fun _ _ _ h h' => h'.trans h) ?_ hi hij hpresent hj
  intro k earlier later hk hlater
  obtain hsame | ⟨step,hstep⟩ := moment_succ start steps k
  · rw [hsame] at hlater
    exact Option.some.inj (hk.symm.trans hlater) ▸ DexUse.extends_refl earlier
  · rw [hstep] at hlater
    exact step.dexUse?_extends hk hlater

theorem flag_of_present {start : Ledger} {steps : List Step} {name : Text} {i j : Nat} (hij : i ≤ j)
    (hpresent : ∀ k, i < k → k < j → (moment vocabulary start steps k).flag? name ≠ none)
    {later : Bool} (hi : (moment vocabulary start steps i).flag? name = some true)
    (hj : (moment vocabulary start steps j).flag? name = some later) : later = true := by
  refine related_of_present (R := fun earlier later => earlier = true → later = true)
    (fun _ => id) (fun _ _ _ h h' hused => h' (h hused)) ?_ hi hij hpresent hj rfl
  intro k earlier later hk hlater
  obtain hsame | ⟨step,hstep⟩ := moment_succ start steps k
  · rw [hsame] at hlater
    exact Option.some.inj (hk.symm.trans hlater) ▸ id
  · rw [hstep] at hlater
    exact step.flag?_lasts hk hlater

/-- If the record of a dex file has another owner than at an earlier moment, or has lost its flag or
an instruction set, then the file was unknown at a moment in between; if a package has lost its flag,
the package was. What a pruning leaves it leaves as it was. -/
theorem lost_only_through_absence (vocabulary : Vocabulary) (start : Ledger) (steps : List Step)
    {i j : Nat} (hij : i < j) :
    (∀ name path earlier later,
      (moment vocabulary start steps i).dexUse? name path = some earlier →
      (moment vocabulary start steps j).dexUse? name path = some later →
      (later.owner ≠ earlier.owner ∨ (earlier.usedByOthers = true ∧ later.usedByOthers = false) ∨
        ∃ isa, earlier.isas.contains isa = true ∧ later.isas.contains isa = false) →
      ∃ k, i < k ∧ k < j ∧ (moment vocabulary start steps k).dexUse? name path = none) ∧
    (∀ name, (moment vocabulary start steps i).flag? name = some true →
      (moment vocabulary start steps j).flag? name = some false →
      ∃ k, i < k ∧ k < j ∧ (moment vocabulary start steps k).contains name = false) ∧
    ∀ (ledger : Ledger) (installed : Installed) (name : Text),
      (∀ used, (ledger.prune installed).flag? name = some used → ledger.flag? name = some used) ∧
      ∀ path dex, (ledger.prune installed).dexUse? name path = some dex →
        ledger.dexUse? name path = some dex := by
  refine ⟨?_,?_,fun ledger installed name => ⟨fun _ => flag?_prune,fun _ _ => dexUse?_prune⟩⟩
  · intro name path earlier later hi hj hlost
    refine Classical.byContradiction fun hnever => ?_
    have hpresent : ∀ k, i < k → k < j →
        (moment vocabulary start steps k).dexUse? name path ≠ none :=
      fun k hik hkj hnone => hnever ⟨k,hik,hkj,hnone⟩
    have hextends := extends_of_present (Nat.le_of_lt hij) hpresent hi hj
    rcases hlost with howner | ⟨hused,hunused⟩ | ⟨isa,hisa,hnot⟩
    · exact howner hextends.owner
    · rw [hextends.usedByOthers hused] at hunused
      cases hunused
    · rw [hextends.isas isa hisa] at hnot
      cases hnot
  · intro name hi hj
    refine Classical.byContradiction fun hnever => ?_
    have hpresent : ∀ k, i < k → k < j → (moment vocabulary start steps k).flag? name ≠ none := by
      intro k hik hkj hnone
      refine hnever ⟨k,hik,hkj,?_⟩
      rw [contains_eq_isSome_flag?,hnone]
      rfl
    cases flag_of_present (Nat.le_of_lt hij) hpresent hi hj

/-- A file that changes its owner while its package is not installed. -/
def reowning : List Step :=
  [.record ⟨"a","p",.user 0,"arm",true,false⟩,.prune TextMap.empty,
    .record ⟨"a","p",.user 1,"arm",false,false⟩]

theorem lost_only_through_absence_reowning :
    let ledger := moment (TextSet.ofList ["arm"]) TextMap.empty reowning
    ∃ earlier later, 1 < 3 ∧ (ledger 1).dexUse? "a" "p" = some earlier ∧
      (ledger 3).dexUse? "a" "p" = some later ∧ later.owner ≠ earlier.owner ∧
      ∃ k, 1 < k ∧ k < 3 ∧ (ledger k).dexUse? "a" "p" = none := by
  intro ledger
  let earlier : DexUse := ⟨.user 0,true,TextSet.ofList ["arm"]⟩
  let later : DexUse := ⟨.user 1,false,TextSet.ofList ["arm"]⟩
  have hi : (ledger 1).dexUse? "a" "p" = some earlier := by decide
  have hj : (ledger 3).dexUse? "a" "p" = some later := by decide
  have howner : later.owner ≠ earlier.owner := by decide
  have hlost := lost_only_through_absence (TextSet.ofList ["arm"]) TextMap.empty reowning
    (i := 1) (j := 3) (by decide)
  exact ⟨earlier,later,by decide,hi,hj,howner,hlost.1 "a" "p" earlier later hi hj (Or.inl howner)⟩

end Ledger
end LoadLedger
