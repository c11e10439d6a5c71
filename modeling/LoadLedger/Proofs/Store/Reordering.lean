import LoadLedger.Proofs.Ledger.Forgetting
import LoadLedger.Proofs.Listing.Arranged
import LoadLedger.Proofs.Store.Writing

/-! # Loads in any order and any number

As long as the loads of each dex file have one owner, a ledger depends on which loads there were and
on nothing else: not on their order, and not on how often each of them came. So the same holds of
the listing, and of the file into which it is written.
-/
namespace LoadLedger

/-- If all loads of a dex file have one owner, what they tell depends on nothing but which they are. -/
theorem DexUse.ofLoads_congr {loads others : List Load}
    (hsame : ∀ load, load ∈ others ↔ load ∈ loads)
    (howner : ∀ seen ∈ loads, ∀ load ∈ loads, seen.owner = load.owner) :
    ofLoads others = ofLoads loads := by
  have hall {first : Load} {rest : List Load} (hrest : ∀ load ∈ rest, load ∈ loads)
      (hfirst : first ∈ loads) : first.sameOwner rest = rest :=
    List.filter_eq_self.2 fun load hload => by simpa using howner load (hrest load hload) first hfirst
  cases loads with
  | nil =>
    rw [List.eq_nil_iff_forall_not_mem.2 fun load hload => List.not_mem_nil ((hsame load).1 hload)]
  | cons first rest =>
    cases others with
    | nil => exact absurd ((hsame first).2 List.mem_cons_self) List.not_mem_nil
    | cons first' rest' =>
      have hfirst := (hsame first').1 List.mem_cons_self
      rw [ofLoads,ofLoads,hall (fun load hload => (hsame load).1 hload) hfirst,
        hall (fun _ => id) List.mem_cons_self,howner first' hfirst first List.mem_cons_self]
      have hused : (first' :: rest').any (·.usedByOthers) = (first :: rest).any (·.usedByOthers) := by
        rw [Bool.eq_iff_iff,List.any_eq_true,List.any_eq_true]
        simp only [hsame]
      have hisas : TextSet.ofList ((first' :: rest').map (·.isa)) =
          TextSet.ofList ((first :: rest).map (·.isa)) := by
        apply TextSet.ext
        intro isa
        rw [TextSet.contains_ofList,TextSet.contains_ofList,List.mem_map,List.mem_map]
        simp only [hsame]
      rw [hused,hisas]

namespace Ledger

variable {vocabulary : Vocabulary}

theorem Undisputed.congr {loads others : List Load} (h : Undisputed vocabulary loads)
    (hsame : ∀ load, load ∈ others ↔ load ∈ loads) : Undisputed vocabulary others :=
  undisputed_iff.2 fun seen hseen load hload =>
    undisputed_iff.1 h seen ((hsame seen).1 hseen) load ((hsame load).1 hload)

theorem Undisputed.ofLoads_congr {loads others : List Load} (h : Undisputed vocabulary loads)
    (hsame : ∀ load, load ∈ others ↔ load ∈ loads) :
    ofLoads vocabulary others = ofLoads vocabulary loads := by
  apply ext_views
  · intro name
    apply Option.ext
    intro used
    rw [flag?_ofLoads_eq_some_iff,flag?_ofLoads_eq_some_iff]
    simp only [hsame]
  · intro name path
    rw [dexUse?_ofLoads,dexUse?_ofLoads]
    refine DexUse.ofLoads_congr (fun load => ?_) fun _ hseen _ hload => h.owner_eq hseen hload
    rw [List.mem_filter,List.mem_filter,hsame]

/-- Two runs of the same loads, in any order and each any number of times, lead to the same ledger, if
the loads of each dex file have one owner. No load is refused as another owner's. However the two
ledgers were put together, sorting gives one listing, and two stores that hold them write the same
bytes. -/
theorem same_loads_same_ledger (vocabulary : Vocabulary) {loads others : List Load}
    (hsame : ∀ load, load ∈ others ↔ load ∈ loads)
    (howner : ∀ seen ∈ loads, ∀ load ∈ loads,
      seen.isOfFile vocabulary load.package load.path = true →
      load.isOfFile vocabulary load.package load.path = true → seen.owner = load.owner) :
    Undisputed vocabulary loads ∧ Undisputed vocabulary others ∧
    ofLoads vocabulary others = ofLoads vocabulary loads ∧
    (∀ version (arranged rearranged : Arrangement), arranged.Distinct → rearranged.Distinct →
      arranged.ledger = ofLoads vocabulary loads → rearranged.ledger = ofLoads vocabulary others →
      arranged.listing version = Listing.render version (ofLoads vocabulary loads) ∧
      rearranged.listing version = arranged.listing version) ∧
    ∀ store other : Store, store.ledger = ofLoads vocabulary loads →
      other.ledger = ofLoads vocabulary others → other.dump = store.dump ∧
      ∀ files later, (store.writeNow files).result = true → (other.writeNow later).result = true →
        ∃ bytes, (store.writeNow files).files.contentOf store.path.text = .ok bytes ∧
          (other.writeNow later).files.contentOf other.path.text = .ok bytes := by
  have hundisputed : Undisputed vocabulary loads := undisputed_iff.2 howner
  have hledger := hundisputed.ofLoads_congr hsame
  refine ⟨hundisputed,hundisputed.congr hsame,hledger,?_,?_⟩
  · intro version arranged rearranged hdistinct hdistinct' harranged hrearranged
    rw [Arrangement.listing_eq_render version hdistinct,harranged,
      Arrangement.listing_eq_render version hdistinct',hrearranged,hledger]
    exact ⟨rfl,rfl⟩
  · intro store other hstore hother
    have hdump : other.dump = store.dump := by rw [Store.dump,Store.dump,hstore,hother,hledger]
    refine ⟨hdump,fun files later hwrite hwrite' => ?_⟩
    obtain ⟨-,bytes,hcontent,hencode⟩ := Store.contentOf_writeNow hwrite
    obtain ⟨-,bytes',hcontent',hencode'⟩ := Store.contentOf_writeNow hwrite'
    rw [hdump,hencode] at hencode'
    obtain rfl := Except.ok.inj hencode'
    exact ⟨bytes,hcontent,hcontent'⟩

/-- Loads of two packages, one of them with an instruction set that is not known. -/
def mingledLoads : List Load :=
  [⟨"b","q",.user 10,"arm",true,false⟩,⟨"a","p",.user 0,"x86",false,false⟩,
    ⟨"a","x",.user 3,"arm",true,true⟩,⟨"a","p",.user 7,"mips",true,false⟩,
    ⟨"a","p",.user 0,"arm",false,false⟩]

def remingledLoads : List Load :=
  [⟨"a","p",.user 7,"mips",true,false⟩,⟨"a","x",.user 3,"arm",true,true⟩,
    ⟨"a","p",.user 0,"arm",false,false⟩,⟨"a","p",.user 0,"arm",false,false⟩,
    ⟨"b","q",.user 10,"arm",true,false⟩,⟨"a","p",.user 0,"x86",false,false⟩,
    ⟨"a","x",.user 3,"arm",true,true⟩]

def mingled : Arrangement :=
  [⟨"b",false,[⟨"q",.user 10,true,["arm"]⟩]⟩,⟨"a",true,[⟨"p",.user 0,false,["x86","arm"]⟩]⟩]

def remingled : Arrangement :=
  [⟨"a",true,[⟨"p",.user 0,false,["arm","x86"]⟩]⟩,⟨"b",false,[⟨"q",.user 10,true,["arm"]⟩]⟩]

theorem same_ledger_mingledLoads :
    let vocabulary : Vocabulary := TextSet.ofList ["arm","x86"]
    (∀ load, load ∈ remingledLoads ↔ load ∈ mingledLoads) ∧
    ofLoads vocabulary remingledLoads = ofLoads vocabulary mingledLoads ∧
    mingled.ledger = ofLoads vocabulary mingledLoads ∧
    remingled.listing 1 = mingled.listing 1 := by
  intro vocabulary
  have hsubset : remingledLoads ⊆ mingledLoads := by decide
  have hsubset' : mingledLoads ⊆ remingledLoads := by decide
  have hsame (load : Load) : load ∈ remingledLoads ↔ load ∈ mingledLoads :=
    ⟨fun h => hsubset h,fun h => hsubset' h⟩
  obtain ⟨-,-,hledger,hlisting,-⟩ :=
    same_loads_same_ledger vocabulary hsame (by decide)
  have hmingled : mingled.ledger = ofLoads vocabulary mingledLoads := by decide
  have hremingled : remingled.ledger = ofLoads vocabulary remingledLoads := by decide
  have hrelisted := hlisting 1 mingled remingled (by decide) (by decide) hmingled hremingled
  exact ⟨hsame,hledger,hmingled,hrelisted.2⟩

end Ledger
end LoadLedger
