import LoadLedger.Proofs.Listing.Spelling
import Mathlib.Data.List.Basic
import Mathlib.Data.List.Induction

/-! # Listings of what was put together in any order

Packages, the dex files of a package and the instruction sets of a dex file may have been put
together in any order. Sorting them before they are written, at each of the three levels, gives the
listing of the ledger that they make up. So the order leaves no trace in a listing.
-/
namespace LoadLedger

/-! ## Sorting by text -/

namespace Text
variable {α : Type} {key : α → Text} {l l' : List α}

def sortBy (key : α → Text) (l : List α) : List α := l.mergeSort fun a b => !before (key b) (key a)

theorem perm_sortBy (key : α → Text) (l : List α) : (sortBy key l).Perm l := List.mergeSort_perm _ _

theorem mem_sortBy {a : α} : a ∈ sortBy key l ↔ a ∈ l := (perm_sortBy key l).mem_iff

theorem not_before_trans {s t u : Text} (hts : before t s = false) (hut : before u t = false) :
    before u s = false := by
  cases hus : before u s with
  | false => rfl
  | true =>
    cases hst : before s t with
    | false =>
      rw [eq_of_not_before hst hts,hut] at hus
      cases hus
    | true =>
      rw [before_trans hus hst] at hut
      cases hut

theorem pairwise_sortBy (h : (l.map key).Nodup) :
    (sortBy key l).Pairwise fun a b => before (key a) (key b) = true := by
  have hsorted : (sortBy key l).Pairwise fun a b => (!before (key b) (key a)) = true := by
    refine List.pairwise_mergeSort (fun a b c hab hbc => ?_) (fun a b => ?_) l
    · rw [Bool.not_eq_true'] at hab hbc ⊢
      exact not_before_trans hab hbc
    · cases hba : before (key b) (key a) with
      | false => rfl
      | true =>
        rw [not_before_of_before hba]
        rfl
  have hdistinct : (sortBy key l).Pairwise fun a b => key a ≠ key b :=
    List.pairwise_map.1 (((perm_sortBy key l).map key).nodup_iff.2 h)
  refine (hsorted.and hdistinct).imp fun {a b} hab => ?_
  rw [Bool.not_eq_true'] at hab
  cases hbefore : before (key a) (key b) with
  | true => rfl
  | false => exact absurd (eq_of_not_before hbefore hab.1) hab.2

/-- There is one way only to bring elements in the order of their keys. -/
theorem eq_of_perm (key : α → Text) (h : l.Perm l')
    (hl : l.Pairwise fun a b => before (key a) (key b) = true)
    (hl' : l'.Pairwise fun a b => before (key a) (key b) = true) : l = l' := by
  refine h.eq_of_pairwise (fun a b _ _ hab hba => ?_) hl hl'
  rw [not_before_of_before hab] at hba
  cases hba

end Text

namespace TextMap
variable {α β : Type}

theorem perm_insertEntry {key : Text} {value : β} {l : List (Text × β)} (h : key ∉ l.map (·.1)) :
    (insertEntry key value l).Perm ((key,value) :: l) := by
  induction l with
  | nil => exact List.Perm.refl _
  | cons p l ih =>
    obtain ⟨hp,hl⟩ : key ≠ p.1 ∧ key ∉ l.map (·.1) := by simpa using h
    simp only [insertEntry]
    split
    · exact List.Perm.refl _
    · exact ((ih hl).cons p).trans (List.Perm.swap _ _ _)

theorem perm_entries_ofList {l : List (Text × β)} (h : (l.map (·.1)).Nodup) :
    (ofList l).entries.Perm l := by
  induction l using List.reverseRecOn with
  | nil => exact List.Perm.refl _
  | append_singleton l p ih =>
    rw [List.map_append,List.nodup_append] at h
    obtain ⟨hl,-,hp⟩ := h
    have hentries := ih hl
    have hfresh : p.1 ∉ (ofList l).entries.map (·.1) := by
      rw [(hentries.map (·.1)).mem_iff]
      exact fun hmem => hp p.1 hmem p.1 List.mem_cons_self rfl
    have hlast : (ofList (l ++ [p])).entries = insertEntry p.1 p.2 (ofList l).entries := by
      rw [ofList,List.foldl_append]
      rfl
    rw [hlast]
    exact (perm_insertEntry hfresh).trans
      ((hentries.cons p).trans (List.perm_append_singleton p l).symm)

/-- A map made of entries with different keys holds these entries, sorted. -/
theorem entries_ofList {name : α → Text} {value : α → β} {l : List α} (h : (l.map name).Nodup) :
    (ofList (l.map fun a => (name a,value a))).entries =
      (Text.sortBy name l).map fun a => (name a,value a) := by
  have hkeys : (l.map fun a => (name a,value a)).map (·.1) = l.map name := List.map_map
  refine Text.eq_of_perm (·.1) ?_ (ofList _).sorted
    (List.pairwise_map.2 (Text.pairwise_sortBy h))
  exact (perm_entries_ofList (hkeys ▸ h)).trans ((Text.perm_sortBy name l).map _).symm

end TextMap

theorem TextSet.keys_ofList {l : List Text} (h : l.Nodup) :
    (TextSet.ofList l).keys = Text.sortBy id l := by
  have hkeys : (TextSet.ofList l).keys.Perm l := by
    rw [List.perm_ext_iff_of_nodup (TextMap.nodup_keys _) h]
    intro t
    rw [← TextMap.contains_iff_mem_keys,TextSet.contains_ofList]
  exact Text.eq_of_perm id (hkeys.trans (Text.perm_sortBy id l).symm)
    (TextMap.keys_pairwise _) (Text.pairwise_sortBy (l.map_id.symm ▸ h))

/-! ## Ledgers put together in some order -/

/-- A dex file, with its instruction sets in the order in which they were put together. -/
structure ArrangedFile where
  path : Text
  owner : Owner
  usedByOthers : Bool
  isas : List Isa

structure ArrangedPackage where
  name : Text
  usedByOthers : Bool
  dexFiles : List ArrangedFile

abbrev Arrangement := List ArrangedPackage

namespace ArrangedFile

def use (file : ArrangedFile) : DexUse :=
  ⟨file.owner,file.usedByOthers,TextSet.ofList file.isas⟩

def dataLine (file : ArrangedFile) : Text :=
  Text.join [CodePoint.comma] (file.owner.text :: Listing.writeFlag file.usedByOthers ::
    Text.sortBy id file.isas)

theorem dataLine_eq {file : ArrangedFile} (h : file.isas.Nodup) :
    file.dataLine = Listing.dexDataLine file.use := by
  rw [dataLine,Listing.dexDataLine,use,TextSet.keys_ofList h]

end ArrangedFile

namespace ArrangedPackage

def use (package : ArrangedPackage) : PackageUse :=
  ⟨package.usedByOthers,TextMap.ofList (package.dexFiles.map fun file => (file.path,file.use))⟩

def lines (package : ArrangedPackage) : List Text :=
  Text.join [CodePoint.comma] [package.name,Listing.writeFlag package.usedByOthers] ::
    (Text.sortBy (·.path) package.dexFiles).flatMap fun file =>
      [Listing.pathLine file.path,file.dataLine]

/-- No path and no instruction set was put in twice. -/
structure Distinct (package : ArrangedPackage) : Prop where
  paths : (package.dexFiles.map (·.path)).Nodup
  isas : ∀ file ∈ package.dexFiles, file.isas.Nodup

instance (package : ArrangedPackage) : Decidable package.Distinct :=
  decidable_of_iff ((package.dexFiles.map (·.path)).Nodup ∧
    ∀ file ∈ package.dexFiles, file.isas.Nodup) ⟨fun h => ⟨h.1,h.2⟩,fun h => ⟨h.paths,h.isas⟩⟩

theorem lines_eq {package : ArrangedPackage} (h : package.Distinct) :
    package.lines = Listing.packageLines package.name package.use := by
  rw [lines,Listing.packageLines,use,TextMap.entries_ofList h.paths,List.flatMap_map]
  refine congrArg _ (List.flatMap_congr fun file hfile => ?_)
  rw [ArrangedFile.dataLine_eq (h.isas file (Text.mem_sortBy.1 hfile))]

end ArrangedPackage

namespace Arrangement

def ledger (arrangement : Arrangement) : Ledger :=
  TextMap.ofList (arrangement.map fun package => (package.name,package.use))

def listing (version : Int) (arrangement : Arrangement) : Text :=
  ((Listing.header ++ Numeral.ofInt version) ::
    (Text.sortBy (·.name) arrangement).flatMap (·.lines)).flatMap (· ++ Listing.lineEnd)

structure Distinct (arrangement : Arrangement) : Prop where
  names : (arrangement.map (·.name)).Nodup
  packages : ∀ package ∈ arrangement, package.Distinct

instance (arrangement : Arrangement) : Decidable arrangement.Distinct :=
  decidable_of_iff ((arrangement.map (·.name)).Nodup ∧ ∀ package ∈ arrangement, package.Distinct)
    ⟨fun h => ⟨h.1,h.2⟩,fun h => ⟨h.names,h.packages⟩⟩

/-- In whatever order a ledger was put together, sorting gives its listing. -/
theorem listing_eq_render (version : Int) {arrangement : Arrangement} (h : arrangement.Distinct) :
    arrangement.listing version = Listing.render version arrangement.ledger := by
  rw [listing,Listing.render_eq_flatMap,ledger,TextMap.entries_ofList h.names,List.flatMap_map]
  have hlines : (Text.sortBy (·.name) arrangement).flatMap (·.lines) =
      (Text.sortBy (·.name) arrangement).flatMap fun package =>
        Listing.packageLines package.name package.use :=
    List.flatMap_congr fun package hpackage =>
      ArrangedPackage.lines_eq (h.packages package (Text.mem_sortBy.1 hpackage))
  rw [hlines]

end Arrangement
end LoadLedger
