import LoadLedger.Proofs.Listing.Spelling

/-! # Reading back what was written

A ledger comes back from its listing exactly if every part of it can be read: a name or a path that
breaks its line, an unknown instruction set or a carriage return at the end of a data line is lost
or changed, and then so is the ledger.
-/
namespace LoadLedger

def TextSet.IsLargest (s : TextSet) (t : Text) : Prop :=
  s.contains t = true ∧ ∀ u, s.contains u = true → u = t ∨ Text.before u t = true

theorem TextSet.isLargest_iff {s : TextSet} {t : Text} :
    s.IsLargest t ↔ s.keys.getLast? = some t := by
  have hlast : ∀ start last, s.keys = start ++ [last] → s.IsLargest last := by
    intro start last hkeys
    refine ⟨TextMap.contains_iff_mem_keys.2 (by simp [hkeys]),fun u hu => ?_⟩
    have hmem := TextMap.contains_iff_mem_keys.1 hu
    have hsorted := hkeys ▸ s.keys_pairwise
    rw [hkeys] at hmem
    rcases List.mem_append.1 hmem with hmem | hmem
    · exact Or.inr ((List.pairwise_append.1 hsorted).2.2 u hmem last (by simp))
    · exact Or.inl (List.mem_singleton.1 hmem)
  constructor
  · intro h
    have hne := TextMap.keys_ne_nil h.1
    have hkeys := (List.dropLast_concat_getLast hne).symm
    have hs := hlast _ _ hkeys
    have hsame : t = s.keys.getLast hne := by
      rcases hs.2 t h.1 with hsame | hbefore
      · exact hsame
      · rcases h.2 _ hs.1 with hsame | hafter
        · exact hsame.symm
        · rw [Text.not_before_of_before hbefore] at hafter
          cases hafter
    rw [List.getLast?_eq_some_getLast hne,hsame]
  · intro h
    obtain ⟨start,hkeys⟩ := List.getLast?_eq_some_iff.1 h
    exact hlast start t hkeys

/-- The largest instruction set stands last on a data line, where carriage returns get lost. -/
def Listing.EndReadable (isas : TextSet) : Prop :=
  ∀ isa, isas.IsLargest isa → isa.getLast? ≠ some CodePoint.carriageReturn

namespace Listing

variable {vocabulary : Vocabulary}

theorem bareTokens_keys {isas : TextSet} (h : IsasReadable isas) (hend : EndReadable isas) :
    bareTokens isas.keys = isas.keys := by
  obtain ⟨start,last,hkeys⟩ := keys_eq_concat h
  have hlargest : isas.IsLargest last := TextSet.isLargest_iff.2 (by simp [hkeys])
  rw [hkeys,bareTokens_concat,dropReturns_eq_self (hend last hlargest)]

/-- A record comes back unchanged exactly if its instruction sets are known and its data line ends
in no carriage return. -/
theorem reread_eq_some_iff {dex : DexUse} (h : IsasReadable dex.isas) :
    reread vocabulary dex = some dex ↔ IsasKnown vocabulary dex.isas ∧ EndReadable dex.isas := by
  obtain ⟨start,last,hkeys⟩ := keys_eq_concat h
  have hlargest : dex.isas.IsLargest last := TextSet.isLargest_iff.2 (by simp [hkeys])
  have hmem : last ∉ start := by
    have hnodup := dex.isas.nodup_keys
    rw [hkeys] at hnodup
    exact fun hlast => (List.nodup_append.1 hnodup).2.2 last hlast last (by simp) rfl
  rw [reread,hkeys,bareTokens_concat]
  constructor
  · intro hsome
    split at hsome
    · cases hsome
    · have hisas : TextSet.ofList ((start ++ [dropReturns last]).filter vocabulary.contains) = dex.isas :=
        congrArg DexUse.isas (Option.some.inj hsome)
      have hknown : ∀ isa, dex.isas.contains isa = true →
          isa ∈ start ++ [dropReturns last] ∧ vocabulary.contains isa = true := by
        intro isa hisa
        rw [← hisas] at hisa
        exact List.mem_filter.1 (TextSet.contains_ofList.1 hisa)
      refine ⟨fun isa hisa => (hknown isa hisa).2,fun isa hisa => ?_⟩
      have hbare : last = dropReturns last :=
        List.mem_singleton.1 ((List.mem_append.1 (hknown last hlargest.1).1).resolve_left hmem)
      have hsame : isa = last := by
        have hlast := TextSet.isLargest_iff.1 hisa
        rw [hkeys] at hlast
        simpa using hlast.symm
      intro hreturn
      rw [hsame,hbare] at hreturn
      have hkept := Text.getLast?_trimEnd hreturn
      simp at hkept
  · rintro ⟨hknown,hend⟩
    have hall : (start ++ [last]).filter vocabulary.contains = start ++ [last] := by
      refine List.filter_eq_self.2 fun isa hisa => hknown isa (TextMap.contains_iff_mem_keys.2 ?_)
      rwa [hkeys]
    rw [dropReturns_eq_self (hend last hlargest),hall,if_neg (by simp),← hkeys,TextSet.ofList_keys]

theorem map_rereadPackage_eq_self_iff {ledger : Ledger} :
    ledger.map (rereadPackage vocabulary) = ledger ↔
      Ledger.Every (fun _ => True) (fun _ dex => reread vocabulary dex = some dex) ledger := by
  constructor
  · intro h name use huse
    refine ⟨trivial,fun path dex hdex => ?_⟩
    have hfind := TextMap.find?_map (rereadPackage vocabulary) ledger name
    rw [h,huse] at hfind
    have hpackage : use = rereadPackage vocabulary use := Option.some.inj hfind
    have hfiles := TextMap.find?_filterMap (fun _ => reread vocabulary) use.dexFiles path
    have hsame : use.dexFiles = use.dexFiles.filterMap fun _ => reread vocabulary :=
      congrArg PackageUse.dexFiles hpackage
    rw [← hsame,hdex] at hfiles
    exact hfiles.symm
  · intro h
    apply TextMap.ext_find?
    intro name
    rw [TextMap.find?_map]
    cases huse : ledger.find? name with
    | none => rfl
    | some use =>
      have hfiles : use.dexFiles.filterMap (fun _ => reread vocabulary) = use.dexFiles := by
        apply TextMap.ext_find?
        intro path
        rw [TextMap.find?_filterMap]
        cases hdex : use.dexFiles.find? path with
        | none => rfl
        | some dex => exact (h name use huse).2 path dex hdex
      rw [Option.map_some,rereadPackage,hfiles]

theorem writable_of_every {recorded : Text → DexUse → Prop} {ledger : Ledger}
    (h : Ledger.Every NameReadable recorded ledger)
    (howners : Ledger.Every (fun _ => True) (fun _ dex => OwnerReadable dex.owner) ledger)
    (hrecorded : ∀ path dex, recorded path dex → PathReadable path ∧ IsasReadable dex.isas) :
    Ledger.Every NameReadable RecordWritable ledger := by
  intro name use huse
  obtain ⟨hname,hrecords⟩ := h name use huse
  refine ⟨hname,fun path dex hdex => ?_⟩
  obtain ⟨hpath,hisas⟩ := hrecorded path dex (hrecords path dex hdex)
  exact ⟨hpath,hisas,(howners name use huse).2 path dex hdex⟩

/-- A ledger whose owners have readable numbers comes back from its listing exactly if its names,
paths and instruction sets are readable, the instruction sets are known, and none of its data lines
ends in a carriage return. All errors are errors of the format. -/
theorem read_render_eq_ok_iff (vocabulary : Vocabulary) {version : Int} {ledger : Ledger}
    (hversion : version.natAbs < 10 ^ Numeral.digitLimit)
    (howners : Ledger.Every (fun _ => True) (fun _ dex => OwnerReadable dex.owner) ledger) :
    ((read vocabulary version (.ofText (render version ledger))).result = .ok ledger ↔
      Ledger.Every NameReadable (fun path dex => PathReadable path ∧ IsasReadable dex.isas ∧
        IsasKnown vocabulary dex.isas ∧ EndReadable dex.isas) ledger) ∧
    ∀ error, (read vocabulary version (.ofText (render version ledger))).result = .error error →
      ∃ cause, error = .format cause := by
  refine ⟨⟨fun h => ?_,fun h => ?_⟩,fun _ => read_ofText_error⟩
  · have hreadable := readable_of_read h
    have hwritable := writable_of_every hreadable howners fun _ _ hrecord => ⟨hrecord.1,hrecord.2.1⟩
    rw [read_render vocabulary hversion hwritable] at h
    have hself := map_rereadPackage_eq_self_iff.1 (Except.ok.inj h)
    intro name use huse
    obtain ⟨hname,hrecords⟩ := hreadable name use huse
    refine ⟨hname,fun path dex hdex => ?_⟩
    obtain ⟨hpath,hisas,hknown⟩ := hrecords path dex hdex
    have hend := (reread_eq_some_iff hisas).1 ((hself name use huse).2 path dex hdex)
    exact ⟨hpath,hisas,hknown,hend.2⟩
  · have hwritable := writable_of_every h howners fun _ _ hrecord => ⟨hrecord.1,hrecord.2.1⟩
    rw [read_render vocabulary hversion hwritable]
    refine congrArg _ (map_rereadPackage_eq_self_iff.2 fun name use huse => ⟨trivial,?_⟩)
    intro path dex hdex
    obtain ⟨-,hisas,hknown,hend⟩ := (h name use huse).2 path dex hdex
    exact (reread_eq_some_iff hisas).2 ⟨hknown,hend⟩

/-- A package without a name, whose dex file has separators in its path and an instruction set that
ends in a carriage return but is not the last one. -/
def oddLedger : Ledger :=
  TextMap.empty.insert [] (({ usedByOthers := true } : PackageUse).setDexFile "#a,\rb,"
    ⟨.user (-7),false,TextSet.ofList ["arm\r","b"]⟩)

theorem read_render_oddLedger :
    (1 : Int).natAbs < 10 ^ Numeral.digitLimit ∧
    Ledger.Every (fun _ => True) (fun _ dex => OwnerReadable dex.owner) oddLedger ∧
    (read (TextSet.ofList ["b","arm\r"]) 1 (.ofText (render 1 oddLedger))).result = .ok oddLedger := by
  have hlimit : ∀ n < 10 ^ 1, n < 10 ^ Numeral.digitLimit := fun n hn =>
    Nat.lt_of_lt_of_le hn (Nat.pow_le_pow_right (by decide) (by decide))
  have hversion : (1 : Int).natAbs < 10 ^ Numeral.digitLimit := hlimit 1 (by decide)
  have howners : Ledger.Every (fun _ => True) (fun _ dex => OwnerReadable dex.owner) oddLedger :=
    (Ledger.every_empty _ _).insert trivial
      ((PackageUse.every_flag _ true).setDexFile ⟨-7,rfl,hlimit 7 (by decide)⟩)
  refine ⟨hversion,howners,(read_render_eq_ok_iff _ hversion howners).1.2 ?_⟩
  refine (Ledger.every_empty _ _).insert ⟨by decide,by decide,by decide⟩
    ((PackageUse.every_flag _ true).setDexFile ⟨⟨by decide,by decide⟩,⟨⟨"b",by decide⟩,?_,?_⟩,?_,?_⟩)
  · intro isa hisa
    rcases List.mem_cons.1 (TextSet.contains_ofList.1 hisa) with rfl | hisa
    · decide
    · exact List.mem_singleton.1 hisa ▸ by decide
  · intro isa hisa
    rcases List.mem_cons.1 (TextSet.contains_ofList.1 hisa) with rfl | hisa
    · decide
    · exact List.mem_singleton.1 hisa ▸ by decide
  · intro isa hisa
    have hmem := TextSet.contains_ofList.1 hisa
    exact TextSet.contains_ofList.2 (by simpa [or_comm] using hmem)
  · intro isa hisa
    have hlast := TextSet.isLargest_iff.1 hisa
    rw [show TextMap.keys (TextSet.ofList ["arm\r","b"]) = (["arm\r","b"] : List Text) by decide] at hlast
    exact Option.some.inj hlast ▸ by decide

end Listing
end LoadLedger
