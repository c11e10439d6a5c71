import LoadLedger.Command.Run
import LoadLedger.Proofs.FileTree.Entries

/-! # The file that a request names

A text spells a path name: slashes at its beginning stand for the root, and between the slashes behind
them are the parts, of which empty ones and single dots do not count. Every text spells exactly one
path name, and the text of a path name spells it. So the directory and the name into which the file of
a request is taken apart come to the same path again.
-/
namespace LoadLedger

def PathRoot.ofSlashes (slashes : Nat) : PathRoot :=
  if slashes = 0 then .relative else if slashes = 2 then .doubleSlash else .slash

namespace PathName

/-- A text of so many slashes, with pieces between further slashes behind them. -/
structure SpelledAs (path : PathName) (slashes : Nat) (pieces : List Text) (text : Text) : Prop where
  text_eq : text = List.replicate slashes CodePoint.slash ++ Text.join [CodePoint.slash] pieces
  first : (Text.join [CodePoint.slash] pieces).head? ≠ some CodePoint.slash
  slashless : ∀ piece ∈ pieces, CodePoint.slash ∉ piece
  root : path.root = .ofSlashes slashes
  parts : path.parts = pieces.filter fun piece => piece ≠ [] ∧ piece ≠ dot

def SpelledBy (path : PathName) (text : Text) : Prop :=
  ∃ slashes pieces, path.SpelledAs slashes pieces text

/-! ## Each text spells one path name -/

theorem rootOf_eq (text : Text) :
    rootOf text = .ofSlashes (text.takeWhile (· = CodePoint.slash)).length := by
  unfold rootOf PathRoot.ofSlashes
  split <;> simp_all

theorem partsOf_eq_filter (text : Text) : partsOf text =
    (text.split CodePoint.slash).filter fun piece => piece ≠ [] ∧ piece ≠ dot := by
  refine List.filter_congr fun piece _ => ?_
  rw [Bool.eq_iff_iff]
  simp

theorem partsOf_replicate_append (slashes : Nat) (rest : Text) :
    partsOf (List.replicate slashes CodePoint.slash ++ rest) = partsOf rest := by
  induction slashes with
  | zero => rfl
  | succ slashes ih =>
    rw [← ih,List.replicate_succ,List.cons_append,partsOf,Text.split_cons,if_pos rfl]
    rfl

theorem takeWhile_replicate_append (slashes : Nat) {rest : Text}
    (hrest : rest.head? ≠ some CodePoint.slash) :
    (List.replicate slashes CodePoint.slash ++ rest).takeWhile (· = CodePoint.slash) =
      List.replicate slashes CodePoint.slash := by
  have hnone : rest.takeWhile (· = CodePoint.slash) = [] := by
    cases rest with
    | nil => rfl
    | cons c rest =>
      have hc : c ≠ CodePoint.slash := by simpa using hrest
      simp [hc]
  rw [List.takeWhile_append_of_pos (by simp),hnone,List.append_nil]

theorem spelledBy_ofText (text : Text) : (ofText text).SpelledBy text := by
  let rest := text.dropWhile (· = CodePoint.slash)
  let slashes := (text.takeWhile (· = CodePoint.slash)).length
  have hslashes : text.takeWhile (· = CodePoint.slash) = List.replicate slashes CodePoint.slash :=
    List.eq_replicate_of_mem fun c hc => by
      simpa using List.all_eq_true.1 (List.all_takeWhile (l := text)) c hc
  have htext : text = List.replicate slashes CodePoint.slash ++ rest := by
    rw [← hslashes]
    exact List.takeWhile_append_dropWhile.symm
  have hfirst : rest.head? ≠ some CodePoint.slash := by
    intro hhead
    have hnot := List.head?_dropWhile_not (· = CodePoint.slash) text
    rw [hhead] at hnot
    simp at hnot
  refine ⟨slashes,Text.split CodePoint.slash rest,?_,?_,?_,rootOf_eq text,?_⟩
  · rw [Text.join_split]
    exact htext
  · rwa [Text.join_split]
  · exact fun piece hpiece => Text.notMem_of_mem_split hpiece
  · rw [← partsOf_eq_filter,ofText]
    calc partsOf text = partsOf (List.replicate slashes CodePoint.slash ++ rest) :=
          congrArg partsOf htext
      _ = partsOf rest := partsOf_replicate_append slashes rest

theorem SpelledBy.eq_ofText {path : PathName} {text : Text} (h : path.SpelledBy text) :
    path = ofText text := by
  obtain ⟨slashes,pieces,htext,hfirst,hslashless,hroot,hparts⟩ := h
  have hlength : (text.takeWhile (· = CodePoint.slash)).length = slashes := by
    rw [htext,takeWhile_replicate_append slashes hfirst,List.length_replicate]
  have hroot' : path.root = rootOf text := by rw [hroot,rootOf_eq,hlength]
  have hparts' : path.parts = partsOf text := by
    rw [htext,partsOf_replicate_append,partsOf_eq_filter,hparts]
    cases pieces with
    | nil => rfl
    | cons piece pieces => rw [Text.split_join hslashless (by simp)]
  obtain ⟨root,parts⟩ := path
  obtain rfl : root = rootOf text := hroot'
  obtain rfl : parts = partsOf text := hparts'
  rfl

theorem spelledBy_iff {path : PathName} {text : Text} : path.SpelledBy text ↔ path = ofText text :=
  ⟨SpelledBy.eq_ofText,fun h => h ▸ spelledBy_ofText text⟩

/-! ## Taking a path name apart -/

/-- The parts of a path name count if it is proper and has no single dots. -/
structure Counts (path : PathName) : Prop where
  proper : path.Proper
  dotless : dot ∉ path.parts

theorem counts_ofText (text : Text) : (ofText text).Counts := by
  refine ⟨proper_ofText text,fun hdot => ?_⟩
  have hkept := (List.mem_filter.1 hdot).2
  simp at hkept

theorem Counts.parent {path : PathName} (h : path.Counts) : path.parent.Counts where
  proper := fun part hpart => h.proper part ((List.dropLast_sublist _).mem hpart)
  dotless := fun hdot => h.dotless ((List.dropLast_sublist _).mem hdot)

theorem Counts.ofText_text {path : PathName} (h : path.Counts) : ofText path.text = path := by
  obtain ⟨root,parts⟩ := path
  have hfirst : (Text.join [CodePoint.slash] parts).head? ≠ some CodePoint.slash := by
    cases parts with
    | nil => simp [Text.join]
    | cons part parts =>
      obtain ⟨hne,hslash⟩ := h.proper part List.mem_cons_self
      obtain ⟨c,rest,rfl⟩ := List.exists_cons_of_ne_nil hne
      have hc : c ≠ CodePoint.slash := fun hc => hslash (hc ▸ List.mem_cons_self)
      cases parts with
      | nil => simpa using hc
      | cons next parts => simpa [Text.join_cons] using hc
  have hslashless : ∀ part ∈ parts, CodePoint.slash ∉ part := fun part hpart => (h.proper part hpart).2
  have hparts : parts = parts.filter fun part => part ≠ [] ∧ part ≠ dot := by
    refine (List.filter_eq_self.2 fun part hpart => ?_).symm
    have hdot : part ≠ dot := fun heq => h.dotless (heq ▸ hpart)
    simpa using ⟨(h.proper part hpart).1,hdot⟩
  refine (SpelledBy.eq_ofText ?_).symm
  cases root with
  | relative =>
    by_cases hnil : parts = []
    · subst hnil
      exact ⟨0,[dot],rfl,by decide,by decide,rfl,rfl⟩
    · exact ⟨0,parts,by simp [text,hnil,PathRoot.text]; rfl,hfirst,hslashless,rfl,hparts⟩
  | slash => exact ⟨1,parts,rfl,hfirst,hslashless,rfl,hparts⟩
  | doubleSlash => exact ⟨2,parts,rfl,hfirst,hslashless,rfl,hparts⟩

theorem Counts.parent_append_name {path : PathName} (h : path.Counts) :
    path.parent.append (ofText path.name) = path := by
  obtain ⟨root,parts⟩ := path
  rcases List.eq_nil_or_concat parts with rfl | ⟨front,last,rfl⟩
  · rfl
  · have hlast : last ∈ front.concat last := by simp
    have hcounts : Counts ⟨.relative,[last]⟩ :=
      ⟨fun part hpart => List.mem_singleton.1 hpart ▸ h.proper last hlast,
        fun hdot => h.dotless (List.mem_singleton.1 hdot ▸ hlast)⟩
    have hname : ofText last = ⟨.relative,[last]⟩ := hcounts.ofText_text
    simp [name,hname,append,PathName.parent]

end PathName

namespace Command

/-- The file that a request names is the file of the settings that are made for it: the path that its
text spells, whatever file there was in the settings. All else in the settings stays, and so does all
else about the store. -/
theorem settingsFor_addresses (settings : Settings) {file : Text} (hfile : file ≠ []) :
    let chosen := settingsFor (some file) settings
    chosen.filePath = PathName.ofText file ∧
    (∀ path : PathName, path.SpelledBy file ↔ path = chosen.filePath) ∧
    chosen.delay = settings.delay ∧ chosen.abis = settings.abis ∧
    chosen.level = settings.level ∧ chosen.logFile = settings.logFile ∧
    Store.ofSettings chosen =
      (Store.ofSettings settings).map fun store => { store with path := .ofText file } := by
  obtain ⟨c,rest,rfl⟩ := List.exists_cons_of_ne_nil hfile
  intro chosen
  let path := PathName.ofText (c :: rest)
  have hcounts : path.Counts := PathName.counts_ofText (c :: rest)
  have hpath : chosen.filePath = path := by
    change (PathName.ofText path.parent.text).append (PathName.ofText path.name) = path
    rw [hcounts.parent.ofText_text,hcounts.parent_append_name]
  refine ⟨hpath,fun other => ?_,rfl,rfl,rfl,rfl,?_⟩
  · rw [hpath]
    exact PathName.spelledBy_iff
  · rw [Store.ofSettings,Store.ofSettings,hpath]
    change (Vocabulary.ofAbis settings.abis).map _ = _
    cases Vocabulary.ofAbis settings.abis <;> rfl

/-- The text spells the directory above `a` at the root of two slashes, and replaces another path. -/
theorem settingsFor_addresses_above :
    let settings : Settings :=
      { directory := "data/system/", fileName := "list", delay := .ofRatio false 10 1
        abis := ["arm64-v8a"], level := "INFO", logFile := none }
    let file : Text := "//a/.//..//"
    file ≠ [] ∧ settings.filePath = ⟨.relative,["data","system","list"]⟩ ∧
    (settingsFor (some file) settings).filePath = ⟨.doubleSlash,["a",".."]⟩ ∧
    PathName.SpelledBy ⟨.doubleSlash,["a",".."]⟩ file := by
  intro settings file
  have hfile : file ≠ [] := by decide
  obtain ⟨hpath,hspelled,-⟩ := settingsFor_addresses settings hfile
  have habove : PathName.ofText file = ⟨.doubleSlash,["a",".."]⟩ := by decide
  rw [habove] at hpath
  exact ⟨hfile,by decide,hpath,(hspelled _).2 hpath.symm⟩

end Command
end LoadLedger
