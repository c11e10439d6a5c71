import LoadLedger.Proofs.Command.Arguments
import LoadLedger.Proofs.Command.Parsing
import LoadLedger.Proofs.PlainNumerals
import LoadLedger.Proofs.TextMaps
import Mathlib.Data.List.TakeWhile

/-! # The options of a pruning

Each option names a package, in front of its first equals sign, and users for whom it is installed.
All options together list a package if one of them names it, for the users that its options tell, so
neither their order nor any repetition counts.
-/
namespace LoadLedger

/-! ## White space -/

namespace Text

theorem dropWhile_eq_nil_of_all {drop : CodePoint → Bool} {text : Text}
    (h : ∀ c ∈ text.dropWhile drop, drop c = true) : text.dropWhile drop = [] := by
  cases hdrop : text.dropWhile drop with
  | nil => rfl
  | cons c rest =>
    have hnot := List.head?_dropWhile_not drop text
    have hc := h c (by simp [hdrop])
    simp [hdrop,hc] at hnot

theorem strip_eq_nil_iff {text : Text} : text.strip = [] ↔ text.isBlank = true := by
  rw [strip,trim,trimEnd,List.reverse_eq_nil_iff,List.dropWhile_eq_nil_iff,isBlank,List.all_eq_true]
  simp only [List.mem_reverse]
  constructor
  · intro h
    exact List.dropWhile_eq_nil_iff.1 (dropWhile_eq_nil_of_all h)
  · intro h c hc
    exact h c ((List.dropWhile_sublist _).mem hc)

end Text

theorem Numeral.IsPlain.isBlank_eq_false {c : CodePoint} (h : IsPlain c) : c.isBlank = false := by
  have hval : 45 ≤ c.val ∧ c.val < 58 := by
    rcases h with rfl | h
    · exact ⟨by decide,by decide⟩
    · omega
  simp only [CodePoint.isBlank]
  grind

theorem Numeral.strip_ofInt_ne_nil (n : Int) : (ofInt n).strip ≠ [] := by
  rw [Ne,Text.strip_eq_nil_iff]
  obtain ⟨c,rest,hn⟩ := List.exists_cons_of_ne_nil (ofInt_ne_nil n)
  have hc : IsPlain c := isPlain_of_mem_ofInt (n := n) (hn ▸ List.mem_cons_self)
  simp [hn,Text.isBlank,hc.isBlank_eq_false]

namespace Command

/-! ## One option -/

/-- The package that a value names stands in front of its first equals sign, its users behind it. -/
structure Names (value package users : Text) : Prop where
  value_eq : value = package ++ CodePoint.equalsSign :: users
  first : CodePoint.equalsSign ∉ package

/-- A value can be taken if it names a package by at least one code point, and each piece between
commas is blank or a number. -/
def Acceptable (value : Text) : Prop :=
  ∃ package users, Names value package users ∧ package ≠ [] ∧
    ∀ piece ∈ users.split CodePoint.comma, piece.strip ≠ [] → ∃ id, Numeral.read? piece = some id

/-- A value tells that a package is installed for a user. -/
def Tells (value package : Text) (id : Int) : Prop :=
  ∃ users, Names value package users ∧
    ∃ piece ∈ users.split CodePoint.comma, piece.strip ≠ [] ∧ Numeral.read? piece = some id

theorem Names.cut {value package users : Text} (h : Names value package users) :
    value.cut CodePoint.equalsSign = (package,some users) := by
  rw [h.value_eq]
  exact Text.cut_append_cons h.first users

theorem Names.unique {value package users package' users' : Text} (h : Names value package users)
    (h' : Names value package' users') : package = package' ∧ users = users' := by
  have hcut := h.cut.symm.trans h'.cut
  exact ⟨(Prod.mk.inj hcut).1,Option.some.inj (Prod.mk.inj hcut).2⟩

theorem exists_mapM_iff {α β : Type} {f : α → Option β} {l : List α} :
    (∃ bs, l.mapM f = some bs) ↔ ∀ a ∈ l, ∃ b, f a = some b := by
  induction l with
  | nil => simp
  | cons a l ih =>
    rw [List.forall_mem_cons,← ih,List.mapM_cons]
    cases f a <;> cases l.mapM f <;> simp

theorem mem_of_mapM {α β : Type} {f : α → Option β} {l : List α} {bs : List β}
    (h : l.mapM f = some bs) {b : β} : b ∈ bs ↔ ∃ a ∈ l, f a = some b := by
  induction l generalizing bs with
  | nil =>
    obtain rfl : [] = bs := Option.some.inj h
    simp
  | cons a l ih =>
    rw [List.mapM_cons] at h
    obtain ⟨first,hfirst,h⟩ := Option.bind_eq_some_iff.1 h
    obtain ⟨rest,hrest,h⟩ := Option.bind_eq_some_iff.1 h
    obtain rfl : first :: rest = bs := Option.some.inj h
    simp only [List.mem_cons,exists_eq_or_imp,ih hrest,hfirst,Option.some.injEq,@eq_comm _ b]

/-- The pieces of a list of users that count. -/
def counted (users : Text) : List Text := (users.split CodePoint.comma).filter (!·.isBlank)

theorem mem_counted {users piece : Text} :
    piece ∈ counted users ↔ piece ∈ users.split CodePoint.comma ∧ piece.strip ≠ [] := by
  rw [counted,List.mem_filter,Bool.not_eq_true',← Bool.not_eq_true,← Text.strip_eq_nil_iff]

theorem readUsers_eq_ok_iff {value package : Text} {ids : List Int} :
    readUsers value = .ok (package,ids) ↔
      ∃ users, Names value package users ∧ package ≠ [] ∧
        (counted users).mapM Numeral.read? = some ids := by
  constructor
  · intro h
    by_cases hmem : CodePoint.equalsSign ∈ value
    · obtain ⟨name,users,hvalue,hfirst⟩ := List.eq_append_cons_of_mem hmem
      have hnames : Names value name users := ⟨hvalue,hfirst⟩
      rw [readUsers,hnames.cut] at h
      cases name with
      | nil => cases h
      | cons c name =>
        dsimp only at h
        split at h
        · cases h
        · rename_i found hfound
          obtain ⟨rfl,rfl⟩ := Prod.mk.inj (Except.ok.inj h)
          exact ⟨users,hnames,List.cons_ne_nil _ _,hfound⟩
    · rw [readUsers,Text.cut_of_notMem hmem] at h
      cases value <;> cases h
  · rintro ⟨users,hnames,hne,hids⟩
    obtain ⟨c,name,rfl⟩ := List.exists_cons_of_ne_nil hne
    rw [counted] at hids
    rw [readUsers,hnames.cut]
    simp only [hids]

theorem exists_readUsers_iff {value : Text} :
    (∃ package ids, readUsers value = .ok (package,ids)) ↔ Acceptable value := by
  simp only [readUsers_eq_ok_iff]
  constructor
  · rintro ⟨package,ids,users,hnames,hne,hids⟩
    refine ⟨package,users,hnames,hne,fun piece hpiece hcounts => ?_⟩
    exact exists_mapM_iff.1 ⟨ids,hids⟩ piece (mem_counted.2 ⟨hpiece,hcounts⟩)
  · rintro ⟨package,users,hnames,hne,hpieces⟩
    obtain ⟨ids,hids⟩ := exists_mapM_iff.2 fun piece (hpiece : piece ∈ counted users) =>
      hpieces piece (mem_counted.1 hpiece).1 (mem_counted.1 hpiece).2
    exact ⟨package,ids,users,hnames,hne,hids⟩

theorem mem_iff_tells {value package : Text} {ids : List Int}
    (h : readUsers value = .ok (package,ids)) {id : Int} : id ∈ ids ↔ Tells value package id := by
  obtain ⟨users,hnames,-,hids⟩ := readUsers_eq_ok_iff.1 h
  rw [mem_of_mapM hids]
  simp only [mem_counted,and_assoc]
  constructor
  · exact fun htells => ⟨users,hnames,htells⟩
  · rintro ⟨users',hnames',htells⟩
    obtain ⟨-,rfl⟩ := hnames.unique hnames'
    exact htells

/-! ## Several options -/

/-- What is installed if these options are given: the packages that they name, each for the users
that they tell. -/
structure ListedBy (installed : Installed) (values : List Text) : Prop where
  packages : ∀ package, installed.contains package = true ↔
    ∃ value ∈ values, ∃ users, Names value package users
  users : ∀ package ids, installed.find? package = some ids →
    ∀ id, id ∈ ids ↔ ∃ value ∈ values, Tells value package id

theorem listedBy_nil : ListedBy TextMap.empty [] where
  packages := by simp [TextMap.contains,TextMap.find?_empty]
  users := by simp [TextMap.find?_empty]

theorem ListedBy.tells_of_find?_eq_none {installed : Installed} {values : List Text}
    (h : ListedBy installed values) {package : Text} (hnone : installed.find? package = none)
    {id : Int} : ¬ ∃ value ∈ values, Tells value package id := by
  rintro ⟨value,hvalue,users,hnames,-⟩
  have hcontains := (h.packages package).2 ⟨value,hvalue,users,hnames⟩
  rw [TextMap.contains,hnone] at hcontains
  cases hcontains

theorem ListedBy.addUsers {installed : Installed} {values : List Text}
    (h : ListedBy installed values) {value package : Text} {ids : List Int}
    (hread : readUsers value = .ok (package,ids)) :
    ListedBy (installed.addUsers package ids) (values ++ [value]) := by
  obtain ⟨users,hnames,-,-⟩ := readUsers_eq_ok_iff.1 hread
  have hname : ∀ name, (∃ users, Names value name users) ↔ package = name := fun name =>
    ⟨fun ⟨_,hnames'⟩ => (hnames.unique hnames').1,fun hname => ⟨users,hname ▸ hnames⟩⟩
  constructor
  · intro name
    rw [Installed.addUsers,TextMap.contains_insert,Bool.or_eq_true,decide_eq_true_eq,h.packages]
    simp only [List.mem_append,List.mem_singleton,or_and_right,exists_or,exists_eq_left,hname]
    exact or_comm
  · intro name found hfound id
    simp only [List.mem_append,List.mem_singleton,or_and_right,exists_or,exists_eq_left]
    rw [Installed.addUsers,TextMap.find?_insert] at hfound
    split at hfound
    · rename_i heq
      subst heq
      obtain rfl := Option.some.inj hfound
      rw [List.mem_append,mem_iff_tells hread]
      cases hold : installed.find? package with
      | none => simp [h.tells_of_find?_eq_none hold]
      | some old => rw [Option.getD_some,h.users package old hold]
    · rename_i hne
      have hnot : ¬ Tells value name id := fun ⟨users',hnames',_⟩ =>
        hne ((hname name).1 ⟨users',hnames'⟩)
      rw [h.users name found hfound,or_iff_left hnot]

theorem takeOption_none {option : Option Text} {installed : Option Installed}
    (h : takeOption none option = .ok installed) : installed = none := by
  cases option with
  | none => exact (Except.ok.inj h).symm
  | some text =>
    obtain ⟨_,-,rfl⟩ := map_eq_ok.1 h
    rfl

theorem giveAll_takeOption_none (values : List Text) {installed : Option Installed}
    (h : giveAll takeOption none values = .ok installed) : installed = none := by
  induction values with
  | nil => exact (Except.ok.inj h).symm
  | cons value values ih =>
    rw [giveAll_cons] at h
    obtain ⟨next,hnext,h⟩ := bind_eq_ok.1 h
    exact ih (takeOption_none hnext ▸ h)

theorem giveAll_takeOption_cons {installed after : Installed} {value : Text} {values : List Text} :
    giveAll takeOption (some installed) (value :: values) = .ok (some after) ↔
      ∃ package ids, readUsers value = .ok (package,ids) ∧
        giveAll takeOption (some (installed.addUsers package ids)) values = .ok (some after) := by
  rw [giveAll_cons]
  by_cases hvoid : value = doubleDash
  · rw [argumentOf,if_pos hvoid]
    constructor
    · intro h
      cases giveAll_takeOption_none values h
    · rintro ⟨package,ids,hread,-⟩
      rw [hvoid] at hread
      cases hread
  · rw [argumentOf,if_neg hvoid,takeOption]
    cases readUsers value with
    | error message =>
      constructor
      · intro h
        cases h
      · rintro ⟨package,ids,hread,-⟩
        cases hread
    | ok read =>
      obtain ⟨package,ids⟩ := read
      constructor
      · exact fun h => ⟨package,ids,rfl,h⟩
      · rintro ⟨package,ids,hread,h⟩
        obtain ⟨rfl,rfl⟩ := Prod.mk.inj (Except.ok.inj hread)
        exact h

theorem exists_giveAll_takeOption_iff {values : List Text} {installed : Installed} :
    (∃ after, giveAll takeOption (some installed) values = .ok (some after)) ↔
      ∀ value ∈ values, Acceptable value := by
  induction values generalizing installed with
  | nil => simp [giveAll,pure,Except.pure]
  | cons value values ih =>
    simp only [giveAll_takeOption_cons]
    rw [List.forall_mem_cons,← exists_readUsers_iff]
    constructor
    · rintro ⟨after,package,ids,hread,h⟩
      exact ⟨⟨package,ids,hread⟩,ih.1 ⟨after,h⟩⟩
    · rintro ⟨⟨package,ids,hread⟩,hvalues⟩
      obtain ⟨after,h⟩ := ih.2 hvalues
      exact ⟨after,package,ids,hread,h⟩

theorem not_acceptable_doubleDash : ¬Acceptable doubleDash := by
  rw [← exists_readUsers_iff]
  rintro ⟨package,ids,hread⟩
  cases hread

theorem exists_takeOption_iff {value : Text} {installed : Option Installed} :
    (∃ after, takeOption installed (argumentOf value) = .ok after) ↔
      (value ≠ doubleDash → Acceptable value) := by
  by_cases hvoid : value = doubleDash
  · rw [argumentOf,if_pos hvoid]
    exact iff_of_true ⟨none,rfl⟩ fun hne => absurd hvoid hne
  · rw [argumentOf,if_neg hvoid,forall_prop_of_true hvoid,← exists_readUsers_iff]
    simp only [takeOption,map_eq_ok,Prod.exists]
    constructor
    · rintro ⟨after,package,ids,hread,-⟩
      exact ⟨package,ids,hread⟩
    · rintro ⟨package,ids,hread⟩
      exact ⟨_,package,ids,hread,rfl⟩

/-- No option is refused just if each can be taken or is void. -/
theorem exists_giveAll_iff {values : List Text} {installed : Option Installed} :
    (∃ after, giveAll takeOption installed values = .ok after) ↔
      ∀ value ∈ values, value ≠ doubleDash → Acceptable value := by
  induction values generalizing installed with
  | nil => simp [giveAll,pure,Except.pure]
  | cons value values ih =>
    rw [List.forall_mem_cons,← @exists_takeOption_iff value installed]
    simp only [giveAll_cons,bind_eq_ok]
    constructor
    · rintro ⟨after,next,hnext,h⟩
      exact ⟨⟨next,hnext⟩,ih.1 ⟨after,h⟩⟩
    · rintro ⟨⟨next,hnext⟩,hvalues⟩
      obtain ⟨after,h⟩ := ih.2 hvalues
      exact ⟨after,next,hnext,h⟩

theorem giveAll_takeOption_eq_none_iff {values : List Text} {installed : Installed} :
    giveAll takeOption (some installed) values = .ok none ↔
      doubleDash ∈ values ∧ ∀ value ∈ values, value ≠ doubleDash → Acceptable value := by
  constructor
  · intro h
    have hvalues := exists_giveAll_iff.1 ⟨none,h⟩
    refine ⟨?_,hvalues⟩
    by_contra hvoid
    obtain ⟨after,hafter⟩ := (@exists_giveAll_takeOption_iff values installed).2
      fun value hvalue => hvalues value hvalue fun heq => hvoid (heq ▸ hvalue)
    rw [h] at hafter
    cases hafter
  · rintro ⟨hvoid,hvalues⟩
    obtain ⟨after,h⟩ := (@exists_giveAll_iff values (some installed)).2 hvalues
    cases after with
    | none => exact h
    | some after =>
      exact absurd (exists_giveAll_takeOption_iff.1 ⟨after,h⟩ _ hvoid) not_acceptable_doubleDash

theorem ListedBy.giveAll {installed after : Installed} {before values : List Text}
    (h : ListedBy installed before)
    (hgive : giveAll takeOption (some installed) values = .ok (some after)) :
    ListedBy after (before ++ values) := by
  induction values generalizing installed before with
  | nil =>
    obtain rfl : installed = after := Option.some.inj (Except.ok.inj hgive)
    rwa [List.append_nil]
  | cons value values ih =>
    obtain ⟨package,ids,hread,hgive⟩ := giveAll_takeOption_cons.1 hgive
    rw [List.append_cons]
    exact ih (h.addUsers hread) hgive

end Command
end LoadLedger
