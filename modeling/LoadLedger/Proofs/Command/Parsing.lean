import LoadLedger.Command
import LoadLedger.Proofs.PlainNumerals

/-! # What a parse keeps

The value that a parse builds up is changed by flags and positionals of the grammar alone. So what
they all keep holds of whatever is parsed: the owner in the words of a load is void, or a number that
was read and can be written.
-/
namespace LoadLedger.Command

variable {σ : Type} {grammar : Grammar σ} {keeps : σ → Prop}

theorem bind_eq_ok {ε α β : Type} {x : Except ε α} {f : α → Except ε β} {b : β} :
    (x >>= f) = .ok b ↔ ∃ a, x = .ok a ∧ f a = .ok b := by
  cases x <;> simp [bind,Except.bind]

theorem map_eq_ok {ε α β : Type} {x : Except ε α} {f : α → β} {b : β} :
    x.map f = .ok b ↔ ∃ a, x = .ok a ∧ f a = b := by
  cases x <;> simp [Except.map]

def Flag.Keeps (keeps : σ → Prop) (flag : Flag σ) : Prop :=
  match flag.meaning with
  | .switch set => ∀ value, keeps value → keeps (set value)
  | .argument set =>
    ∀ value argument after, keeps value → set value argument = .ok after → keeps after

def Positional.Keeps (keeps : σ → Prop) (positional : Positional σ) : Prop :=
  ∀ value words after leftover, keeps value →
    positional.take value words = .ok (after,leftover) → keeps after

structure Grammar.Keeps (keeps : σ → Prop) (grammar : Grammar σ) : Prop where
  flags : ∀ flag ∈ grammar.flags, flag.Keeps keeps
  positionals : ∀ positional ∈ grammar.positionals, positional.Keeps keeps

theorem Grammar.Keeps.switch (h : grammar.Keeps keeps) {flag : Flag σ} (hflag : flag ∈ grammar.flags)
    {set : σ → σ} (hset : flag.meaning = .switch set) {value : σ} (hvalue : keeps value) :
    keeps (set value) := by
  have hkeeps := h.flags flag hflag
  rw [Flag.Keeps,hset] at hkeeps
  exact hkeeps value hvalue

theorem Grammar.Keeps.argument (h : grammar.Keeps keeps) {flag : Flag σ}
    (hflag : flag ∈ grammar.flags) {set : σ → Option Text → Except Text σ}
    (hset : flag.meaning = .argument set) {value after : σ} {argument : Option Text}
    (hvalue : keeps value) (hafter : set value argument = .ok after) : keeps after := by
  have hkeeps := h.flags flag hflag
  rw [Flag.Keeps,hset] at hkeeps
  exact hkeeps value argument after hvalue hafter

/-! ## Marks -/

def Mark.Belongs (grammar : Grammar σ) : Mark σ → Prop
  | .flag marked _ => marked ∈ grammar.flags
  | _ => True

theorem belongs_of_named? {name : Text} {attached : Option Text} {mark : Mark σ}
    (h : grammar.named? name attached = some mark) : mark.Belongs grammar := by
  unfold Grammar.named? at h
  split at h
  · obtain rfl := Option.some.inj h
    trivial
  · split at h
    · obtain rfl := Option.some.inj h
      trivial
    · obtain ⟨flag,hflag,rfl⟩ := Option.map_eq_some_iff.1 h
      exact List.mem_of_find?_eq_some hflag

theorem belongs_of_markDashed {word : Text} {mark : Mark σ}
    (h : grammar.markDashed word = .ok mark) : mark.Belongs grammar := by
  unfold Grammar.markDashed at h
  split at h
  · rename_i hnamed
    obtain rfl := Except.ok.inj h
    exact belongs_of_named? hnamed
  · split at h
    · obtain rfl := Except.ok.inj h
      trivial
    · simp only [] at h
      split at h
      · rename_i hnamed
        obtain rfl := Except.ok.inj h
        obtain ⟨argument,-,hargument⟩ := Option.bind_eq_some_iff.1 hnamed
        exact belongs_of_named? hargument
      · split at h
        · obtain rfl := Except.ok.inj h
          split <;> trivial
        · rename_i name attached _
          obtain rfl := Except.ok.inj h
          cases hnamed : grammar.named? name attached with
          | none => trivial
          | some mark => exact belongs_of_named? hnamed
        · cases h

theorem belongs_of_markAll {words : List Text} {items : List (Text × Mark σ)}
    (h : grammar.markAll words = .ok items) : ∀ item ∈ items, item.2.Belongs grammar := by
  induction words generalizing items with
  | nil =>
    obtain rfl := Except.ok.inj h
    simp
  | cons word words ih =>
    rw [Grammar.markAll] at h
    split at h
    · obtain rfl := Except.ok.inj h
      refine List.forall_mem_cons.2 ⟨trivial,fun item hitem => ?_⟩
      obtain ⟨_,-,rfl⟩ := List.mem_map.1 hitem
      trivial
    · obtain ⟨mark,hmark,h⟩ := bind_eq_ok.1 h
      obtain ⟨marks,hmarks,h⟩ := bind_eq_ok.1 h
      obtain rfl := Except.ok.inj h
      refine List.forall_mem_cons.2 ⟨?_,ih hmarks⟩
      unfold Grammar.markWord at hmark
      split at hmark
      · exact belongs_of_markDashed hmark
      · obtain rfl := Except.ok.inj hmark
        trivial

/-! ## Taking in -/

structure Taken.Keeps (keeps : σ → Prop) (taken : Taken σ) : Prop where
  value : keeps taken.value
  positionals : ∀ positional ∈ taken.positionals, positional.Keeps keeps

theorem Taken.Keeps.fill {positionals : List (Positional σ)} {taken filled : Taken σ}
    {items : List (Text × Mark σ)} {count : Nat} (h : keeps taken.value)
    (hpositionals : ∀ positional ∈ positionals, positional.Keeps keeps)
    (hfill : taken.fill items positionals = .ok (filled,count)) : filled.Keeps keeps := by
  induction positionals generalizing taken items filled count with
  | nil =>
    obtain ⟨rfl,-⟩ := Prod.mk.inj (Except.ok.inj hfill)
    exact ⟨h,by simp⟩
  | cons positional positionals ih =>
    obtain ⟨hfirst,hrest⟩ := List.forall_mem_cons.1 hpositionals
    rw [Taken.fill] at hfill
    split at hfill
    · obtain ⟨rfl,-⟩ := Prod.mk.inj (Except.ok.inj hfill)
      exact ⟨h,hpositionals⟩
    · obtain ⟨⟨value,deferred⟩,htake,hfill⟩ := bind_eq_ok.1 hfill
      obtain ⟨⟨taken',more⟩,hmore,hfill⟩ := bind_eq_ok.1 hfill
      obtain ⟨rfl,-⟩ := Prod.mk.inj (Except.ok.inj hfill)
      exact ih (hfirst _ _ _ _ h htake) hrest hmore

theorem Taken.Keeps.apply {taken applied : Taken σ} {flag : Flag σ} {result : Except Text σ}
    (h : taken.Keeps keeps) (hresult : ∀ value, result = .ok value → keeps value)
    (happly : grammar.apply taken flag result = .ok applied) : applied.Keeps keeps := by
  unfold Grammar.apply at happly
  split at happly
  · cases happly
  · obtain rfl := Except.ok.inj happly
    exact ⟨hresult _ rfl,h.positionals⟩

theorem Taken.Keeps.takeIn (hgrammar : grammar.Keeps keeps) {taken last : Taken σ} {skip : Nat}
    {items : List (Text × Mark σ)} (h : taken.Keeps keeps)
    (hitems : ∀ item ∈ items, item.2.Belongs grammar)
    (htake : grammar.takeIn taken skip items = .ok last) : last.Keeps keeps := by
  -- the cases are those of `takeIn`: what is skipped, then unknown words, help, flags and words
  induction taken, skip, items using Grammar.takeIn.induct with
  | case1 taken skip =>
    rw [Grammar.takeIn] at htake
    exact Except.ok.inj htake ▸ h
  | case2 taken word mark rest skip ih =>
    rw [Grammar.takeIn] at htake
    exact ih h (List.forall_mem_cons.1 hitems).2 htake
  | case3 taken word rest ih =>
    rw [Grammar.takeIn] at htake
    exact ih ⟨h.value,h.positionals⟩ (List.forall_mem_cons.1 hitems).2 htake
  | case4 taken word rest argument => cases htake
  | case5 taken word rest => cases htake
  | case6 taken word rest flag set hset ih =>
    obtain ⟨hflag,hrest⟩ := List.forall_mem_cons.1 hitems
    simp only [Grammar.takeIn,hset] at htake
    obtain ⟨applied,happly,htake⟩ := bind_eq_ok.1 htake
    refine ih applied (h.apply (fun value hvalue => ?_) happly) hrest htake
    exact Except.ok.inj hvalue ▸ hgrammar.switch hflag hset h.value
  | case7 taken word rest flag set argument hset =>
    simp only [Grammar.takeIn,hset] at htake
    cases htake
  | case8 taken word rest flag set argument hset ih =>
    obtain ⟨hflag,hrest⟩ := List.forall_mem_cons.1 hitems
    simp only [Grammar.takeIn,hset] at htake
    obtain ⟨applied,happly,htake⟩ := bind_eq_ok.1 htake
    exact ih applied (h.apply (fun _ => hgrammar.argument hflag hset h.value) happly) hrest htake
  | case9 taken word rest flag set argument hhead hset ih =>
    obtain ⟨hflag,hrest⟩ := List.forall_mem_cons.1 hitems
    simp only [Grammar.takeIn,hset,hhead] at htake
    obtain ⟨applied,happly,htake⟩ := bind_eq_ok.1 htake
    exact ih applied (h.apply (fun _ => hgrammar.argument hflag hset h.value) happly) hrest htake
  | case10 taken word rest flag set hset hhead =>
    simp only [Grammar.takeIn,hset] at htake
    cases htake
  | case11 taken word rest ihleft ihtaken | case12 taken word rest ihleft ihtaken =>
    rw [Grammar.takeIn] at htake
    obtain ⟨⟨filled,count⟩,hfill,htake⟩ := bind_eq_ok.1 htake
    have hfilled := Taken.Keeps.fill h.value h.positionals hfill
    have hrest := (List.forall_mem_cons.1 hitems).2
    simp only [] at htake
    split at htake
    · exact ihleft filled ⟨hfilled.value,hfilled.positionals⟩ hrest htake
    · exact ihtaken filled count hfilled hrest htake

/-- What all flags and positionals of a grammar keep holds of what is parsed. -/
theorem Grammar.Keeps.parse (h : grammar.Keeps keeps) {start value : σ} {words leftover : List Text}
    (hstart : keeps start) (hparse : grammar.parse start words = .ok (value,leftover)) :
    keeps value := by
  unfold Grammar.parse at hparse
  obtain ⟨items,hitems,hparse⟩ := bind_eq_ok.1 hparse
  obtain ⟨taken,htaken,hparse⟩ := bind_eq_ok.1 hparse
  have hkeeps : Taken.Keeps keeps { value := start, positionals := grammar.positionals } :=
    ⟨hstart,h.positionals⟩
  have hlast := hkeeps.takeIn h (belongs_of_markAll hitems) htaken
  split at hparse
  · obtain ⟨rfl,-⟩ := Prod.mk.inj (Except.ok.inj hparse)
    exact hlast.value
  · cases hparse

/-! ## The owner of a load -/

theorem readOwner_fits {text : Option Text} {owner : Owner} (h : readOwner text = .ok owner) :
    owner.fits = true := by
  unfold readOwner at h
  split at h
  · obtain rfl := Except.ok.inj h
    rfl
  · split at h
    · rename_i id hread
      obtain rfl := Except.ok.inj h
      exact Numeral.fits_iff.2 (Numeral.natAbs_lt_of_read? hread)
    · cases h

theorem recordGrammar_keeps : recordGrammar.Keeps fun words => words.owner.fits = true where
  flags := by
    intro flag hflag
    simp only [recordGrammar,List.mem_cons,List.not_mem_nil,or_false] at hflag
    rcases hflag with rfl | rfl | rfl | rfl
    · intro words user after _ hset
      obtain ⟨owner,howner,rfl⟩ := map_eq_ok.1 hset
      exact readOwner_fits howner
    · intro words isa after h hset
      obtain rfl := Except.ok.inj hset
      exact h
    · exact fun words h => h
    · exact fun words h => h
  positionals := by
    intro positional hpositional
    simp only [recordGrammar,List.mem_cons,List.not_mem_nil,or_false] at hpositional
    rcases hpositional with rfl | rfl
    · intro words taken after leftover h htake
      obtain ⟨rfl,-⟩ := Prod.mk.inj (Except.ok.inj htake)
      exact h
    · intro words taken after leftover h htake
      obtain ⟨rfl,-⟩ := Prod.mk.inj (Except.ok.inj htake)
      exact h

/-- A command whose words, if it records a load, name an owner that can be written. -/
def OwnerFits (command : Command) : Prop :=
  ∀ words, command = .record words → words.owner.fits = true

theorem ownerFits_of_mem_parsers {name : Text}
    {parse : List Text → Except Stop (Command × List Text)} (h : (name,parse) ∈ parsers)
    {words leftover : List Text} {command : Command} (hparse : parse words = .ok (command,leftover)) :
    OwnerFits command := by
  simp only [parsers,List.mem_cons,Prod.mk.injEq,List.not_mem_nil,or_false] at h
  rcases h with ⟨-,rfl⟩ | ⟨-,rfl⟩ | ⟨-,rfl⟩ | ⟨-,rfl⟩ | ⟨-,rfl⟩
  all_goals
    obtain ⟨⟨value,rest⟩,hvalue,hcommand⟩ := map_eq_ok.1 hparse
    obtain ⟨rfl,-⟩ := Prod.mk.inj hcommand
  · exact nofun
  · exact nofun
  · intro load hload
    obtain rfl := Command.record.inj hload
    exact recordGrammar_keeps.parse rfl hvalue
  · exact nofun
  · exact nofun

theorem grammar_keeps :
    Command.grammar.Keeps fun value => ∀ command, value.2 = some command → OwnerFits command where
  flags := by
    intro flag hflag
    obtain rfl := List.mem_singleton.1 hflag
    intro value file after h hset
    obtain rfl := Except.ok.inj hset
    exact h
  positionals := by
    intro positional hpositional
    obtain rfl := List.mem_singleton.1 hpositional
    intro value words after leftover h htake
    change takeCommand value words = _ at htake
    unfold takeCommand at htake
    split at htake
    · obtain ⟨rfl,-⟩ := Prod.mk.inj (Except.ok.inj htake)
      exact h
    · split at htake
      · cases htake
      · rename_i name words _ parse hlookup
        obtain ⟨⟨command,rest⟩,hparse,hvalue⟩ := map_eq_ok.1 htake
        obtain ⟨rfl,-⟩ := Prod.mk.inj hvalue
        obtain ⟨before,later,hparsers,-⟩ := List.lookup_eq_some_iff.1 hlookup
        have hmem : (name,parse) ∈ parsers := by simp [hparsers]
        intro command' hcommand
        obtain rfl := Option.some.inj hcommand
        exact ownerFits_of_mem_parsers hmem hparse

theorem ownerFits_of_parse {words : List Text} {request : Request} (h : parse words = .ok request) :
    OwnerFits request.command := by
  unfold parse at h
  obtain ⟨⟨⟨file,command⟩,leftover⟩,hparse,h⟩ := bind_eq_ok.1 h
  have hkeeps := grammar_keeps.parse (by exact nofun) hparse
  simp only [] at h
  split at h
  · obtain rfl := Except.ok.inj h
    exact hkeeps _ rfl
  · cases h
  · cases h

end LoadLedger.Command
