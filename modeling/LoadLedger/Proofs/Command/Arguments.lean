import LoadLedger.Command.Grammar
import LoadLedger.Proofs.TextPieces

/-! # Arguments of flags

A flag can be given any number of arguments, each behind an equals sign or in a word of its own. As
long as no name of a flag has an equals sign in it, every text behind one is an argument, whatever
it looks like. The arguments are taken in one after the other, and the first that the flag refuses
ends the parse. A positional that takes all that follows it takes every word, whatever it was marked as.
-/
namespace LoadLedger.Command

variable {σ : Type} {grammar : Grammar σ} {flag : Flag σ}

/-- Words that give arguments to a flag of the name. A word that begins with a dash is no argument
by itself. -/
inductive Gives (name : Text) : List Text → List Text → Prop
  | nothing : Gives name [] []
  | attached (argument : Text) {arguments words : List Text} (h : Gives name arguments words) :
    Gives name (argument :: arguments) ((name ++ CodePoint.equalsSign :: argument) :: words)
  | apart {argument : Text} (hargument : argument.head? ≠ some CodePoint.minusSign)
    {arguments words : List Text} (h : Gives name arguments words) :
    Gives name (argument :: arguments) (name :: argument :: words)

/-- A flag that a grammar finds by its name, in whose grammar no name has an equals sign in it. -/
structure Grammar.Knows (grammar : Grammar σ) (flag : Flag σ) : Prop where
  found : grammar.flags.find? (·.name = flag.name) = some flag
  dash : flag.name.head? = some CodePoint.minusSign
  shortHelp : flag.name ≠ shortHelp
  longHelp : flag.name ≠ longHelp
  separator : flag.name ≠ doubleDash
  plain : ∀ other ∈ grammar.flags, CodePoint.equalsSign ∉ other.name

theorem Grammar.Knows.plain_name (h : grammar.Knows flag) : CodePoint.equalsSign ∉ flag.name :=
  h.plain flag (List.mem_of_find?_eq_some h.found)

/-! ## Marks -/

theorem ne_of_equalsSign_mem {word other : Text} (hword : CodePoint.equalsSign ∈ word)
    (hother : CodePoint.equalsSign ∉ other) : word ≠ other := by
  rintro rfl
  exact hother hword

theorem named?_of_equalsSign_mem (h : ∀ flag ∈ grammar.flags, CodePoint.equalsSign ∉ flag.name)
    {word : Text} (hword : CodePoint.equalsSign ∈ word) (attached : Option Text) :
    grammar.named? word attached = none := by
  have hshort : word ≠ shortHelp := ne_of_equalsSign_mem hword (by decide)
  have hlong : word ≠ longHelp := ne_of_equalsSign_mem hword (by decide)
  rw [Grammar.named?,if_neg hshort,if_neg hlong,Option.map_eq_none_iff,List.find?_eq_none]
  intro flag hflag hname
  rw [decide_eq_true_eq] at hname
  exact h flag hflag (hname ▸ hword)

theorem Grammar.Knows.named?_eq (h : grammar.Knows flag) (attached : Option Text) :
    grammar.named? flag.name attached = some (.flag flag attached) := by
  rw [Grammar.named?,if_neg h.shortHelp,if_neg h.longHelp,h.found]
  rfl

theorem Grammar.Knows.markWord_attached (h : grammar.Knows flag) (argument : Text) :
    grammar.markWord (flag.name ++ CodePoint.equalsSign :: argument) =
      .ok (.flag flag (some argument)) := by
  have hmem : CodePoint.equalsSign ∈ flag.name ++ CodePoint.equalsSign :: argument := by simp
  have hhead : (flag.name ++ CodePoint.equalsSign :: argument).head? = some CodePoint.minusSign := by
    rw [List.head?_append,h.dash]
    rfl
  have hlength : (flag.name ++ CodePoint.equalsSign :: argument).length ≠ 1 := by
    obtain ⟨rest,hname⟩ := List.head?_eq_some_iff.1 h.dash
    simp [hname]
  rw [Grammar.markWord,if_pos hhead,Grammar.markDashed,named?_of_equalsSign_mem h.plain hmem]
  simp only [if_neg hlength,Text.cut_append_cons h.plain_name,Option.bind_some,h.named?_eq]

theorem Grammar.Knows.markWord_name (h : grammar.Knows flag) :
    grammar.markWord flag.name = .ok (.flag flag none) := by
  rw [Grammar.markWord,if_pos h.dash,Grammar.markDashed,h.named?_eq]

theorem markWord_of_head? {word : Text} (h : word.head? ≠ some CodePoint.minusSign) :
    grammar.markWord word = .ok .word := by
  rw [Grammar.markWord,if_neg h]

theorem ne_doubleDash {word : Text} (h : word.head? ≠ some CodePoint.minusSign) :
    word ≠ doubleDash := by
  rintro rfl
  exact h rfl

theorem markAll_cons {word : Text} {mark : Mark σ} (hword : word ≠ doubleDash)
    (hmark : grammar.markWord word = .ok mark) {words : List Text} {items : List (Text × Mark σ)}
    (hitems : grammar.markAll words = .ok items) :
    grammar.markAll (word :: words) = .ok ((word,mark) :: items) := by
  rw [Grammar.markAll,if_neg hword,hmark,hitems]
  rfl

theorem exists_markAll {words : List Text}
    (h : ∀ word ∈ words, ∃ mark, grammar.markWord word = .ok mark) :
    ∃ items, grammar.markAll words = .ok items ∧ items.map (·.1) = words := by
  induction words with
  | nil => exact ⟨[],rfl,rfl⟩
  | cons word words ih =>
    obtain ⟨⟨mark,hmark⟩,hrest⟩ := List.forall_mem_cons.1 h
    obtain ⟨items,hitems,hwords⟩ := ih hrest
    by_cases hword : word = doubleDash
    · refine ⟨(word,.separator) :: words.map (·,.word),?_,by simp [Function.comp_def]⟩
      rw [Grammar.markAll,if_pos hword]
    · exact ⟨_,markAll_cons hword hmark hitems,by simp [hwords]⟩

/-! ## Taking in -/

/-- The value after all arguments, unless the flag refuses one of them. -/
def giveAll (set : σ → Option Text → Except Text σ) (value : σ) (arguments : List Text) :
    Except Text σ :=
  arguments.foldlM (fun value argument => set value (argumentOf argument)) value

theorem giveAll_cons (set : σ → Option Text → Except Text σ) (value : σ) (argument : Text)
    (arguments : List Text) : giveAll set value (argument :: arguments) =
      (set value (argumentOf argument)) >>= fun value => giveAll set value arguments := by
  rw [giveAll,List.foldlM_cons]
  rfl

def Taken.given (taken : Taken σ) (flag : Flag σ) (count : Nat) (value : σ) : Taken σ :=
  { taken with value, seen := List.replicate count flag.name ++ taken.seen }

theorem Taken.given_given (taken : Taken σ) (count : Nat) (value after : σ) :
    (taken.given flag 1 value).given flag count after = taken.given flag (count + 1) after := by
  simp [given,List.replicate_succ']

/-- Words that give arguments to a flag, with other words behind them, are marked so that the arguments
are taken in from left to right and then the other words. -/
theorem Grammar.Knows.takeIn_gives (h : grammar.Knows flag)
    {set : σ → Option Text → Except Text σ} (hset : flag.meaning = .argument set)
    {arguments words : List Text} (hgives : Gives flag.name arguments words) :
    ∃ items,
      (∀ more marked, grammar.markAll more = .ok marked →
        grammar.markAll (words ++ more) = .ok (items ++ marked)) ∧
      ∀ taken marked, grammar.takeIn taken 0 (items ++ marked) =
        match giveAll set taken.value arguments with
        | .error message => grammar.refuse flag.name message
        | .ok value => grammar.takeIn (taken.given flag arguments.length value) 0 marked := by
  induction hgives with
  | nothing => exact ⟨[],fun _ _ hmore => hmore,fun taken marked => rfl⟩
  | @attached argument arguments words _ ih =>
    obtain ⟨items,hmark,htake⟩ := ih
    refine ⟨(flag.name ++ CodePoint.equalsSign :: argument,.flag flag (some argument)) :: items,
      fun more marked hmore => ?_,fun taken marked => ?_⟩
    · have hword : flag.name ++ CodePoint.equalsSign :: argument ≠ doubleDash :=
        ne_of_equalsSign_mem (by simp) (by decide)
      exact markAll_cons hword (h.markWord_attached argument) (hmark more marked hmore)
    · rw [List.cons_append,giveAll_cons]
      simp only [Grammar.takeIn,hset]
      cases hgive : set taken.value (argumentOf argument) with
      | error message => rfl
      | ok value =>
        change grammar.takeIn (taken.given flag 1 value) 0 (items ++ marked) = _
        rw [htake]
        simp only [Taken.given_given]
        rfl
  | @apart argument hargument arguments words _ ih =>
    obtain ⟨items,hmark,htake⟩ := ih
    refine ⟨(flag.name,.flag flag none) :: (argument,.word) :: items,fun more marked hmore => ?_,
      fun taken marked => ?_⟩
    · exact markAll_cons h.separator h.markWord_name
        (markAll_cons (ne_doubleDash hargument) (markWord_of_head? hargument)
          (hmark more marked hmore))
    · rw [List.cons_append,List.cons_append,giveAll_cons]
      simp only [Grammar.takeIn,hset,List.head?_cons]
      cases hgive : set taken.value (argumentOf argument) with
      | error message => rfl
      | ok value =>
        change grammar.takeIn (taken.given flag 1 value) 1 ((argument,.word) :: (items ++ marked)) = _
        rw [Grammar.takeIn,htake]
        simp only [Taken.given_given]
        rfl

theorem takeIn_skip (taken : Taken σ) (items : List (Text × Mark σ)) :
    grammar.takeIn taken items.length items = .ok taken := by
  induction items with
  | nil => rfl
  | cons item items ih =>
    rw [List.length_cons,Grammar.takeIn]
    exact ih

theorem takeIn_rest {positional : Positional σ} (hrest : positional.arity = .rest) {taken : Taken σ}
    (htaken : taken.positionals = [positional]) (word : Text) (items : List (Text × Mark σ)) :
    grammar.takeIn taken 0 ((word,.word) :: items) =
      (positional.take taken.value (word :: items.map (·.1))).map fun (value,deferred) =>
        { taken with value, positionals := [], deferred := taken.deferred ++ deferred } := by
  have hspan : Arity.rest.span? ((word,Mark.word) :: items) = some (items.length + 1) := rfl
  have hall : ((word,Mark.word) :: items).take (items.length + 1) = (word,Mark.word) :: items :=
    List.take_of_length_le (by simp)
  rw [Grammar.takeIn,htaken,Taken.fill]
  simp only [hrest,hspan,if_true,hall,List.map_cons]
  cases htake : positional.take taken.value (word :: items.map (·.1)) with
  | error stop => rfl
  | ok outcome =>
    obtain ⟨value,deferred⟩ := outcome
    exact takeIn_skip _ items

end LoadLedger.Command
