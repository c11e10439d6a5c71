import LoadLedger.Text.DecimalDigit
import LoadLedger.Text.Quoted

/-! # Grammars of command lines

A command line mixes flags, which begin with a dash, and positional words. First each word is
marked as one or the other; then flags take their arguments and positionals their words, from left
to right. A flag may be shortened as long as one flag fits, and its argument may follow an equals
sign. Behind a lone double dash every word is positional. A double dash that stands where an
argument should is void: the argument is given, but it is nothing. What nobody takes is left over.
-/
namespace LoadLedger.Command

/-- Why a command line does not come to a request. -/
inductive Stop
  | help
  | misuse (program message : Text)
  deriving DecidableEq

/-- What a flag does to the value that is built up. A void argument is none. -/
inductive Meaning (σ : Type)
  | switch (set : σ → σ)
  | argument (set : σ → Option Text → Except Text σ)

structure Flag (σ : Type) where
  name : Text
  required : Bool := false
  meaning : Meaning σ

/-- How many words a positional takes: one, at most one, or one and all that follow it. -/
inductive Arity
  | one
  | optional
  | rest
  deriving DecidableEq

/-- A positional gives back the value and the words it leaves over. One that takes a single word
gets none if that word is void. -/
structure Positional (σ : Type) where
  name : Text
  arity : Arity
  take : σ → List Text → Except Stop (σ × List Text)

/-- Every grammar has the flags `-h` and `--help` besides its own. -/
structure Grammar (σ : Type) where
  program : Text
  positionals : List (Positional σ) := []
  flags : List (Flag σ) := []

/-- What a word is. What is attached to a flag is its argument; what is attached to a flag for help
is in its way, unless it is the letter for help again. -/
inductive Mark (σ : Type)
  | word
  | separator
  | unknown
  | help (obstacle : Option Text)
  | flag (flag : Flag σ) (argument : Option Text)

def doubleDash : Text := "--"
def helpLetter : CodePoint := 104
def shortHelp : Text := [CodePoint.minusSign, helpLetter]
def longHelp : Text := "--help"

/-- A double dash as an argument is void. -/
def argumentOf (word : Text) : Option Text := if word = doubleDash then none else some word

/-- What is in the way of the short flag for help, if letters are attached to it: each letter for
help counts as the flag once more. -/
def behindHelp (attached : Text) : Option Text :=
  let rest := attached.dropWhile (· = helpLetter)
  if rest.isEmpty && !attached.isEmpty then none else some rest

/-- A minus sign before digits, with at most one point among them. -/
def isNegativeNumber (word : Text) : Bool :=
  let isDigit (c : CodePoint) : Bool := c.digit?.isSome
  match word with
  | [] => false
  | c :: rest =>
    let rest := if rest.getLast? = some CodePoint.lineFeed then rest.dropLast else rest
    let afterWhole := rest.dropWhile isDigit
    c = CodePoint.minusSign && match afterWhole with
      | [] => !rest.isEmpty
      | point :: fraction => point = CodePoint.point && !fraction.isEmpty && fraction.all isDigit

namespace Grammar
variable {σ : Type}

def named? (grammar : Grammar σ) (name : Text) (attached : Option Text) : Option (Mark σ) :=
  if name = shortHelp then some (.help (attached.bind behindHelp))
  else if name = longHelp then some (.help attached)
  else (grammar.flags.find? (·.name = name)).map (.flag · attached)

def names (grammar : Grammar σ) : List Text :=
  shortHelp :: longHelp :: grammar.flags.map (·.name)

/-- The flags a word may be short for, with what is attached to the word: what follows an equals
sign or, behind a single dash, what follows the letter. -/
def candidates (grammar : Grammar σ) (word : Text) : List (Text × Option Text) :=
  if word.startsWith doubleDash then
    let (start, attached) := word.cut CodePoint.equalsSign
    (grammar.names.filter fun name : Text => name.startsWith start).map (·, attached)
  else
    grammar.names.filterMap fun name : Text =>
      if name = word.take 2 then some (name, some (word.drop 2))
      else if name.startsWith word then some (name, none)
      else none

def markDashed (grammar : Grammar σ) (word : Text) : Except Stop (Mark σ) :=
  match grammar.named? word none with
  | some mark => .ok mark
  | none =>
    if word.length = 1 then .ok .word
    else
      let (name, argument) := word.cut CodePoint.equalsSign
      match argument.bind fun argument => grammar.named? name (some argument) with
      | some mark => .ok mark
      | none =>
        match grammar.candidates word with
        | [] =>
          .ok (if isNegativeNumber word || word.contains CodePoint.space then .word else .unknown)
        | [(name, attached)] => .ok ((grammar.named? name attached).getD .unknown)
        | several =>
          .error (.misuse grammar.program ("ambiguous option: " ++ word ++ " could match " ++
            Text.join ", " (several.map (·.1))))

def markWord (grammar : Grammar σ) (word : Text) : Except Stop (Mark σ) :=
  if word.head? = some CodePoint.minusSign then grammar.markDashed word else .ok .word

/-- Marks all words, before any of them takes effect. -/
def markAll (grammar : Grammar σ) : List Text → Except Stop (List (Text × Mark σ))
  | [] => .ok []
  | word :: words =>
    if word = doubleDash then .ok ((word, .separator) :: words.map (·, .word))
    else do
      let mark ← grammar.markWord word
      let marks ← markAll grammar words
      return (word, mark) :: marks

end Grammar

namespace Mark
variable {σ : Type}

def isWord : Mark σ → Bool
  | .word => true
  | _ => false

def isSeparator : Mark σ → Bool
  | .separator => true
  | _ => false

end Mark

def Arity.span? {σ : Type} (arity : Arity) (items : List (Text × Mark σ)) : Option Nat :=
  let leading := (items.takeWhile (·.2.isSeparator)).length
  let afterWord := items.drop (leading + 1)
  let trailing := (afterWord.takeWhile (·.2.isSeparator)).length
  let hasWord := ((items[leading]?).map (·.2.isWord)).getD false
  match arity with
  | .one => if hasWord then some (leading + 1 + trailing) else none
  | .optional => some (if hasWord then leading + 1 + trailing else leading)
  | .rest => if hasWord then some items.length else none

structure Taken (σ : Type) where
  value : σ
  positionals : List (Positional σ)
  seen : List Text := []
  leftover : List Text := []
  /-- What positionals left over, which comes last. -/
  deferred : List Text := []

/-- Gives as many words to positionals as fit, and tells how many. -/
def Taken.fill {σ : Type} (taken : Taken σ) (items : List (Text × Mark σ)) :
    List (Positional σ) → Except Stop (Taken σ × Nat)
  | [] => .ok ({ taken with positionals := [] }, 0)
  | positional :: positionals =>
    match positional.arity.span? items with
    | none => .ok ({ taken with positionals := positional :: positionals }, 0)
    | some count => do
      let words : List Text := (items.take count).map (·.1)
      let words := if positional.arity = .rest then words else words.erase doubleDash
      let (value, deferred) ← positional.take taken.value words
      let taken := { taken with value, deferred := taken.deferred ++ deferred }
      let (taken, more) ← fill taken (items.drop count) positionals
      return (taken, count + more)

namespace Grammar
variable {σ : Type}

def refuse {α : Type} (grammar : Grammar σ) (name message : Text) : Except Stop α :=
  .error (.misuse grammar.program ("argument " ++ name ++ ": " ++ message))

def ignoredArgument (argument : Text) : Text := "ignored explicit argument " ++ argument.quoted

def apply (grammar : Grammar σ) (taken : Taken σ) (flag : Flag σ) (result : Except Text σ) :
    Except Stop (Taken σ) :=
  match result with
  | .error message => grammar.refuse flag.name message
  | .ok value => .ok { taken with value, seen := flag.name :: taken.seen }

/-- Takes in marked words one after the other, past the first `skip` of them, which are taken
already. -/
def takeIn (grammar : Grammar σ) (taken : Taken σ) (skip : Nat) :
    List (Text × Mark σ) → Except Stop (Taken σ)
  | [] => .ok taken
  | (word, mark) :: rest =>
    match skip, mark with
    | skip + 1, _ => takeIn grammar taken skip rest
    | 0, .unknown => takeIn grammar { taken with leftover := taken.leftover ++ [word] } 0 rest
    | 0, .help (some argument) =>
      grammar.refuse (shortHelp ++ "/" ++ longHelp) (ignoredArgument argument)
    | 0, .help none => .error .help
    | 0, .flag flag argument =>
      match flag.meaning, argument, rest.head? with
      | .switch set, none, _ => do
        takeIn grammar (← grammar.apply taken flag (.ok (set taken.value))) 0 rest
      | .switch _, some argument, _ => grammar.refuse flag.name (ignoredArgument argument)
      | .argument set, some argument, _ => do
        let result := set taken.value (argumentOf argument)
        takeIn grammar (← grammar.apply taken flag result) 0 rest
      | .argument set, none, some (argument, .word) => do
        let result := set taken.value (argumentOf argument)
        takeIn grammar (← grammar.apply taken flag result) 1 rest
      | .argument _, none, _ => grammar.refuse flag.name "expected one argument"
    | 0, .word | 0, .separator => do
      let (filled, count) ← taken.fill ((word, mark) :: rest) taken.positionals
      if count = 0 then
        takeIn grammar { filled with leftover := filled.leftover ++ [word] } 0 rest
      else takeIn grammar filled (count - 1) rest

def missing (grammar : Grammar σ) (taken : Taken σ) : List Text :=
  ((taken.positionals.filter (·.arity ≠ .optional)).map (·.name)) ++
    (grammar.flags.filter fun flag => flag.required && !taken.seen.contains flag.name).map (·.name)

def parse (grammar : Grammar σ) (start : σ) (words : List Text) :
    Except Stop (σ × List Text) := do
  let items ← grammar.markAll words
  let taken ← grammar.takeIn { value := start, positionals := grammar.positionals } 0 items
  match grammar.missing taken with
  | [] => return (taken.value, taken.leftover ++ taken.deferred)
  | missing =>
    .error (.misuse grammar.program
      ("the following arguments are required: " ++ Text.join ", " missing))

end Grammar
end LoadLedger.Command
