import LoadLedger.Proofs.Command.Options
import LoadLedger.Proofs.Command.Running
import LoadLedger.Proofs.Ledger.Pruning

/-! # Pruning from the command line

A command line that asks for a pruning comes to the mapping that its options list. A pruning looks
at nothing but which packages are installed for which users. However what is installed is written as
options, the run therefore prunes as if it had been told so directly.
-/
namespace LoadLedger

/-- What a pruning looks at is the same. -/
structure Installed.Alike (installed other : Installed) : Prop where
  contains : ∀ name, installed.contains name = other.contains name
  admits : ∀ name owner, installed.admits name owner = other.admits name owner

theorem Ledger.pruned_congr {installed other : Installed} (h : installed.Alike other)
    (ledger : Ledger) : ledger.pruned installed = ledger.pruned other := by
  have hpackages : (ledger.pruned installed).packages = (ledger.pruned other).packages := by
    rw [packages_pruned,packages_pruned,vanished,vanished,prune_congr h.contains h.admits]
  have hdexFiles : (ledger.pruned installed).dexFiles = (ledger.pruned other).dexFiles := by
    rw [dexFiles_pruned,dexFiles_pruned]
    simp only [stranded,strandedIn,h.contains,h.admits]
  cases hinstalled : ledger.pruned installed
  cases hother : ledger.pruned other
  simp_all

theorem Store.prune_congr {installed other : Installed} (h : installed.Alike other)
    (store : Store) : store.prune installed = store.prune other := by
  have hledger : store.ledger.prune installed = store.ledger.prune other :=
    Ledger.prune_congr h.contains h.admits
  rw [Store.prune,Store.prune,hledger,Ledger.pruned_congr h]

namespace Command

theorem ListedBy.admits_iff {installed : Installed} {values : List Text}
    (h : ListedBy installed values) {package : Text} {id : Int} :
    installed.admits package (.user id) = true ↔ ∃ value ∈ values, Tells value package id := by
  rw [Installed.admits]
  cases hfound : installed.find? package with
  | none => simpa using h.tells_of_find?_eq_none hfound
  | some ids =>
    rw [← h.users package ids hfound]
    simp [Owner.isAmong]

/-- Neither the order of the options counts, nor how often one is given. -/
theorem ListedBy.alike {installed other : Installed} {values values' : List Text}
    (h : ListedBy installed values) (h' : ListedBy other values')
    (hsame : ∀ value, value ∈ values ↔ value ∈ values') : installed.Alike other := by
  have hcontains : ∀ name, installed.contains name = other.contains name := by
    intro name
    rw [Bool.eq_iff_iff,h.packages,h'.packages]
    simp only [hsame]
  refine ⟨hcontains,fun name owner => ?_⟩
  cases owner with
  | user id =>
    rw [Bool.eq_iff_iff,h.admits_iff,h'.admits_iff]
    simp only [hsame]
  | noOne =>
    unfold Installed.admits
    cases installed.find? name <;> cases other.find? name <;> simp [Owner.isAmong]

/-! ## The command line -/

theorem knows_packageFlag : syncGrammar.Knows packageFlag where
  found := rfl
  dash := rfl
  shortHelp := by decide
  longHelp := by decide
  separator := by decide
  plain := fun other hother => by
    obtain rfl := List.mem_singleton.1 hother
    decide

theorem knows_fileFlag : grammar.Knows fileFlag where
  found := rfl
  dash := rfl
  shortHelp := by decide
  longHelp := by decide
  separator := by decide
  plain := fun other hother => by
    obtain rfl := List.mem_singleton.1 hother
    decide

theorem parse_syncGrammar {values words : List Text} (h : Gives "--package" values words)
    (start : Option Installed) :
    syncGrammar.parse start words =
      match giveAll takeOption start values with
      | .error message => syncGrammar.refuse "--package" message
      | .ok installed => .ok (installed,[]) := by
  obtain ⟨items,hmark,htake⟩ := knows_packageFlag.takeIn_gives rfl h
  have hitems : syncGrammar.markAll words = .ok items := by
    simpa using hmark [] [] rfl
  have htaken := htake { value := start, positionals := syncGrammar.positionals } []
  rw [List.append_nil] at htaken
  rw [Grammar.parse,hitems]
  change syncGrammar.takeIn _ 0 items >>= _ = _
  rw [htaken]
  cases giveAll takeOption start values with
  | error message => rfl
  | ok installed => rfl

theorem giveAll_takeFile (files : List Text) (file : Option Text) (command : Option Command) :
    giveAll takeFile (file,command) files =
      .ok ((files.getLast?.map argumentOf).getD file,command) := by
  induction files generalizing file with
  | nil => rfl
  | cons next files ih =>
    rw [giveAll_cons]
    change giveAll takeFile (argumentOf next,command) files = _
    rw [ih,List.getLast?_cons]
    cases files.getLast? <;> rfl

theorem exists_mark_of_gives {values words : List Text} (h : Gives "--package" values words) :
    ∀ word ∈ words, ∃ mark, grammar.markWord word = .ok mark := by
  induction h with
  | nothing => simp
  | attached value _ ih => exact List.forall_mem_cons.2 ⟨⟨_,rfl⟩,ih⟩
  | apart hvalue _ ih =>
    have hmark : ∃ mark, grammar.markWord _ = .ok mark := ⟨_,markWord_of_head? hvalue⟩
    exact List.forall_mem_cons.2 ⟨⟨_,rfl⟩,List.forall_mem_cons.2 ⟨hmark,ih⟩⟩

theorem takeCommand_sync {values words : List Text} (h : Gives "--package" values words)
    (partialRequest : PartialRequest) :
    takeCommand partialRequest ("sync" :: words) =
      match giveAll takeOption (some TextMap.empty) values with
      | .error message => syncGrammar.refuse "--package" message
      | .ok installed => .ok ((partialRequest.1,some (.sync installed)),[]) := by
  change (parseAs syncGrammar (some TextMap.empty) .sync words).map _ = _
  rw [parseAs,parse_syncGrammar h]
  cases giveAll takeOption (some TextMap.empty) values with
  | error message => rfl
  | ok installed => rfl

/-- A command line that asks for a pruning, with the file that it names last and the values of its
options. -/
inductive AsksSync : List Text → Option Text → List Text → Prop
  | intro {files fileWords values words : List Text} (hfiles : Gives "--file" files fileWords)
    (hvalues : Gives "--package" values words) :
    AsksSync (fileWords ++ ("sync" : Text) :: words) (files.getLast?.bind argumentOf) values

theorem AsksSync.parse {line values : List Text} {file : Option Text}
    (h : AsksSync line file values) : parse line =
      match giveAll takeOption (some TextMap.empty) values with
      | .error message => syncGrammar.refuse "--package" message
      | .ok installed => .ok ⟨file,.sync installed⟩ := by
  cases h with
  | @intro files fileWords _ words hfiles hvalues =>
    obtain ⟨marked,hmarked,hwords⟩ := exists_markAll (exists_mark_of_gives hvalues)
    obtain ⟨items,hmark,htake⟩ := knows_fileFlag.takeIn_gives rfl hfiles
    have hsync : ("sync" : Text) ≠ doubleDash := by decide
    have hitems := hmark _ _ (markAll_cons hsync rfl hmarked)
    have htaken := htake { value := (none,none), positionals := grammar.positionals }
      (("sync",.word) :: marked)
    rw [giveAll_takeFile] at htaken
    dsimp only at htaken
    rw [takeIn_rest rfl rfl,hwords] at htaken
    change _ = (takeCommand (_,_) ("sync" :: words)).map _ at htaken
    rw [takeCommand_sync hvalues] at htaken
    rw [Command.parse,Grammar.parse,hitems]
    change (grammar.takeIn _ 0 _ >>= _) >>= _ = _
    rw [htaken]
    cases giveAll takeOption (some TextMap.empty) values with
    | error message => rfl
    | ok installed =>
      cases files.getLast? <;> rfl

theorem AsksSync.exists_listedBy {line values : List Text} {file : Option Text}
    (h : AsksSync line file values) (hacceptable : ∀ value ∈ values, Acceptable value) :
    ∃ installed, Command.parse line = .ok ⟨file,.sync (some installed)⟩ ∧
      ListedBy installed values := by
  obtain ⟨installed,hgive⟩ := exists_giveAll_takeOption_iff.2 hacceptable
  refine ⟨installed,?_,listedBy_nil.giveAll hgive⟩
  rw [h.parse,hgive]

/-! ## Writing options -/

/-- What may stand between commas: white space, or a user in plain form. -/
inductive Piece
  | blank (space : Text)
  | user (id : Int)

def Piece.text : Piece → Text
  | blank space => space
  | user id => Numeral.ofInt id

/-- Only white space is blank, and users have no more digits than can be read. -/
def Piece.Sound : Piece → Prop
  | blank space => space.strip = []
  | user id => id.natAbs < 10 ^ Numeral.digitLimit

theorem Piece.Sound.comma_notMem {piece : Piece} (h : piece.Sound) :
    CodePoint.comma ∉ piece.text := by
  intro hmem
  cases piece with
  | blank space =>
    have hblank := List.all_eq_true.1 (Text.strip_eq_nil_iff.1 h) _ hmem
    exact absurd hblank (by decide)
  | user id => exact (Numeral.isPlain_of_mem_ofInt hmem).ne (by decide) rfl

theorem Piece.Sound.read {piece : Piece} (h : piece.Sound) (hcounts : piece.text.strip ≠ []) :
    ∃ id, Numeral.read? piece.text = some id := by
  cases piece with
  | blank space => exact absurd h hcounts
  | user id => exact ⟨id,Numeral.read?_ofInt h⟩

theorem Piece.Sound.read_iff {piece : Piece} (h : piece.Sound) {id : Int} :
    piece.text.strip ≠ [] ∧ Numeral.read? piece.text = some id ↔ piece = .user id := by
  cases piece with
  | blank space =>
    have hnot : ¬ (blank space).text.strip ≠ [] := not_not.2 h
    simp [hnot]
  | user other =>
    have hread : Numeral.read? (user other).text = some other := Numeral.read?_ofInt h
    have hcounts : (user other).text.strip ≠ [] := Numeral.strip_ofInt_ne_nil other
    simp [hread,hcounts]

structure WrittenOption where
  package : Text
  pieces : List Piece

namespace WrittenOption

def users (option : WrittenOption) : Text :=
  Text.join [CodePoint.comma] (option.pieces.map Piece.text)

def text (option : WrittenOption) : Text :=
  option.package ++ CodePoint.equalsSign :: option.users

structure Sound (option : WrittenOption) : Prop where
  named : option.package ≠ []
  plain : CodePoint.equalsSign ∉ option.package
  pieces : ∀ piece ∈ option.pieces, piece.Sound

variable {option : WrittenOption}

theorem Sound.names (h : option.Sound) : Names option.text option.package option.users :=
  ⟨rfl,h.plain⟩

theorem Sound.mem_split (h : option.Sound) {text : Text} (hcounts : text.strip ≠ []) :
    text ∈ option.users.split CodePoint.comma ↔ ∃ piece ∈ option.pieces, piece.text = text := by
  rw [users,← List.mem_map]
  by_cases hpieces : option.pieces.map Piece.text = []
  · have hne : text ≠ [] := by
      rintro rfl
      exact hcounts rfl
    simp [hpieces,Text.join,hne]
  · have hcomma : ∀ text ∈ option.pieces.map Piece.text, CodePoint.comma ∉ text := by
      intro text htext
      obtain ⟨piece,hpiece,rfl⟩ := List.mem_map.1 htext
      exact (h.pieces piece hpiece).comma_notMem
    rw [Text.split_join hcomma hpieces]

theorem Sound.acceptable (h : option.Sound) : Acceptable option.text := by
  refine ⟨_,_,h.names,h.named,fun text htext hcounts => ?_⟩
  obtain ⟨piece,hpiece,rfl⟩ := (h.mem_split hcounts).1 htext
  exact (h.pieces piece hpiece).read hcounts

theorem Sound.tells_iff (h : option.Sound) {package : Text} {id : Int} :
    Tells option.text package id ↔ option.package = package ∧ .user id ∈ option.pieces := by
  constructor
  · rintro ⟨users,hnames,text,htext,hcounts,hread⟩
    obtain ⟨rfl,rfl⟩ := h.names.unique hnames
    obtain ⟨piece,hpiece,rfl⟩ := (h.mem_split hcounts).1 htext
    obtain rfl := (h.pieces piece hpiece).read_iff.1 ⟨hcounts,hread⟩
    exact ⟨rfl,hpiece⟩
  · rintro ⟨rfl,hpiece⟩
    obtain ⟨hcounts,hread⟩ := (h.pieces _ hpiece).read_iff.2 rfl
    exact ⟨_,h.names,_,(h.mem_split hcounts).2 ⟨_,hpiece,rfl⟩,hcounts,hread⟩

end WrittenOption

/-- What options can say: packages have names without an equals sign, and users are numbers that can
be read. -/
structure Expressible (installed : Installed) : Prop where
  names : ∀ package, installed.contains package = true →
    package ≠ [] ∧ CodePoint.equalsSign ∉ package
  users : ∀ package ids, installed.find? package = some ids → ∀ id ∈ ids, id.natAbs < 10 ^ 4300

/-- Options that write down what is installed: at least one for each package, which may be in
several of them, and each user of a package in one of its options at least. -/
structure Writes (options : List WrittenOption) (installed : Installed) : Prop where
  packages : ∀ package, installed.contains package = true ↔
    ∃ option ∈ options, option.package = package
  users : ∀ package ids, installed.find? package = some ids →
    ∀ id, id ∈ ids ↔ ∃ option ∈ options, option.package = package ∧ .user id ∈ option.pieces
  blank : ∀ option ∈ options, ∀ space, .blank space ∈ option.pieces → space.strip = []

theorem Writes.sound {options : List WrittenOption} {installed : Installed}
    (h : Writes options installed) (hexpressible : Expressible installed) :
    ∀ option ∈ options, option.Sound := by
  intro option hoption
  have hcontains := (h.packages option.package).2 ⟨option,hoption,rfl⟩
  obtain ⟨hnamed,hplain⟩ := hexpressible.names _ hcontains
  refine ⟨hnamed,hplain,fun piece hpiece => ?_⟩
  cases piece with
  | blank space => exact h.blank option hoption space hpiece
  | user id =>
    obtain ⟨ids,hfound⟩ := TextMap.contains_iff.1 hcontains
    have hid := (h.users _ ids hfound id).2 ⟨option,hoption,rfl,hpiece⟩
    rw [Piece.Sound,Numeral.digitLimit]
    exact hexpressible.users _ ids hfound id hid

theorem Writes.listedBy {options : List WrittenOption} {installed : Installed}
    (h : Writes options installed) (hexpressible : Expressible installed) :
    ListedBy installed (options.map WrittenOption.text) := by
  have hsound := h.sound hexpressible
  constructor
  · intro package
    rw [h.packages]
    simp only [List.mem_map,exists_exists_and_eq_and]
    refine exists_congr fun option => and_congr_right fun hoption => ?_
    have hnames := (hsound option hoption).names
    exact ⟨fun hname => ⟨_,hname ▸ hnames⟩,fun ⟨_,hnames'⟩ => (hnames.unique hnames').1⟩
  · intro package ids hfound id
    rw [h.users package ids hfound]
    simp only [List.mem_map,exists_exists_and_eq_and]
    exact exists_congr fun option => and_congr_right fun hoption =>
      (hsound option hoption).tells_iff.symm

/-! ## What options mean -/

theorem execute_sync_congr {installed other : Installed} (h : installed.Alike other) :
    execute (.sync (some installed)) = execute (.sync (some other)) := by
  funext store files
  simp only [execute,Store.prune_congr h]

theorem runWith_congr {command other : Command} (h : execute command = execute other)
    (file : Option Text) : runWith ⟨file,command⟩ = runWith ⟨file,other⟩ := by
  funext settings reporter stamp files
  simp only [runWith,h]

/-- A run that prunes the ledger it has loaded, tells the sizes before and after, and writes the
ledger. Apart from that only what is logged goes to the files. -/
def Prunes (installed : Installed) (loading : Outcome Store Bool) (reporter : Reporter)
    (stamp : Stamp) (ending : Ending) : Prop :=
  let (reporter,before,files) := reporter.reportAll loading.files stamp loading.notes
  let (pruned,removed) := loading.state.prune installed
  let writing := pruned.writeNow files
  let (_,after,later) := (reporter.dropReplacedLog files writing.files).reportAll writing.files
    stamp (removed ++ writing.notes)
  ending.status = .ok (if writing.result then 0 else 1) ∧
  ending.output = lineOf ("synced: " ++ Numeral.ofNat loading.state.ledger.size ++ " -> " ++
    Numeral.ofNat pruned.ledger.size ++ " packages") ∧
  ending.errors = before ++ after ∧ ending.files = later

/-- Each run of a command line that gets as far as loading prunes what it has loaded. -/
def AlwaysPrunes (line : List Text) (file : Option Text) (installed : Installed) : Prop :=
  ∀ (source : SettingsSource) (settings : Settings) (stamp : Stamp) (files ready : FileTree)
    (reporter : Reporter) (store : Store),
    source.get.2 = .ok settings →
    ({ level := 0 } : Reporter).configure files settings.level settings.logFile =
      (reporter,ready,.ok ()) →
    Store.ofSettings (settingsFor file settings) = .ok store →
    Prunes installed (load store ready reporter stamp) reporter stamp
      (run line source stamp files)

theorem alwaysPrunes_of_parse {line : List Text} {file : Option Text} {installed : Installed}
    (hparse : parse line = .ok ⟨file,.sync (some installed)⟩) :
    AlwaysPrunes line file installed := by
  intro source settings stamp files ready reporter store hsettings hreporter hstore
  obtain ⟨directory,fileName,heq⟩ := settingsFor_eq file settings
  rw [heq] at hstore
  simp [run,hparse,hsettings,runWith,heq,hreporter,hstore,execute,save,Prunes]

theorem AlwaysPrunes.congr {line : List Text} {file : Option Text} {installed other : Installed}
    (h : installed.Alike other) (hprunes : AlwaysPrunes line file installed) :
    AlwaysPrunes line file other := by
  intro source settings stamp files ready reporter store hsettings hreporter hstore
  rw [Prunes,← Store.prune_congr h]
  exact hprunes source settings stamp files ready reporter store hsettings hreporter hstore

theorem run_of_refuse {line : List Text} {message : Text}
    (hparse : parse line = syncGrammar.refuse "--package" message) (source : SettingsSource)
    (stamp : Stamp) (files : FileTree) :
    (run line source stamp files).status = .ok 2 ∧ (run line source stamp files).files = files := by
  simp [run,hparse,Grammar.refuse]

theorem AsksSync.parse_eq_some_iff {line values : List Text} {file : Option Text}
    (h : AsksSync line file values) {installed : Installed} :
    Command.parse line = .ok ⟨file,.sync (some installed)⟩ ↔
      giveAll takeOption (some TextMap.empty) values = .ok (some installed) := by
  rw [h.parse]
  cases giveAll takeOption (some TextMap.empty) values <;> simp [Grammar.refuse]

theorem AsksSync.parse_eq_none_iff {line values : List Text} {file : Option Text}
    (h : AsksSync line file values) : Command.parse line = .ok ⟨file,.sync none⟩ ↔
      giveAll takeOption (some TextMap.empty) values = .ok none := by
  rw [h.parse]
  cases giveAll takeOption (some TextMap.empty) values <;> simp [Grammar.refuse]

theorem AsksSync.exists_refuse {line values : List Text} {file : Option Text}
    (h : AsksSync line file values) {value : Text} (hvalue : value ∈ values)
    (hvoid : value ≠ doubleDash) (hnot : ¬Acceptable value) :
    ∃ message, Command.parse line = syncGrammar.refuse "--package" message := by
  rw [h.parse]
  cases hgive : giveAll takeOption (some TextMap.empty) values with
  | error message => exact ⟨message,rfl⟩
  | ok after => exact absurd (exists_giveAll_iff.1 ⟨after,hgive⟩ value hvalue hvoid) hnot

/-- A value can be read just if it names a package in front of its first equals sign and the pieces
behind it are blank or numbers. A command line with such values prunes what it has loaded to the
packages that they name, each for the users of all its options, and the same options in another order
or given again do the same. If a value other than a lone separator cannot be read, the line is refused
and no file is touched; a lone separator is not looked at, and the line comes to no pruning. However
what is installed is written as options, each run prunes to just that. -/
theorem options_denote {line values : List Text} {file : Option Text}
    (h : AsksSync line file values) :
    (∀ value, (∃ package ids, readUsers value = .ok (package,ids)) ↔ Acceptable value) ∧
    ((∃ installed, parse line = .ok ⟨file,.sync (some installed)⟩) ↔
      ∀ value ∈ values, Acceptable value) ∧
    (parse line = .ok ⟨file,.sync none⟩ ↔
      doubleDash ∈ values ∧ ∀ value ∈ values, value ≠ doubleDash → Acceptable value) ∧
    ((∃ value ∈ values, value ≠ doubleDash ∧ ¬Acceptable value) →
      ∃ message, parse line = syncGrammar.refuse "--package" message ∧
        ∀ source stamp files, (run line source stamp files).status = .ok 2 ∧
          (run line source stamp files).files = files) ∧
    (∀ installed, parse line = .ok ⟨file,.sync (some installed)⟩ →
      ListedBy installed values ∧ AlwaysPrunes line file installed ∧
      ∀ line' values' file', AsksSync line' file' values' →
        (∀ value, value ∈ values ↔ value ∈ values') →
        ∃ installed', parse line' = .ok ⟨file',.sync (some installed')⟩ ∧
          installed.Alike installed') ∧
    ∀ installed options, Expressible installed → Writes options installed →
      values = options.map WrittenOption.text →
      (∃ listed, parse line = .ok ⟨file,.sync (some listed)⟩ ∧
        ∀ store : Store, store.prune listed = store.prune installed) ∧
      AlwaysPrunes line file installed ∧
      ∀ source settings stamp files, source.get.2 = .ok settings →
        run line source stamp files =
          runWith ⟨file,.sync (some installed)⟩ settings { level := 0 } stamp files := by
  refine ⟨fun value => exists_readUsers_iff,?_,?_,?_,?_,?_⟩
  · simp only [h.parse_eq_some_iff]
    exact exists_giveAll_takeOption_iff
  · rw [h.parse_eq_none_iff,giveAll_takeOption_eq_none_iff]
  · rintro ⟨value,hvalue,hvoid,hnot⟩
    obtain ⟨message,hparse⟩ := h.exists_refuse hvalue hvoid hnot
    exact ⟨message,hparse,run_of_refuse hparse⟩
  · intro installed hparse
    have hgive := h.parse_eq_some_iff.1 hparse
    have hlisted : ListedBy installed values := listedBy_nil.giveAll hgive
    refine ⟨hlisted,alwaysPrunes_of_parse hparse,fun line' values' file' h' hsame => ?_⟩
    have hacceptable : ∀ value ∈ values', Acceptable value := fun value hvalue =>
      exists_giveAll_takeOption_iff.1 ⟨installed,hgive⟩ value ((hsame value).2 hvalue)
    obtain ⟨installed',hparse',hlisted'⟩ := h'.exists_listedBy hacceptable
    exact ⟨installed',hparse',hlisted.alike hlisted' hsame⟩
  · rintro installed options hexpressible hwrites rfl
    have hsound := hwrites.sound hexpressible
    have hacceptable : ∀ value ∈ options.map WrittenOption.text, Acceptable value :=
      List.forall_mem_map.2 fun option hoption => (hsound option hoption).acceptable
    obtain ⟨listed,hparse,hlisted⟩ := h.exists_listedBy hacceptable
    have halike : listed.Alike installed :=
      hlisted.alike (hwrites.listedBy hexpressible) fun _ => Iff.rfl
    refine ⟨⟨listed,hparse,Store.prune_congr halike⟩,
      (alwaysPrunes_of_parse hparse).congr halike,?_⟩
    intro source settings stamp files hsettings
    simp only [run,hparse,hsettings]
    rw [runWith_congr (execute_sync_congr halike)]

/-- A package written in two options, with white space in one and a user in both. -/
theorem options_denote_twice :
    let line : List Text := ["--file","list","sync","--package=a=10, ,0","--package","a=10"]
    let installed : Installed := TextMap.empty.insert "a" [0,10]
    (∃ listed, parse line = .ok ⟨some "list",.sync (some listed)⟩ ∧
      ∀ store : Store, store.prune listed = store.prune installed) ∧
    AlwaysPrunes line (some "list") installed := by
  intro line installed
  let options : List WrittenOption := [⟨"a",[.user 10,.blank " ",.user 0]⟩,⟨"a",[.user 10]⟩]
  have hfiles : Gives "--file" ["list"] ["--file","list"] := .apart (by decide) .nothing
  have hvalues : Gives "--package" (options.map WrittenOption.text)
      ["--package=a=10, ,0","--package","a=10"] :=
    .attached _ (.apart (by decide) .nothing)
  have hcontains : ∀ package, installed.contains package = true ↔ ("a" : Text) = package := by
    intro package
    rw [TextMap.contains_insert,Bool.or_eq_true,decide_eq_true_eq]
    exact or_iff_left Bool.false_ne_true
  have hfind : ∀ package ids, installed.find? package = some ids →
      ("a" : Text) = package ∧ ids = [0,10] := by
    intro package ids hfound
    rw [TextMap.find?_insert,TextMap.find?_empty,ite_eq_iff] at hfound
    simpa [eq_comm] using hfound
  have hexpressible : Expressible installed := by
    constructor
    · intro package hpackage
      obtain rfl := (hcontains package).1 hpackage
      exact ⟨by decide,by decide⟩
    · intro package ids hfound
      obtain ⟨-,rfl⟩ := hfind package ids hfound
      have hsmall : ∀ id ∈ ([0,10] : List Int), id.natAbs < 10 ^ 2 := by decide
      refine fun id hid => (hsmall id hid).trans_le ?_
      apply Nat.pow_le_pow_right
      · decide
      · decide
  have hwrites : Writes options installed := by
    constructor
    · intro package
      rw [hcontains]
      simp [options]
    · intro package ids hfound id
      obtain ⟨rfl,rfl⟩ := hfind package ids hfound
      have hids : id = 0 ∨ id = 10 ↔ (id = 10 ∨ id = 0) ∨ id = 10 := by omega
      simpa [options] using hids
    · have hspace : (" " : Text).strip = [] := by decide
      simpa [options] using hspace
  obtain ⟨-,-,-,-,-,hwritten⟩ := options_denote (.intro hfiles hvalues)
  obtain ⟨hlisted,hprunes,-⟩ := hwritten installed options hexpressible hwrites rfl
  exact ⟨hlisted,hprunes⟩

/-- A lone separator names no package, but is not refused either. -/
theorem not_refused_doubleDash :
    AsksSync ["sync","--package=--"] none [doubleDash] ∧ ¬Acceptable doubleDash ∧
    parse ["sync","--package=--"] = .ok ⟨none,.sync none⟩ :=
  ⟨.intro .nothing (.attached doubleDash .nothing),not_acceptable_doubleDash,rfl⟩

end Command
end LoadLedger
