import LoadLedger.Proofs.Command.Answering
import LoadLedger.Proofs.Command.Parsing
import LoadLedger.Proofs.Command.Running
import LoadLedger.Proofs.Ledger.Views
import LoadLedger.Proofs.Store.RecordedReload

/-! # Runs refine one ledger

Every run loads the file, applies its command and writes the file anew. As long as all that is
recorded can be stored, runs on one file do what their commands do to a single ledger, empty at
first. The invariant: the file is the listing of that ledger, or the ledger is empty and there is no
file yet.
-/
namespace LoadLedger

structure NameKept (name : Text) : Prop extends Listing.NameStorable name where
  encodable : Utf8.Encodable name

structure PathKept (path : Text) : Prop extends Listing.PathStorable path where
  encodable : Utf8.Encodable path

/-- Words that bring in only what can be stored. The user may be void if no record is made of it. -/
structure LoadWords.Clean (words : LoadWords) : Prop where
  package : ∀ name, words.package = some name → NameKept name
  path : ∀ path, words.path = some path → PathKept path
  owner : words.primaryOrSplit = false → words.owner ≠ .noOne

def Command.Clean : Command → Prop
  | .record words => words.Clean
  | _ => True

/-- What clean commands build up. -/
def Sound (vocabulary : Vocabulary) (ledger : Ledger) : Prop :=
  Ledger.Every NameKept (RecordFrom vocabulary PathKept Listing.OwnerReadable) ledger

variable {vocabulary : Vocabulary} {ledger : Ledger}

theorem LoadWords.Clean.meets {words : LoadWords} (h : words.Clean)
    (hfits : words.owner.fits = true) {load : Load} (hload : words.load? = some load) :
    load.Meets NameKept PathKept Listing.OwnerReadable := by
  unfold LoadWords.load? at hload
  split at hload
  · rename_i package isa path hpackage hisa hpath
    obtain rfl := Option.some.inj hload
    refine ⟨h.package package hpackage,fun _ => h.path path hpath,fun hsecondary => ?_⟩
    exact Listing.ownerReadable_of_fits (h.owner hsecondary) hfits
  · rename_i package isa hpackage hisa hpath hprimary
    obtain rfl := Option.some.inj hload
    have hcontra : ¬words.primaryOrSplit = false := by simp [hprimary]
    exact ⟨h.package package hpackage,fun hsecondary => absurd hsecondary hcontra,
      fun hsecondary => absurd hsecondary hcontra⟩
  · cases hload

theorem Sound.applyTo {command : Command} (h : Sound vocabulary ledger) (hclean : command.Clean)
    (hfits : command.OwnerFits) : Sound vocabulary (command.applyTo vocabulary ledger) := by
  cases command with
  | dump => exact h
  | inspect package asJson => exact h
  | record words =>
    simp only [Command.applyTo]
    cases hrecord : words.record vocabulary ledger with
    | error error => exact h
    | ok recorded =>
      obtain ⟨load,hload,hrecord⟩ := LoadWords.load_of_record hrecord
      exact Ledger.Every.record h (hclean.meets (hfits words rfl) hload) hrecord
  | sync installed =>
    cases installed with
    | none => exact h
    | some installed => exact h.prune installed
  | reset confirmed =>
    cases confirmed with
    | false => exact h
    | true => exact Ledger.every_empty _ _

theorem LoadWords.owner_of_load {words : LoadWords} {load : Load} (h : words.load? = some load) :
    load.owner = words.owner := by
  unfold LoadWords.load? at h
  split at h
  · exact Option.some.inj h ▸ rfl
  · exact Option.some.inj h ▸ rfl
  · cases h

theorem Sound.record_ne_longNumber {words : LoadWords} (h : Sound vocabulary ledger)
    (hfits : words.owner.fits = true) :
    words.record vocabulary ledger ≠ .error (.refused .longNumber) := by
  intro hrecord
  obtain ⟨load,hload,hrecord⟩ := LoadWords.load_of_longNumber hrecord
  obtain ⟨-,-,known,hknown,-,hlong⟩ := Ledger.record_eq_longNumber_iff.1 hrecord
  obtain ⟨use,huse,hdex⟩ := Option.bind_eq_some_iff.1 hknown
  have hreadable := ((h _ use huse).2 _ known hdex).owner
  exact hlong ⟨hreadable.fits,by rwa [LoadWords.owner_of_load hload]⟩

theorem Sound.storable (h : Sound vocabulary ledger) (hplain : vocabulary.Plain) :
    Listing.Storable vocabulary ledger :=
  h.imp (fun _ hname => hname.toNameStorable) fun _ _ hdex =>
    RecordFrom.storable hplain (hdex.imp PathKept.toPathStorable id)

theorem Sound.encodable (h : Sound vocabulary ledger)
    (hisas : ∀ isa, vocabulary.contains isa = true → Utf8.Encodable isa) :
    Utf8.Encodable (Listing.render Listing.currentVersion ledger) := by
  intro c hc hsurrogate
  have hscaffold : ¬Listing.IsScaffold c := by
    rintro ⟨hascii,-⟩
    unfold CodePoint.IsSurrogate at hsurrogate
    omega
  refine Listing.notMem_render hscaffold (h.imp ?_ ?_) hc
  · exact fun name hname hmem => hname.encodable c hmem hsurrogate
  · intro path dex hdex
    refine ⟨fun hmem => hdex.path.encodable c hmem hsurrogate,fun isa hisa hmem => ?_⟩
    exact hisas isa (hdex.known isa hisa) c hmem hsurrogate

/-- The file at a path is the listing of a ledger, or the ledger is empty and there is no file. -/
def Matches (path : PathName) (files : FileTree) (ledger : Ledger) : Prop :=
  (files.Absent path.text ∧ ledger = TextMap.empty) ∨
  ∃ content, files.contentOf path.text = .ok content ∧
    Utf8.encode (Listing.render Listing.currentVersion ledger) = .ok content

/-- Files that keep up with a ledger. -/
structure Tracks (vocabulary : Vocabulary) (path : PathName) (files : FileTree) (ledger : Ledger) :
    Prop where
  sound : Sound vocabulary ledger
  matched : Matches path files ledger
  replaceable : files.Replaceable path

namespace Tracks

variable {abis : List Text} {files : FileTree}

theorem load {store : Store} (hvocabulary : Vocabulary.ofAbis abis = .ok store.vocabulary)
    (hempty : store.ledger = TextMap.empty)
    (h : Tracks store.vocabulary store.path files ledger) :
    (store.load files).state = { store with ledger } := by
  obtain ⟨⟨subject,habsent⟩,rfl⟩ | ⟨content,hcontent,hencode⟩ := h.matched
  · have hnothing : ∀ ledger, ¬store.Holds files ledger := by
      rintro ledger ⟨content,-,hcontent,-⟩
      rw [habsent] at hcontent
      cases hcontent
    rw [(Store.load_of_not_holds hnothing).2,← hempty]
  · have hstorable := h.sound.storable (Vocabulary.plain_ofAbis hvocabulary)
    rw [Store.load_of_encode hstorable hcontent hencode]

theorem writeNow {store : Store} (hvocabulary : Vocabulary.ofAbis abis = .ok store.vocabulary)
    (hsound : Sound store.vocabulary store.ledger) (hreplaceable : files.Replaceable store.path) :
    (store.writeNow files).result = true ∧
      Tracks store.vocabulary store.path (store.writeNow files).files store.ledger := by
  have hstorable := hsound.storable (Vocabulary.plain_ofAbis hvocabulary)
  have hencodable := hsound.encodable fun _ => Vocabulary.encodable_of_ofAbis hvocabulary
  obtain ⟨bytes,hbytes⟩ := hencodable.encode
  have hresult := Store.writeNow_of_replaceable hreplaceable hstorable.ownersFit hbytes
  obtain ⟨-,content,hcontent,hencode⟩ := Store.contentOf_writeNow hresult
  exact ⟨hresult,hsound,.inr ⟨content,hcontent,hencode⟩,Store.replaceable_of_writeNow hresult⟩

theorem execute {store : Store} {command : Command}
    (hvocabulary : Vocabulary.ofAbis abis = .ok store.vocabulary)
    (h : Tracks store.vocabulary store.path files store.ledger) (hclean : command.Clean)
    (hfits : command.OwnerFits) :
    (command.execute store files).Gives (command.reply store.vocabulary store.ledger) ∧
      Tracks store.vocabulary store.path (command.execute store files).files
        (command.applyTo store.vocabulary store.ledger) := by
  have hsound := h.sound.applyTo hclean hfits
  have heffect := command.effect_execute store files
  -- the ledger after the command is an index of the effect, so it has to be a variable
  generalize command.applyTo store.vocabulary store.ledger = after at *
  cases heffect with
  | idle hgives hfiles =>
    rw [hfiles]
    exact ⟨hgives,h⟩
  | saved _ hgives hfiles =>
    have hwritten := @writeNow _ _ { store with ledger := after } hvocabulary hsound h.replaceable
    rw [hfiles]
    exact ⟨hgives hwritten.1,hwritten.2⟩

end Tracks

/-- A run that replies as given, apart from what else is reported. -/
structure Ending.Gives (ending : Ending) (reply : Command.Reply) : Prop where
  status : ending.status = reply.status
  output : ending.output = reply.output
  errors : ∃ before after, ending.errors = before ++ (reply.complaint ++ after)

namespace Command

variable {source : SettingsSource} {settings : Settings} {file : Option Text} {files : FileTree}

theorem run_of_tracks (h : Configured source settings vocabulary) {words : List Text}
    {request : Request} (hparse : parse words = .ok request) (hclean : request.command.Clean)
    (stamp : Stamp)
    (htracks : Tracks vocabulary (settingsFor request.file settings).filePath files ledger) :
    (run words source stamp files).Gives (request.command.reply vocabulary ledger) ∧
      Tracks vocabulary (settingsFor request.file settings).filePath
        (run words source stamp files).files (request.command.applyTo vocabulary ledger) := by
  let path := (settingsFor request.file settings).filePath
  let loaded : Store := { Store.create vocabulary path settings.delay with ledger }
  have hload : ((Store.create vocabulary path settings.delay).load files).state = loaded :=
    Tracks.load h.abis rfl htracks
  obtain ⟨before,after,hrun⟩ := run_eq h hparse stamp files
  obtain ⟨hgives,hlater⟩ :=
    @Tracks.execute _ _ loaded _ h.abis htracks hclean (ownerFits_of_parse hparse)
  rw [hrun,hload]
  refine ⟨⟨hgives.status,hgives.output,before,after,?_⟩,hlater⟩
  exact congrArg (fun complaint => before ++ (complaint ++ after)) hgives.complaint

/-- A change of files elsewhere, after which a file can still be put at the path. -/
structure Spares (path : PathName) (before after : FileTree) : Prop where
  absent : before.Absent path.text → after.Absent path.text
  content : ∀ content, before.contentOf path.text = .ok content →
    after.contentOf path.text = .ok content
  replaceable : before.Replaceable path → after.Replaceable path

/-- The files after clean commands on one file, which is not there at first, and the ledger after the
same commands. In between, the rest of the files may change. -/
inductive Reached (source : SettingsSource) (vocabulary : Vocabulary) (file : Option Text)
    (path : PathName) : FileTree → Ledger → Prop
  | start (files : FileTree) (habsent : files.Absent path.text)
    (hreplaceable : files.Replaceable path) : Reached source vocabulary file path files TextMap.empty
  | elsewhere {files later : FileTree} {ledger : Ledger}
    (h : Reached source vocabulary file path files ledger) (hspares : Spares path files later) :
    Reached source vocabulary file path later ledger
  | run {files : FileTree} {ledger : Ledger} (h : Reached source vocabulary file path files ledger)
    {words : List Text} {request : Request} (hparse : parse words = .ok request)
    (hfile : request.file = file) (hclean : request.command.Clean) (stamp : Stamp) :
    Reached source vocabulary file path (run words source stamp files).files
      (request.command.applyTo vocabulary ledger)

theorem Reached.tracks (h : Configured source settings vocabulary)
    (hreached : Reached source vocabulary file (settingsFor file settings).filePath files ledger) :
    Tracks vocabulary (settingsFor file settings).filePath files ledger := by
  induction hreached with
  | start files habsent hreplaceable =>
    exact ⟨Ledger.every_empty _ _,.inl ⟨habsent,rfl⟩,hreplaceable⟩
  | elsewhere _ hspares ih =>
    refine ⟨ih.sound,?_,hspares.replaceable ih.replaceable⟩
    obtain ⟨habsent,hempty⟩ | ⟨content,hcontent,hencode⟩ := ih.matched
    · exact .inl ⟨hspares.absent habsent,hempty⟩
    · exact .inr ⟨content,hspares.content content hcontent,hencode⟩
  | run _ hparse hfile hclean stamp ih =>
    subst hfile
    exact (run_of_tracks h hparse hclean stamp ih).2

/-- However many commands were run on a file, it is the listing of the ledger that the same commands
lead to, or it is not there and the ledger is empty. The next run replies as its command does to that
ledger; in particular, a recording tells whether the load was news. -/
theorem runs_refine (h : Configured source settings vocabulary)
    (hreached : Reached source vocabulary file (settingsFor file settings).filePath files ledger) :
    Matches (settingsFor file settings).filePath files ledger ∧
    ∀ words request stamp, parse words = .ok request → request.file = file →
      request.command.Clean →
      let ending := run words source stamp files
      ending.Gives (request.command.reply vocabulary ledger) ∧
      ∀ load, request.command = .record load →
        TellsOfRecord vocabulary ledger load ending.status ending.output := by
  have htracks := hreached.tracks h
  refine ⟨htracks.matched,fun words request stamp hparse hfile hclean => ?_⟩
  subst hfile
  obtain ⟨hgives,-⟩ := run_of_tracks h hparse hclean stamp htracks
  refine ⟨hgives,fun load hload => ?_⟩
  rw [hgives.status,hgives.output,hload]
  have hfits := ownerFits_of_parse hparse load hload
  exact tells_reply (htracks.sound.record_ne_longNumber hfits)

def usageSettings : Settings where
  directory := "data/system/"
  fileName := "package-dex-usage.list"
  delay := .ofRatio false 10 1
  abis := ["arm64-v8a"]
  level := "INFO"
  logFile := none

def usageVocabulary : Vocabulary := TextSet.ofList ["arm64"]

def usageSource (level : Text) : SettingsSource := { kept := some { usageSettings with level } }

theorem configured_usageSource : Configured (usageSource "INFO") usageSettings usageVocabulary :=
  ⟨rfl,⟨20,rfl⟩,rfl,rfl⟩

def usageFile : Text := "list"

def usagePath : PathName := (settingsFor (some usageFile) usageSettings).filePath

def recordWords (name user : Text) : List Text :=
  ["--file",usageFile,"record",name,name,user,"--isa","arm64"]

def recordOf (name : Text) (owner : Owner) : Command :=
  .record { package := some name, path := some name, owner, isa := some "arm64" }

def runOf (name user : Text) (files : FileTree) : Ending :=
  run (recordWords name user) (usageSource "INFO") ⟨[],[],[]⟩ files

theorem clean_recordOf {name : Text} (hname : NameKept name) : Clean (recordOf name (.user 0)) where
  package := by
    rintro _ h
    exact Option.some.inj h ▸ hname
  path := by
    rintro _ h
    obtain rfl := Option.some.inj h
    exact ⟨⟨hname.lineFeed,hname.carriageReturn⟩,hname.encodable⟩
  owner := fun _ => nofun

def filesOf (user : Text) : FileTree := (runOf "p" user {}).files

def ledgerOf (owner : Owner) : Ledger := (recordOf "p" owner).applyTo usageVocabulary TextMap.empty

/-- A second recording of the same load finds it known. -/
theorem runs_refine_twice :
    Configured (usageSource "INFO") usageSettings usageVocabulary ∧
    Reached (usageSource "INFO") usageVocabulary (some usageFile) usagePath (filesOf "--user=0")
      (ledgerOf (.user 0)) ∧
    Matches usagePath (filesOf "--user=0") (ledgerOf (.user 0)) ∧
    (runOf "p" "--user=0" (filesOf "--user=0")).output = lineOf "usage already known" := by
  have hname : NameKept "p" := ⟨⟨⟨by decide,by decide,by decide⟩,by decide⟩,by decide⟩
  have hclean := clean_recordOf hname
  have hparse : parse (recordWords "p" "--user=0") =
      .ok ⟨some usageFile,recordOf "p" (.user 0)⟩ := rfl
  have habsent : FileTree.Absent {} usagePath.text := ⟨_,rfl⟩
  have hreplaceable : FileTree.Replaceable {} usagePath := ⟨_,_,_,rfl,rfl,rfl⟩
  have hreached : Reached (usageSource "INFO") usageVocabulary (some usageFile) usagePath
      (filesOf "--user=0") (ledgerOf (.user 0)) :=
    .run (.start {} habsent hreplaceable) hparse rfl hclean ⟨[],[],[]⟩
  obtain ⟨hmatches,hnext⟩ := runs_refine configured_usageSource hreached
  have htells := (hnext _ _ ⟨[],[],[]⟩ hparse rfl hclean).2 _ rfl
  exact ⟨configured_usageSource,hreached,hmatches,(htells.known.2 ⟨_,rfl⟩).2⟩

/-- The name of the line format is no level, so no command gets carried out. And the file of a record
without an owner cannot be read, so the next recording starts anew. -/
theorem not_runs_refine :
    (run (recordWords "p" "--user=0") (usageSource "BASIC_FORMAT") ⟨[],[],[]⟩ {}).status =
      .error (.reporter .formatAsLevel) ∧
    ((recordOf "p" (.user 0)).reply usageVocabulary TextMap.empty).status = .ok 0 ∧
    parse (recordWords "p" "--user=--") = .ok ⟨some usageFile,recordOf "p" .noOne⟩ ∧
    parse (recordWords "q" "--user=0") = .ok ⟨some usageFile,recordOf "q" (.user 0)⟩ ∧
    ¬Matches usagePath (runOf "q" "--user=0" (filesOf "--user=--")).files
      ((recordOf "q" (.user 0)).applyTo usageVocabulary (ledgerOf .noOne)) := by
  refine ⟨rfl,rfl,rfl,rfl,?_⟩
  let later := (runOf "q" "--user=0" (filesOf "--user=--")).files
  let ledger := (recordOf "q" (.user 0)).applyTo usageVocabulary (ledgerOf .noOne)
  have hledger : ledger ≠ TextMap.empty := by decide +kernel
  have hcontent : (later.contentOf usagePath.text).toOption ≠
      (Utf8.encode (Listing.render Listing.currentVersion ledger)).toOption := by decide +kernel
  rintro (⟨-,hempty⟩ | ⟨content,hfile,hencode⟩)
  · exact hledger hempty
  · exact hcontent (by rw [hfile,hencode]; rfl)

end Command
end LoadLedger
