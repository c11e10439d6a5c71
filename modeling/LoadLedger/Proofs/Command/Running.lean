import LoadLedger.Command.Run
import LoadLedger.Proofs.Store.Loading

/-! # What a run comes to

Once its settings can be used, and as long as there is no log file, a run does to the files what its
command does to the store that was loaded from them; the rest of the run only adds to the errors.
-/
namespace LoadLedger

/-! ## Reporting without a log file -/

namespace Reporter

theorem report_eq {reporter : Reporter} (hlog : reporter.logFile = none) (files : FileTree)
    (stamp : Stamp) (source : Text) (level : Int) (message : Text) :
    ∃ (later : Reporter) (text : Text),
      reporter.report files stamp source level message = (later,text,files) ∧ later.logFile = none := by
  refine ⟨_,_,Prod.ext rfl (Prod.ext rfl ?_),hlog⟩
  simp only [report,write,hlog]
  split
  · rfl
  · split <;> rfl

theorem reportAll_eq {reporter : Reporter} (hlog : reporter.logFile = none) (files : FileTree)
    (stamp : Stamp) (notes : List Note) : ∃ (later : Reporter) (text : Text),
      reporter.reportAll files stamp notes = (later,text,files) ∧ later.logFile = none := by
  induction notes generalizing reporter with
  | nil => exact ⟨_,_,rfl,hlog⟩
  | cons note notes ih =>
    obtain ⟨next,first,hfirst,hnext⟩ :=
      report_eq hlog files stamp note.source note.severity.rank note.message
    obtain ⟨later,rest,hrest,hlater⟩ := ih hnext
    refine ⟨later,first ++ rest,?_,hlater⟩
    simp only [reportAll,reportNote,hfirst,hrest]

theorem dropReplacedLog_eq_self {reporter : Reporter} (hlog : reporter.logFile = none)
    (before after : FileTree) : reporter.dropReplacedLog before after = reporter := by
  simp only [dropReplacedLog,hlog]

theorem configure_of_level {reporter : Reporter} {files : FileTree} {name : Text} {level : Int}
    (hlevel : levelOf name.upper = .ok level) : ∃ configured : Reporter,
      reporter.configure files name none = (configured,files,.ok ()) ∧ configured.logFile = none := by
  simp only [configure,hlevel]
  exact ⟨_,rfl,rfl⟩

end Reporter

namespace Command

/-- Settings under which a run gets as far as its command: they can be read, reporting can be set up,
there is no log file, and all interfaces are known. -/
structure Configured (source : SettingsSource) (settings : Settings) (vocabulary : Vocabulary) :
    Prop where
  read : source.get.2 = .ok settings
  level : ∃ level, Reporter.levelOf settings.level.upper = .ok level
  logFile : settings.logFile = none
  abis : Vocabulary.ofAbis settings.abis = .ok vocabulary

theorem settingsFor_eq (file : Option Text) (settings : Settings) : ∃ directory fileName,
    settingsFor file settings = { settings with directory, fileName } := by
  unfold settingsFor
  split <;> exact ⟨_,_,rfl⟩

theorem run_eq {source : SettingsSource} {settings : Settings} {vocabulary : Vocabulary}
    (h : Configured source settings vocabulary) {words : List Text} {request : Request}
    (hparse : parse words = .ok request) (stamp : Stamp) (files : FileTree) :
    let store := Store.create vocabulary (settingsFor request.file settings).filePath settings.delay
    let step := execute request.command (store.load files).state files
    ∃ before after, run words source stamp files =
      { status := step.status, output := step.output
        errors := before ++ (step.complaint ++ after), files := step.files } := by
  intro store step
  obtain ⟨level,hlevel⟩ := h.level
  obtain ⟨directory,fileName,hsettings⟩ := settingsFor_eq request.file settings
  let start : Reporter := { level := 0 }
  obtain ⟨reporter,hreporter,hlog⟩ : ∃ reporter : Reporter,
      start.configure files settings.level settings.logFile = (reporter,files,.ok ()) ∧
        reporter.logFile = none := h.logFile ▸ Reporter.configure_of_level hlevel
  have hstore : Store.ofSettings (settingsFor request.file settings) = .ok store := by
    simp only [Store.ofSettings,hsettings,h.abis]
    simp only [store,hsettings]
    rfl
  have hload : load store files reporter stamp = store.load files := by
    simp [load,Reporter.logsTo,hlog]
  have hfiles : (store.load files).files = files := store.loadBy_files files _
  obtain ⟨later,before,hbefore,hlog'⟩ :=
    Reporter.reportAll_eq hlog files stamp (store.load files).notes
  obtain ⟨last,after,hafter,-⟩ := Reporter.reportAll_eq hlog' step.files stamp step.notes
  have hdropped := Reporter.dropReplacedLog_eq_self hlog' files step.files
  refine ⟨before,after,?_⟩
  rw [hsettings] at hstore
  simp only [start] at hreporter
  simp only [run,hparse,h.read,runWith,hsettings,hreporter,hstore,hload,hfiles,hbefore]
  rw [hdropped,hafter]

end Command
end LoadLedger
