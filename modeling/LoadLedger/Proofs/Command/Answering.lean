import LoadLedger.Command.Run

/-! # What a command makes of a ledger

A command comes down to a change of the ledger and a reply, and both can be told from the ledger
alone. Carried out on a store, it leaves the files alone or writes the changed ledger; if that
succeeds, it gives the same reply.
-/
namespace LoadLedger

/-- Why words are not recorded: the load is refused, or a void word is noticed. -/
inductive WordsError
  | refused (error : RecordError)
  | void
  deriving DecidableEq

def LoadWords.record (vocabulary : Vocabulary) (ledger : Ledger) (words : LoadWords) :
    Except WordsError (Ledger × Bool) :=
  match words.load?,words.isa with
  | some load,_ =>
    match ledger.record vocabulary load with
    | .ok recorded => .ok recorded
    | .error error => .error (.refused error)
  | none,some isa =>
    .error (if vocabulary.contains isa then .void else .refused (.unsupportedIsa isa))
  | none,none => .error .void

theorem LoadWords.load_of_record {vocabulary : Vocabulary} {ledger : Ledger} {words : LoadWords}
    {recorded : Ledger × Bool} (h : words.record vocabulary ledger = .ok recorded) :
    ∃ load, words.load? = some load ∧ ledger.record vocabulary load = .ok recorded := by
  unfold LoadWords.record at h
  cases hload : words.load? with
  | none =>
    cases hisa : words.isa <;> simp [hload,hisa] at h
  | some load =>
    cases hrecord : ledger.record vocabulary load with
    | error error => simp [hload,hrecord] at h
    | ok after =>
      simp only [hload,hrecord] at h
      obtain rfl := Except.ok.inj h
      exact ⟨load,rfl,hrecord⟩

theorem LoadWords.load_of_longNumber {vocabulary : Vocabulary} {ledger : Ledger}
    {words : LoadWords} (h : words.record vocabulary ledger = .error (.refused .longNumber)) :
    ∃ load, words.load? = some load ∧ ledger.record vocabulary load = .error .longNumber := by
  unfold LoadWords.record at h
  cases hload : words.load? with
  | none =>
    cases hisa : words.isa with
    | none => simp [hload,hisa] at h
    | some isa => cases hknown : vocabulary.contains isa <;> simp [hload,hisa,hknown] at h
  | some load =>
    cases hrecord : ledger.record vocabulary load with
    | error error =>
      simp only [hload,hrecord] at h
      obtain rfl := WordsError.refused.inj (Except.error.inj h)
      exact ⟨load,rfl,hrecord⟩
    | ok after => simp [hload,hrecord] at h

namespace Command

structure Reply where
  status : Except Failure Nat
  output : Text := []
  complaint : Text := []

/-- What a command makes of a ledger. One that fails leaves it as it is. -/
def applyTo (vocabulary : Vocabulary) (ledger : Ledger) : Command → Ledger
  | .record words =>
    match words.record vocabulary ledger with
    | .ok (ledger,_) => ledger
    | .error _ => ledger
  | .sync (some installed) => ledger.prune installed
  | .reset true => TextMap.empty
  | _ => ledger

/-- What a command has to say about a ledger that it is applied to. -/
def reply (vocabulary : Vocabulary) (ledger : Ledger) : Command → Reply
  | .dump => { status := .ok 0, output := Listing.render Listing.currentVersion ledger }
  | .inspect package asJson =>
    match inspection ledger package asJson with
    | some output => { status := .ok 0, output }
    | none => { status := .ok 1, complaint := lineOf ("No usage recorded for " ++ package.getD []) }
  | .record words =>
    match words.record vocabulary ledger with
    | .ok (_,true) => { status := .ok 0, output := lineOf "recorded new usage" }
    | .ok (_,false) => { status := .ok 0, output := lineOf "usage already known" }
    | .error (.refused .longNumber) => { status := .error .longNumber }
    | .error (.refused error) => { status := .ok 1, complaint := lineOf ("error: " ++ error.message) }
    | .error .void => { status := .error .voidName }
  | .sync none => { status := .error .voidPackage }
  | .sync (some installed) =>
    { status := .ok 0
      output := lineOf ("synced: " ++ Numeral.ofNat ledger.size ++ " -> " ++
        Numeral.ofNat (ledger.prune installed).size ++ " packages") }
  | .reset true => { status := .ok 0, output := lineOf "usage data cleared" }
  | .reset false => { status := .ok 1, complaint := lineOf "Refusing to reset without --confirm" }

structure Step.Gives (step : Step) (reply : Reply) : Prop where
  status : step.status = reply.status
  output : step.output = reply.output
  complaint : step.complaint = reply.complaint

/-- What carrying out a command does to a store: it leaves the files alone, or writes the ledger. -/
inductive Effect (store : Store) (files : FileTree) (step : Step) (reply : Reply) : Ledger → Prop
  | idle (hgives : step.Gives reply) (hfiles : step.files = files) :
    Effect store files step reply store.ledger
  | saved (ledger : Ledger)
    (hgives : ({ store with ledger }.writeNow files).result = true → step.Gives reply)
    (hfiles : step.files = ({ store with ledger }.writeNow files).files) :
    Effect store files step reply ledger

theorem effect_save (store : Store) (files : FileTree) (ledger : Ledger) (output : Text)
    (notes : List Note) : Effect store files (save { store with ledger } files output notes)
      { status := .ok 0, output } ledger := by
  refine .saved ledger (fun hresult => ⟨?_,rfl,rfl⟩) rfl
  simp only [save,hresult,if_pos]

theorem effect_recordLoad (words : LoadWords) (store : Store) (files : FileTree) :
    Effect store files (recordLoad words store files)
      (reply store.vocabulary store.ledger (.record words))
      (applyTo store.vocabulary store.ledger (.record words)) := by
  cases hload : words.load? with
  | none =>
    cases hisa : words.isa with
    | none =>
      simp only [recordLoad,applyTo,reply,LoadWords.record,hload,hisa]
      exact .idle ⟨rfl,rfl,rfl⟩ rfl
    | some isa =>
      simp only [recordLoad,applyTo,reply,LoadWords.record,hload,hisa]
      cases store.vocabulary.contains isa
      · exact .idle ⟨rfl,rfl,rfl⟩ rfl
      · exact .idle ⟨rfl,rfl,rfl⟩ rfl
  | some load =>
    simp only [recordLoad,applyTo,reply,LoadWords.record,Store.record,hload]
    cases store.ledger.record store.vocabulary load with
    | error error => cases error <;> exact .idle ⟨rfl,rfl,rfl⟩ rfl
    | ok recorded =>
      obtain ⟨ledger,news⟩ := recorded
      cases news
      · exact effect_save store files ledger _ []
      · exact effect_save store files ledger _ []

theorem effect_execute (command : Command) (store : Store) (files : FileTree) :
    Effect store files (execute command store files)
      (command.reply store.vocabulary store.ledger)
      (command.applyTo store.vocabulary store.ledger) := by
  cases command with
  | dump => exact .idle ⟨rfl,rfl,rfl⟩ rfl
  | inspect package asJson =>
    simp only [execute,reply,applyTo]
    cases inspection store.ledger package asJson with
    | none => exact .idle ⟨rfl,rfl,rfl⟩ rfl
    | some output => exact .idle ⟨rfl,rfl,rfl⟩ rfl
  | record words => exact effect_recordLoad words store files
  | sync installed =>
    cases installed with
    | none => exact .idle ⟨rfl,rfl,rfl⟩ rfl
    | some installed => exact effect_save store files (store.ledger.prune installed) _ _
  | reset confirmed =>
    cases confirmed
    · exact .idle ⟨rfl,rfl,rfl⟩ rfl
    · exact effect_save store files TextMap.empty _ []

/-- A status and an output that tell whether a load was news, was known, or was refused. -/
structure TellsOfRecord (vocabulary : Vocabulary) (ledger : Ledger) (words : LoadWords)
    (status : Except Failure Nat) (output : Text) : Prop where
  news : status = .ok 0 ∧ output = lineOf "recorded new usage" ↔
    ∃ after, words.record vocabulary ledger = .ok (after,true)
  known : status = .ok 0 ∧ output = lineOf "usage already known" ↔
    ∃ after, words.record vocabulary ledger = .ok (after,false)
  refused : status = .ok 1 ↔ ∃ error, words.record vocabulary ledger = .error (.refused error)

theorem tells_reply {vocabulary : Vocabulary} {ledger : Ledger} {words : LoadWords}
    (hfits : words.record vocabulary ledger ≠ .error (.refused .longNumber)) :
    TellsOfRecord vocabulary ledger words (reply vocabulary ledger (.record words)).status
      (reply vocabulary ledger (.record words)).output := by
  have hne : lineOf "recorded new usage" ≠ lineOf "usage already known" := by decide
  simp only [reply]
  cases hrecord : words.record vocabulary ledger with
  | ok recorded =>
    obtain ⟨after,news⟩ := recorded
    cases news with
    | true => exact ⟨by simp [hrecord],by simp [hrecord,hne],by simp [hrecord]⟩
    | false => exact ⟨by simp [hrecord,hne.symm],by simp [hrecord],by simp [hrecord]⟩
  | error error =>
    cases error with
    | refused error =>
      cases error with
      | longNumber => exact absurd hrecord hfits
      | unsupportedIsa _ => exact ⟨by simp [hrecord],by simp [hrecord],by simp [hrecord]⟩
      | ownerMismatch _ _ _ => exact ⟨by simp [hrecord],by simp [hrecord],by simp [hrecord]⟩
    | void => exact ⟨by simp [hrecord],by simp [hrecord],by simp [hrecord]⟩

end Command
end LoadLedger
