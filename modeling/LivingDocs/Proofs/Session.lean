import LivingDocs.Command.Run
import Mathlib.Tactic.Lemma
import Mathlib.Tactic.SplitIfs

/-!
# How actions end

A step of a command ends with a value or breaks off, and what it leaves behind is a session. For
each step there is one statement of when it ends with which value in which session; a step that is
put together from others ends when these end one after the other.

## Main definitions

* `LivingDocs.Command.Action.Ends` — an action ends with a value and leaves a session behind.

## Main results

* `LivingDocs.Command.Action.ends_bind` — when an action of two parts ends.
* `LivingDocs.Command.Action.ends_readText`, `LivingDocs.Command.Action.ends_writeText`,
  `LivingDocs.Command.Action.ends_makeDirectories` — when the steps that use files end.
-/

set_option autoImplicit false

namespace LivingDocs.Command

namespace Action

variable {α β ε : Type} {session last : Session}

/-- What comes of an action in a session, and the session afterwards. -/
def result (action : Action α) (session : Session) : Except Failure α × Session :=
  action.run.run session

/-- **An action ends** with a value and leaves a session behind. -/
def Ends (action : Action α) (session : Session) (value : α) (last : Session) : Prop :=
  action.result session = (.ok value, last)

/-- An action that does not break off ends with some value. -/
lemma exists_ends_of_isOk {action : Action α} (h : (action.result session).1.isOk = true) :
    ∃ value last, action.Ends session value last := by
  rcases hresult : action.result session with ⟨failure | value, last⟩
  · rw [hresult] at h
    cases h
  · exact ⟨value, last, hresult⟩

/-- The second part of an action runs where the first one has left off, unless that broke off. -/
lemma result_bind (first : Action α) (second : α → Action β) (session : Session) :
    (first >>= second).result session =
      match first.result session with
      | (.ok a, middle) => (second a).result middle
      | (.error failure, middle) => (.error failure, middle) := by
  change (match first.result session with
    | (r, middle) => (ExceptT.bindCont second r : StateM Session _) middle) = _
  rcases first.result session with ⟨_ | a, middle⟩ <;> rfl

@[simp] lemma ends_pure {a value : α} :
    (pure a : Action α).Ends session value last ↔ value = a ∧ last = session := by
  constructor
  · intro h
    cases h
    exact ⟨rfl, rfl⟩
  · rintro ⟨rfl, rfl⟩
    rfl

@[simp] lemma ends_throw {failure : Failure} {value : α} :
    ¬ (throw failure : Action α).Ends session value last := by
  intro h
  cases h

/-- **An action of two parts ends** if the first one does, and after it the second one. -/
@[simp] lemma ends_bind {first : Action α} {second : α → Action β} {value : β} :
    (first >>= second).Ends session value last ↔
      ∃ a middle, first.Ends session a middle ∧ (second a).Ends middle value last := by
  rw [Ends, result_bind]
  rcases h : first.result session with ⟨failure | a, middle⟩
  · simp [Ends, h]
  · simp [Ends, h, and_assoc]

@[simp] lemma ends_ofExcept {blame : ε → Failure} {r : Except ε α} {value : α} :
    (ofExcept blame r).Ends session value last ↔ r = .ok value ∧ last = session := by
  cases r with
  | ok a => simp [ofExcept, eq_comm]
  | error e => simp [ofExcept]

@[simp] lemma ends_modify {f : Session → Session} {value : Unit} :
    (modify f : Action Unit).Ends session value last ↔ last = f session := by
  constructor
  · intro h
    cases h
    rfl
  · rintro rfl
    rfl

@[simp] lemma ends_files {files : FileSystem} :
    Action.files.Ends session files last ↔ files = session.files ∧ last = session := by
  constructor
  · intro h
    cases h
    exact ⟨rfl, rfl⟩
  · rintro ⟨rfl, rfl⟩
    rfl

@[simp] lemma ends_readFile {path : Path} {content : ByteArray} :
    (readFile path).Ends session content last ↔
      session.files.readFile path = .ok content ∧ last = session := by
  simp [readFile, and_assoc, and_comm]

@[simp] lemma ends_readText {path : Path} {text : String} :
    (readText path).Ends session text last ↔
      session.files.readText path = .ok text ∧ last = session := by
  simp [readText, and_assoc, and_comm]

@[simp] lemma ends_writeText {blame : FileSystem.Fault → Failure} {path : Path} {text : String}
    {value : Unit} : (writeText blame path text).Ends session value last ↔
      ∃ files, session.files.writeFile path (Text.Utf8.encode text) = .ok files ∧
        last = { session with files } := by
  simp [writeText, replaceFiles, and_assoc]

@[simp] lemma ends_makeDirectories {path : Path} {value : Unit} :
    (makeDirectories path).Ends session value last ↔
      ∃ files, session.files.makeDirectories path = (files, .ok ()) ∧
        last = { session with files } := by
  rcases h : session.files.makeDirectories path with ⟨files, result⟩
  simp [makeDirectories, replaceFiles, and_assoc, h]

@[simp] lemma ends_tell {text : String} {value : Unit} :
    (tell text).Ends session value last ↔ last = { session with told := session.told ++ text } :=
  ends_modify

@[simp] lemma ends_warn {warnings : List Collation.Warning} {value : Unit} :
    (warn warnings).Ends session value last ↔
      last = { session with warnings := session.warnings ++ warnings } :=
  ends_modify

/-! ## What comes of a command -/

/-- What comes of a command that does not break off. -/
lemma outcome_of_ends {action : Action Result} {files : FileSystem} {result : Result}
    (h : action.Ends { files } result last) (verbose : Bool) :
    action.outcome verbose files =
      { status := result.status
        stdout := result.stdout verbose
        stderr := last.told ++ result.stderr verbose
        failure := none
        warnings := last.warnings
        files := last.files } := by
  have hrun : action.run.run { files } = (.ok result, last) := h
  rw [outcome, hrun]

/-- A command that succeeds does not break off, and has no problems. -/
lemma exists_ends_of_success {action : Action Result} {files : FileSystem} {verbose : Bool}
    (h : (action.outcome verbose files).status = .success) :
    ∃ result last, action.Ends { files } result last ∧ result.problems = [] ∧
      (action.outcome verbose files).files = last.files := by
  rcases hresult : action.result { files } with ⟨failure | result, last⟩
  · have hrun : action.run.run { files } = (.error failure, last) := hresult
    rw [outcome, hrun] at h
    cases h
  · have hends : action.Ends { files } result last := hresult
    rw [outcome_of_ends hends] at h ⊢
    refine ⟨result, last, hends, ?_, rfl⟩
    have hstatus : (if result.problems.isEmpty then Status.success else .failure) = .success := h
    split at hstatus
    · next hempty => exact List.isEmpty_iff.mp hempty
    · cases hstatus

end Action

/-- What is told about a configuration that has been loaded. -/
def configNote (verbose : Bool) (loaded : Config.Loaded) : String :=
  if verbose && !loaded.fromFile then
    Console.note s!"No {Config.fileName} found, using default configuration"
  else ""

/-- The configuration of the project is the one that is loaded. -/
@[simp] lemma ends_projectConfig {verbose : Bool} {session last : Session} {config : Config} :
    (projectConfig verbose).Ends session config last ↔
      ∃ loaded, Config.load session.files ⟨"."⟩ = .ok loaded ∧ config = loaded.config ∧
        last = { session with told := session.told ++ configNote verbose loaded } := by
  simp only [projectConfig, configNote, Action.ends_bind, Action.ends_files, Action.ends_ofExcept]
  constructor
  · rintro ⟨_, _, ⟨rfl, rfl⟩, loaded, _, ⟨hload, rfl⟩, h⟩
    refine ⟨loaded, hload, ?_⟩
    split_ifs at h ⊢
    · obtain ⟨_, _, htell, h⟩ := Action.ends_bind.mp h
      rw [Action.ends_tell] at htell
      rwa [htell, Action.ends_pure] at h
    · rwa [String.append_empty, ← Action.ends_pure]
  · rintro ⟨loaded, hload, rfl, rfl⟩
    refine ⟨_, _, ⟨rfl, rfl⟩, loaded, session, ⟨hload, rfl⟩, ?_⟩
    split_ifs
    · exact Action.ends_bind.mpr ⟨(), _, Action.ends_tell.mpr rfl, Action.ends_pure.mpr ⟨rfl, rfl⟩⟩
    · exact Action.ends_pure.mpr ⟨rfl, by rw [String.append_empty]⟩

/-- The entities of one kind are read from a text that holds them. -/
@[simp] lemma ends_readEntities {α : Type} {ofJson? : Json → Option α} {path : Path}
    {session last : Session} {entities : List α} :
    (readEntities ofJson? path).Ends session entities last ↔
      ∃ text, session.files.readText path = .ok text ∧
        Artifact.decode? ofJson? text = some entities ∧ last = session := by
  simp only [readEntities, Action.ends_bind, Action.ends_readText, and_assoc]
  constructor
  · rintro ⟨text, middle, htext, rfl, h⟩
    split at h
    · next found hfound =>
      rw [Action.ends_pure] at h
      exact ⟨text, htext, by rw [hfound, h.1], h.2⟩
    · exact absurd h Action.ends_throw
  · rintro ⟨text, htext, hdecode, rfl⟩
    exact ⟨text, last, htext, rfl, by simp [hdecode]⟩

end LivingDocs.Command
