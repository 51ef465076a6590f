import LongDivision.Program
import LongDivision.Proofs.Session.Rules

/-! What the program does with its configuration, whatever reads its arguments and configurations. A
file that is no configuration is warned of, and apart from that the program goes on as if there were
none.
-/

namespace LongDivision

open Transcript Dialogue

section Broken

variable {read : String → Except (Option String) Configuration}

/-- There is a file, but a reader of configurations finds none in it. -/
inductive ConfigurationFile.Broken (read : String → Except (Option String) Configuration) :
    ConfigurationFile → Prop where
  | unreadable (cause : String) : Broken read (.unreadable cause)
  | notText {bytes : List UInt8} (undecoded : String.fromUTF8? bytes.toByteArray = none) :
      Broken read (.content bytes)
  | malformed {bytes : List UInt8} {text : String} {reason? : Option String}
      (decoded : String.fromUTF8? bytes.toByteArray = some text)
      (unparsed : read text = .error reason?) : Broken read (.content bytes)

theorem ConfigurationFile.Broken.exists_error {file : ConfigurationFile} (broken : file.Broken read)
    (path : String) : ∃ error, Configuration.loadWith read path file = .error error := by
  cases broken with
  | unreadable cause => exact ⟨_, rfl⟩
  | notText undecoded =>
      rw [Configuration.loadWith, undecoded]
      exact ⟨_, rfl⟩
  | malformed decoded unparsed =>
      simp only [Configuration.loadWith, decoded, unparsed]
      exact ⟨_, rfl⟩

end Broken

namespace Program

section Run

variable {formats : Formats} {environment : Environment} {input : List UInt8} {mode : Mode}

theorem load_of_missing
    (missing : environment.file (Configuration.path environment.configurationPath?) = .missing) :
    formats.load environment = .ok {} := by
  simp only [Formats.load, missing, Configuration.loadWith]

theorem settings_of_ok {configuration : Configuration}
    (loaded : formats.load environment = .ok configuration) :
    formats.configuration environment = configuration ∧ formats.warnings environment = [] := by
  rw [Formats.configuration, Formats.warnings, loaded]
  exact ⟨rfl, rfl⟩

theorem settings_of_error {error : ConfigurationError}
    (unusable : formats.load environment = .error error) :
    formats.configuration environment = {} ∧
      formats.warnings environment = [.defaultConfiguration error.message] := by
  rw [Formats.configuration, Formats.warnings, unusable]
  exact ⟨rfl, rfl⟩

/-- A program cannot fail: it exits. -/
theorem exists_exit (formats : Formats) (environment : Environment) (input : List UInt8) :
    ∃ exit, ((formats.dialogue environment).run input).result = .ok exit := by
  cases result : ((formats.dialogue environment).run input).result with
  | error impossible => exact impossible.elim
  | ok exit => exact ⟨exit, rfl⟩

theorem run_eq {exit : Exit}
    (result : ((formats.dialogue environment).run input).result = .ok exit) :
    formats.run environment input = ⟨exit, ((formats.dialogue environment).run input).output,
      ((formats.dialogue environment).run input).events.filter fun event =>
        (formats.configuration environment).verbosity.admits event.level⟩ := by
  simp only [Formats.run, result]

theorem dialogue_of_accepted (accepted : formats.readMode environment.arguments = .ok mode) :
    formats.dialogue environment = (logAll (formats.warnings environment)).andThen fun _ =>
      perform (formats.configuration environment) mode := by
  rw [Formats.dialogue, accepted]
  rfl

theorem dialogue_of_rejected {refusal : String}
    (rejected : formats.readMode environment.arguments = .error refusal) :
    formats.dialogue environment = .done (@Exit.usage refusal) := by
  rw [Formats.dialogue, rejected]
  rfl

theorem run_of_accepted (accepted : formats.readMode environment.arguments = .ok mode)
    {exit : Exit} {output : List Char} {events : List (Event Float)}
    (performed : (perform (formats.configuration environment) mode).run input =
      ⟨output, events, .ok exit⟩) :
    formats.run environment input = ⟨exit, output,
      (formats.warnings environment ++ events).filter fun event =>
        (formats.configuration environment).verbosity.admits event.level⟩ := by
  have course : (formats.dialogue environment).run input =
      ⟨output, formats.warnings environment ++ events, .ok exit⟩ := by
    rw [dialogue_of_accepted accepted, run_andThen, run_logAll, followedBy, remaining_logAll]
    simp only [performed, List.nil_append]
  rw [run_eq (by rw [course]), course]

theorem run_of_rejected {refusal : String}
    (rejected : formats.readMode environment.arguments = .error refusal) :
    formats.run environment input = ⟨@Exit.usage refusal, [], []⟩ := by
  have course : (formats.dialogue environment).run input = ⟨[], [], .ok (@Exit.usage refusal)⟩ := by
    rw [dialogue_of_rejected rejected, Dialogue.run]
  rw [run_eq (by rw [course]), course]
  rfl

end Run

section Divide

variable {configuration : Configuration} {input : List UInt8}

theorem run_divide_of_ok
    (succeeded : ((session (α := Float) configuration).run input).result = .ok ()) :
    (divide configuration).run input =
      ⟨((session (α := Float) configuration).run input).output,
        ((session (α := Float) configuration).run input).events, .ok .success⟩ := by
  rw [divide, run_bind, run_attempt, succeeded]
  simp [followedBy, pure, Dialogue.run]

theorem run_divide_of_error {reason : SessionError}
    (failed : ((session (α := Float) configuration).run input).result = .error reason) :
    (divide configuration).run input =
      ⟨((session (α := Float) configuration).run input).output ++ ['\n'],
        ((session (α := Float) configuration).run input).events ++ [.sessionFailed reason],
        .ok (.failure reason)⟩ := by
  rw [divide, run_bind, run_attempt, failed]
  simp [followedBy, pure, bind, log, say, andThen, Dialogue.run, afterWriting, afterReporting]

end Divide

/-- An event that has nothing to do with the configuration file. -/
def Unconfigured (event : Event Float) : Prop :=
  ∀ reason, event ≠ .defaultConfiguration reason

theorem unconfiguredRules (limit : Nat) :
    Session.Rules limit (fun _ => True) Unconfigured fun _ : TermMap Float => True where
  parsed _ := trivial
  prompt _ := trivial
  divisionText _ _ _ := trivial
  termSumText _ _ _ := trivial
  termRead _ _ := by simp
  operandRead _ _ _ := by simp
  dividing _ _ _ := by simp
  divisionStep _ _ := by simp
  sumsMerged _ _ _ := by simp
  compareSums _ _ reason := by
    rw [Session.compareSums]
    split <;> simp

theorem obeys_perform (configuration : Configuration) (mode : Mode) :
    (perform configuration mode).Obeys (fun _ => True) Unconfigured fun _ => True := by
  cases mode with
  | identify => exact ⟨trivial, trivial⟩
  | divide =>
      refine (unconfiguredRules configuration.maxDegree).session.attempt.andThen fun outcome _ => ?_
      cases outcome with
      | ok value => trivial
      | error reason =>
          have unconfigured : Unconfigured (.sessionFailed reason) := fun _ => by simp
          exact ⟨unconfigured, trivial, trivial⟩

section Fallback

variable {formats : Formats} {broken absent : Environment} {input : List UInt8} {mode : Mode}

/-- With a missing file everything is as by default, and there is nothing to warn of. -/
theorem unconfigured_of_missing (missing : formats.load absent = .ok {}) :
    ∀ event ∈ (formats.run absent input).log, Unconfigured event := by
  obtain ⟨_, silent⟩ := settings_of_ok missing
  have obeys : (formats.dialogue absent).Obeys (fun _ => True) Unconfigured fun _ => True := by
    cases arguments : formats.readMode absent.arguments with
    | error refusal =>
        rw [dialogue_of_rejected arguments]
        trivial
    | ok mode =>
        rw [dialogue_of_accepted arguments, silent]
        exact obeys_perform (formats.configuration absent) mode
  obtain ⟨exit, result⟩ := exists_exit formats absent input
  rw [run_eq result]
  exact fun event member => obeys.events input event (List.mem_filter.mp member).1

/-- The program that warns of its configuration file goes on as the one without a file. -/
theorem dialogue_of_broken {error : ConfigurationError}
    (unusable : formats.load broken = .error error) (missing : formats.load absent = .ok {})
    (arguments : absent.arguments = broken.arguments)
    (accepted : formats.readMode broken.arguments = .ok mode) :
    formats.dialogue broken =
      .report (.defaultConfiguration error.message) (formats.dialogue absent) := by
  obtain ⟨default, warned⟩ := settings_of_error unusable
  obtain ⟨absentDefault, silent⟩ := settings_of_ok missing
  rw [dialogue_of_accepted accepted, dialogue_of_accepted (arguments ▸ accepted), default,
    absentDefault, warned, silent]
  rfl

theorem run_of_broken {error : ConfigurationError} (unusable : formats.load broken = .error error)
    (missing : formats.load absent = .ok {}) (arguments : absent.arguments = broken.arguments)
    (accepted : formats.readMode broken.arguments = .ok mode) :
    formats.run broken input = { formats.run absent input with
      log := .defaultConfiguration error.message :: (formats.run absent input).log } := by
  obtain ⟨default, _⟩ := settings_of_error unusable
  obtain ⟨absentDefault, _⟩ := settings_of_ok missing
  obtain ⟨exit, result⟩ := exists_exit formats absent input
  have warned : (formats.dialogue broken).run input =
      ((formats.dialogue absent).run input).afterReporting
        (.defaultConfiguration error.message) := by
    rw [dialogue_of_broken unusable missing arguments accepted, Dialogue.run]
  have warnedResult : ((formats.dialogue broken).run input).result = .ok exit := by
    rw [warned, afterReporting, result]
  rw [run_eq result, run_eq warnedResult, warned, default, absentDefault]
  -- The default verbosity admits the warning.
  rfl

end Fallback

/-- A configuration file that is there but cannot be used makes no difference to a missing one but
for a warning, which is given once the arguments are accepted. What the program writes, and the exit
that decides its code and its last error line, are those of its session, with a line end after a
failure. To identify itself it asks neither for settings nor for input, and of arguments that are
refused it only says what their reader says. -/
theorem broken_configuration_ignored (formats : Formats) (environment : Environment)
    (input : List UInt8) :
    (∀ otherFile : String → ConfigurationFile,
      (environment.file (Configuration.path environment.configurationPath?)).Broken
        formats.readConfiguration →
      otherFile (Configuration.path environment.configurationPath?) = .missing →
      let broken := formats.run environment input
      let absent := formats.run { environment with file := otherFile } input
      broken.exit = absent.exit ∧ broken.output = absent.output ∧
      broken.exit.errorLine? = absent.exit.errorLine? ∧
      (∀ refusal, formats.readMode environment.arguments = .error refusal →
        broken.log = absent.log) ∧
      (∀ mode, formats.readMode environment.arguments = .ok mode →
        ∃ reason, broken.log = .defaultConfiguration reason :: absent.log) ∧
      ∀ reason, .defaultConfiguration reason ∉ absent.log) ∧
    (formats.readMode environment.arguments = .ok .divide →
      let outcome := formats.run environment input
      let transcript := (session (α := Float) (formats.configuration environment)).run input
      (transcript.result = .ok () → outcome.output = transcript.output ∧ outcome.exit = .success) ∧
      (∀ reason, transcript.result = .error reason →
        outcome.output = transcript.output ++ ['\n'] ∧ outcome.exit = .failure reason) ∧
      (outcome.exit.code = 1 ↔ ∃ reason, transcript.result = .error reason)) ∧
    (formats.readMode environment.arguments = .ok .identify →
      (formats.run environment input).exit = .success ∧
        (formats.run environment input).output = identification.toList) ∧
    (∀ refusal, formats.readMode environment.arguments = .error refusal →
      (formats.run environment input).exit.code = 1 ∧
        (formats.run environment input).exit.errorLine? = some refusal ∧
        (formats.run environment input).output = []) := by
  refine ⟨?_, ?_, ?_, ?_⟩
  · intro otherFile isBroken isMissing
    let absent : Environment := { environment with file := otherFile }
    obtain ⟨error, unusable⟩ :=
      isBroken.exists_error (Configuration.path environment.configurationPath?)
    have missing : formats.load absent = .ok {} := load_of_missing isMissing
    have never : ∀ reason, .defaultConfiguration reason ∉ (formats.run absent input).log :=
      fun reason member => unconfigured_of_missing missing _ member reason rfl
    cases arguments : formats.readMode environment.arguments with
    | error refusal =>
        have rejected : formats.readMode absent.arguments = .error refusal := arguments
        have same : formats.run environment input = formats.run absent input := by
          rw [run_of_rejected arguments, run_of_rejected rejected]
        dsimp only
        rw [same]
        exact ⟨rfl, rfl, rfl, fun _ _ => rfl, nofun, never⟩
    | ok mode =>
        have warned : formats.run environment input = { formats.run absent input with
            log := .defaultConfiguration error.message :: (formats.run absent input).log } :=
          run_of_broken unusable missing rfl arguments
        dsimp only
        rw [warned]
        exact ⟨rfl, rfl, rfl, nofun, fun _ _ => ⟨_, rfl⟩, never⟩
  · intro accepted
    dsimp only
    cases result : ((session (α := Float) (formats.configuration environment)).run input).result with
    | ok value =>
        rw [run_of_accepted accepted (run_divide_of_ok result)]
        exact ⟨fun _ => ⟨rfl, rfl⟩, nofun, by simp [Exit.code]⟩
    | error reason =>
        rw [run_of_accepted accepted (run_divide_of_error result)]
        refine ⟨nofun, fun other same => ?_, by simp [Exit.code]⟩
        cases same
        exact ⟨rfl, rfl⟩
  · intro accepted
    rw [run_of_accepted accepted rfl]
    exact ⟨rfl, rfl⟩
  · intro refusal rejected
    rw [run_of_rejected rejected]
    exact ⟨rfl, rfl, rfl⟩

/-- The file sets a degree limit before the setting that breaks it. The dividend is above that limit,
but it is the divisor that is refused. -/
theorem broken_configuration_ignored_of_partial_settings :
    let environment : Environment := ⟨["1"], some "settings.toml", fun _ =>
      .content "max_degree = 2\nshow_term_list = 7\n".toUTF8.data.toList⟩
    let absent : Environment := { environment with file := fun _ => .missing }
    let input := "x^3\n2x\n".toUTF8.data.toList
    standard.readMode environment.arguments = .ok .divide ∧
    (environment.file (Configuration.path environment.configurationPath?)).Broken
      standard.readConfiguration ∧
    absent.file (Configuration.path environment.configurationPath?) = .missing ∧
    (standard.run environment input).exit = (standard.run absent input).exit ∧
    (∃ reason, (standard.run environment input).log =
      .defaultConfiguration reason :: (standard.run absent input).log) ∧
    ((session (α := Float) (standard.configuration environment)).run input).result =
      .error (.expression (.invalidTerm "2x")) ∧
    (standard.run environment input).output = "Enter dividend: Enter divisor: \n".toList ∧
    (standard.run environment input).exit = .failure (.expression (.invalidTerm "2x")) ∧
    standard.readMode ["2"] = .error "expected 0 or 1, found 2" ∧
    (standard.run { environment with arguments := ["2"] } input).exit.errorLine? =
      some "expected 0 or 1, found 2" := by
  intro environment absent input
  have divides : standard.readMode environment.arguments = .ok .divide := rfl
  have broken : (environment.file (Configuration.path environment.configurationPath?)).Broken
      standard.readConfiguration :=
    @ConfigurationFile.Broken.malformed _ _ "max_degree = 2\nshow_term_list = 7\n" none rfl rfl
  have default : standard.configuration environment = {} := rfl
  have transcript : ((session (α := Float) {}).run "x^3\n2x\n".toUTF8.data.toList).result =
        .error (.expression (.invalidTerm "2x")) ∧
      ((session (α := Float) {}).run "x^3\n2x\n".toUTF8.data.toList).output =
        "Enter dividend: Enter divisor: ".toList := ⟨rfl, rfl⟩
  rw [← default] at transcript
  obtain ⟨failed, output⟩ := transcript
  obtain ⟨ignored, divided, _⟩ := broken_configuration_ignored standard environment input
  obtain ⟨exit, _, _, _, warned, _⟩ := ignored absent.file broken rfl
  obtain ⟨written, ended⟩ := (divided divides).2.1 _ failed
  have text : (standard.run environment input).output =
      "Enter dividend: Enter divisor: \n".toList := by
    rw [written, output]
    rfl
  have refused : standard.readMode ["2"] = .error "expected 0 or 1, found 2" := rfl
  obtain ⟨_, _, _, rejected⟩ :=
    broken_configuration_ignored standard { environment with arguments := ["2"] } input
  exact ⟨divides, broken, rfl, exit, warned _ divides, failed, text, ended, refused,
    (rejected _ refused).2.1⟩

end Program

end LongDivision
