import LongDivision.Coefficient.Binary64
import LongDivision.Session

/-!
The command line: one argument says whether to identify the program or to hold a session.
-/

namespace LongDivision

inductive Mode where
  | identify
  | divide
  deriving DecidableEq

/-- The mode that the arguments name: exactly one, besides a mark that ends the options. There are
no options. Arguments that are refused are repeated. -/
def Mode.ofArguments (arguments : List String) : Except String Mode :=
  match arguments.erase "--" with
  | ["0"] => .ok identify
  | ["1"] => .ok divide
  | [] => .error "expected 0 or 1"
  | others => .error ("expected 0 or 1, found " ++ " ".intercalate others)

namespace Program

/-- How arguments and configurations are written. The program is given a reader of each, and tells
what they say of what they refuse. -/
structure Formats where
  readMode : List String → Except String Mode
  readConfiguration : String → Except (Option String) Configuration

def standard : Formats := ⟨Mode.ofArguments, Configuration.read⟩

/-- What a run starts from, besides its input. -/
structure Environment where
  arguments : List String
  configurationPath? : Option String
  /-- What stands at a path. -/
  file : String → ConfigurationFile

inductive Exit where
  | success
  /-- The arguments are refused. -/
  | usage {refusal : String}
  | failure (error : SessionError)
  deriving DecidableEq

namespace Exit

def code : Exit → Nat
  | success => 0
  | usage => 1
  | failure _ => 1

/-- The line at the end of the error output. -/
def errorLine? : Exit → Option String
  | success => none
  | @usage refusal => some refusal
  | failure error => some error.message

end Exit

def identification : String := "longdiv 0.1.0\n"

/-- A dialogue that handles all its failures. -/
abbrev ProgramDialogue := Dialogue Empty (Event Float)

/-- Holds a session. After a failure the line of the last prompt is ended. -/
def divide (configuration : Configuration) : ProgramDialogue Exit := do
  match ← (session (α := Float) configuration).attempt with
  | .ok () => return .success
  | .error error =>
      Dialogue.log (.sessionFailed error)
      Dialogue.say "\n"
      return .failure error

def perform (configuration : Configuration) : Mode → ProgramDialogue Exit
  | .identify => do
      Dialogue.say identification
      return .success
  | .divide => divide configuration

structure Outcome where
  exit : Exit
  output : List Char
  log : List (Event Float)

namespace Formats

variable (formats : Formats) (environment : Environment)

def load : Except ConfigurationError Configuration :=
  let path := Configuration.path environment.configurationPath?
  Configuration.loadWith formats.readConfiguration path (environment.file path)

/-- The settings of the run: the defaults, if the configuration file is unusable. -/
def configuration : Configuration :=
  match formats.load environment with
  | .ok configuration => configuration
  | .error _ => {}

def warnings : List (Event Float) :=
  match formats.load environment with
  | .ok _ => []
  | .error error => [.defaultConfiguration error.message]

/-- The whole program. The arguments are judged before the configuration is loaded. -/
def dialogue : ProgramDialogue Exit :=
  match formats.readMode environment.arguments with
  | .error refusal => return @Exit.usage refusal
  | .ok mode => do
      Dialogue.logAll (formats.warnings environment)
      perform (formats.configuration environment) mode

def run (input : List UInt8) : Outcome :=
  let transcript := (formats.dialogue environment).run input
  match transcript.result with
  | .ok exit =>
      { exit
        output := transcript.output
        log := transcript.events.filter fun event =>
          (formats.configuration environment).verbosity.admits event.level }

end Formats

def run : Environment → List UInt8 → Outcome := standard.run

end Program

end LongDivision
