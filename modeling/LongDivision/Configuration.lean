import LongDivision.Event
import LongDivision.Expression
import LongDivision.Toml.Document

/-!
The settings of a run and the file they are read from. Every setting has a default, and a missing
file sets nothing.
-/

namespace LongDivision

inductive Verbosity where
  | quiet
  | warn
  | info
  | debug
  | trace
  deriving DecidableEq

namespace Verbosity

def name : Verbosity → String
  | quiet => "quiet"
  | warn => "warn"
  | info => "info"
  | debug => "debug"
  | trace => "trace"

def ofName? (name : String) : Option Verbosity :=
  [quiet, warn, info, debug, trace].find? (·.name == name)

def level? : Verbosity → Option Level
  | quiet => none
  | warn => some .warn
  | info => some .info
  | debug => some .debug
  | trace => some .trace

def admits (verbosity : Verbosity) (level : Level) : Bool :=
  verbosity.level?.any fun least => level.rank ≤ least.rank

end Verbosity

structure Configuration where
  verbosity : Verbosity := .warn
  maxDegree : Nat := Expression.defaultLimit
  /-- Whether the sum of the operands is written term by term. -/
  showTermSum : Bool := true
  /-- Whether the two forms of that sum are compared. -/
  crossCheck : Bool := true
  deriving DecidableEq

/-- What stands at the path of a configuration. -/
inductive ConfigurationFile where
  | missing
  /-- Something is there, but reading it fails. -/
  | unreadable (cause : String)
  | content (bytes : List UInt8)

def ConfigurationFile.directory : ConfigurationFile :=
  unreadable "Is a directory (os error 21)"

inductive ConfigurationError where
  | unreadable (path cause : String)
  /-- The text is no configuration, and its reader may say why. -/
  | malformed (path : String) {reason? : Option String}
  deriving DecidableEq

def ConfigurationError.message : ConfigurationError → String
  | unreadable path cause => "cannot read " ++ path ++ ": " ++ cause
  | @malformed path reason? => "cannot parse " ++ path ++ (reason?.map (": " ++ ·)).getD ""

namespace Configuration

def defaultPath : String := "longdiv.toml"

def pathVariable : String := "LONGDIV_CONFIG"

def path (override : Option String) : String :=
  override.getD defaultPath

/-- A verbosity is named by a string. A table with the name as its only key, and with nothing
under it, names it as well. -/
def verbosity? : Toml.Value → Option Verbosity
  | .string name => Verbosity.ofName? name
  | .table _ [(name, .table _ [])] => Verbosity.ofName? name
  | .table _ [(name, .array [])] => Verbosity.ofName? name
  | _ => none

def degree? : Toml.Value → Option Nat
  | .integer number =>
      if 0 ≤ number ∧ number ≤ Expression.greatestExponent then some number.toNat else none
  | _ => none

def boolean? : Toml.Value → Option Bool
  | .boolean value => some value
  | _ => none

/-- The setting under a key: its default when there is no such key, nothing when the value is
none for this setting. -/
def setting {β : Type} (entries : Toml.Entries) (key : String) (read? : Toml.Value → Option β)
    (default : β) : Option β :=
  match entries.get? key with
  | none => some default
  | some value => read? value

/-- The configuration with the given entries. Unknown keys do not count. -/
def ofEntries? (entries : Toml.Entries) : Option Configuration := do
  let verbosity ← setting entries "verbosity" verbosity? .warn
  let maxDegree ← setting entries "max_degree" degree? Expression.defaultLimit
  let showTermSum ← setting entries "show_term_list" boolean? true
  let crossCheck ← setting entries "cross_check" boolean? true
  return { verbosity, maxDegree, showTermSum, crossCheck }

def parse? (text : String) : Option Configuration := do
  let entries ← Toml.parse? text.toList
  ofEntries? entries

/-- What is wrong with a text that holds no configuration is not told. -/
def read (text : String) : Except (Option String) Configuration :=
  match parse? text with
  | none => .error none
  | some configuration => .ok configuration

/-- Loads a configuration with a given reader of texts. -/
def loadWith (read : String → Except (Option String) Configuration) (path : String) :
    ConfigurationFile → Except ConfigurationError Configuration
  | .missing => .ok {}
  | .unreadable cause => .error (.unreadable path cause)
  | .content bytes =>
      match String.fromUTF8? bytes.toByteArray with
      | none => .error (.unreadable path undecoded)
      | some text => (read text).mapError fun reason? => @ConfigurationError.malformed path reason?

def load : String → ConfigurationFile → Except ConfigurationError Configuration :=
  loadWith read

end Configuration

end LongDivision
