import LongDivision.Dense.Text
import LongDivision.Expression.Term
import LongDivision.Session.Error

/-!
Events that a run reports beside its output, their levels and their log lines.
-/

namespace LongDivision

/-- How urgent an event is, most urgent first. -/
inductive Level where
  | warn
  | info
  | debug
  | trace
  deriving DecidableEq

namespace Level

def rank : Level → Nat
  | warn => 0
  | info => 1
  | debug => 2
  | trace => 3

def name : Level → String
  | warn => "WARN"
  | info => "INFO"
  | debug => "DEBUG"
  | trace => "TRACE"

end Level

inductive Event (α : Type) where
  | termRead (term : Expression.ReadTerm)
  /-- A step of a long division is done. -/
  | divisionStep (step : DivisionStep α)
  /-- Two sums are merged: the powers that occurred and the terms that are left. -/
  | sumsMerged (distinct kept : Nat)
  /-- An operand is known. -/
  | operandRead (operand : Operand) (terms : Nat)
  | dividing (dividend divisor : Dense α)
  /-- The sum of the operands is the same in both forms. -/
  | sumsAgree
  | sumsDisagree (termwise dense : Dense α)
  /-- The configuration file is unusable. -/
  | defaultConfiguration (reason : String)
  | sessionFailed (error : SessionError)
  deriving DecidableEq

namespace Event

variable {α : Type}

/-- What is reported about the merging of two sums: all powers that occur in them, and the terms that
are left. -/
def ofMerge [Zero α] [Add α] [BEq α] (left right : TermSum α) : Event α :=
  .sumsMerged (left.distinctPowers right) (left.merge right).size

def level : Event α → Level
  | termRead _ => .trace
  | divisionStep _ => .trace
  | sumsMerged _ _ => .debug
  | operandRead _ _ => .debug
  | dividing _ _ => .info
  | sumsAgree => .debug
  | sumsDisagree _ _ => .warn
  | defaultConfiguration _ => .warn
  | sessionFailed _ => .debug

def message : Event α → String
  | termRead _ => "parsed term"
  | divisionStep _ => "long division step"
  | sumsMerged _ _ => "accumulated term lists"
  | operandRead _ _ => "parsed input"
  | dividing _ _ => "dividing"
  | sumsAgree => "term list sum agrees with dense sum"
  | sumsDisagree _ _ => "term list sum disagrees with dense sum"
  | defaultConfiguration _ => "using default configuration"
  | sessionFailed _ => "session failed"

variable [Zero α] [BEq α] [IntCast α] [Written α]

/-- The named values of an event, in the order in which they are written. -/
def fields : Event α → List (String × String)
  | termRead term =>
      [("token", quoted term.token), ("coeff", Written.logged (term.coeff : α)),
        ("exponent", toString term.exponent)]
  | divisionStep step =>
      [("term", step.term.text), ("remainder_degree", toString step.remainderDegree)]
  | sumsMerged distinct kept => [("distinct", toString distinct), ("kept", toString kept)]
  | operandRead operand terms => [("what", quoted operand.name), ("terms", toString terms)]
  | dividing dividend divisor =>
      [("dividend", dividend.render), ("divisor", divisor.render)]
  | sumsAgree => []
  | sumsDisagree termwise dense => [("term_list", termwise.text), ("dense", dense.text)]
  | defaultConfiguration reason => [("error", reason)]
  | sessionFailed error => [("error", error.logged)]

def line (event : Event α) : String :=
  let fields := event.fields.map fun (name, value) => name ++ "=" ++ value
  " ".intercalate (event.level.name :: event.message :: fields)

end Event

end LongDivision
