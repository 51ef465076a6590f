import LongDivision.Dense.Division
import LongDivision.Expression.Error

/-!
The operands of a session, and why a session fails: in words for its user, and with all that belongs
to the cause for the log.
-/

namespace LongDivision

inductive Operand where
  | dividend
  | divisor
  deriving DecidableEq

def Operand.name : Operand → String
  | dividend => "dividend"
  | divisor => "divisor"

inductive SessionError where
  | expression (error : ExpressionError)
  | zeroDivisor
  | division (error : DivisionError)
  | missing (operand : Operand)
  | notText
  | outputFull
  deriving DecidableEq

namespace SessionError

def ofDivision : DivisionError → SessionError
  | .zeroDivisor => zeroDivisor
  | error => division error

def message : SessionError → String
  | expression error => error.message
  | zeroDivisor => "Divisor is not allowed to be 0"
  | division error => error.message
  | missing operand => "no " ++ operand.name ++ " was entered"
  | notText => undecoded
  | outputFull => "failed to write whole buffer"

/-- A fault of the terminal: its kind and its message. -/
def loggedFault (kind message : String) : String :=
  "Io(Error \x7b kind: " ++ kind ++ ", message: " ++ quoted message ++ " \x7d)"

def logged : SessionError → String
  | expression error => "Parse(" ++ error.logged ++ ")"
  | zeroDivisor => "DivisionByZero"
  | division error => "Division(" ++ error.logged ++ ")"
  | missing operand => "MissingInput(" ++ quoted operand.name ++ ")"
  | notText => loggedFault "InvalidData" notText.message
  | outputFull => loggedFault "WriteZero" outputFull.message

end SessionError

end LongDivision
