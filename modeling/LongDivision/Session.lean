import LongDivision.Configuration
import LongDivision.Dialogue

/-!
A session asks for a dividend and a divisor, divides them in the dense form, and then adds them up
in both forms.
-/

namespace LongDivision

/-- A dialogue with coefficients in `α`. -/
abbrev SessionDialogue (α : Type) := Dialogue SessionError (Event α)

def Operand.prompt (operand : Operand) : String :=
  "Enter " ++ operand.name ++ ": "

namespace Session

variable {α : Type} [Zero α] [One α] [Neg α] [Add α] [Mul α] [Div α] [BEq α] [IntCast α] [Written α]

/-- Reads an operand from one line of input. The accepted terms are reported even if a later one
is refused. -/
def readOperand (limit : Nat) (operand : Operand) : SessionDialogue α (TermMap α) := do
  let line ← Dialogue.ask
  if line.isEmpty then Dialogue.fail (.missing operand)
  else
    match String.fromUTF8? line.toByteArray with
    | none => Dialogue.fail .notText
    | some text =>
        Dialogue.logAll ((Expression.accepted limit text.toList).map Event.termRead)
        Dialogue.ofExcept ((Expression.parse limit text.toList).mapError .expression)

def promptOperand (operand : Operand) (answer : SessionDialogue α (TermMap α)) :
    SessionDialogue α (TermMap α) := do
  Dialogue.say operand.prompt
  let terms ← answer
  Dialogue.log (.operandRead operand terms.size)
  return terms

/-- What the comparison of the two sums reports. They agree when their difference is zero. -/
def compareSums (termwise : TermSum α) (dense : Dense α) : Event α :=
  if (termwise.toDense - dense).isZero then .sumsAgree else .sumsDisagree termwise.toDense dense

def divisionText (division : Division α) : List String :=
  ["Method 1: Dense Array\n", "Quotient = " ++ division.quotient.render ++ "\n",
    "Remainder = " ++ division.remainder.render ++ "\n"]

def termSumText (sum : TermSum α) : List String :=
  ["Method 2: Term List\n", sum.text]

def sayAll : List String → SessionDialogue α Unit
  | [] => Dialogue.done ()
  | text :: texts => Dialogue.write text (sayAll texts)

/-- Adds the operands up term by term, compares the sum with the dense one and writes it, as far as
that is asked for. -/
def addUp (configuration : Configuration) (dividend divisor : TermMap α) :
    SessionDialogue α Unit := do
  if configuration.showTermSum || configuration.crossCheck then
    let left := dividend.toTermSum
    let right := divisor.toTermSum
    let sum := left.merge right
    Dialogue.log (.ofMerge left right)
    if configuration.crossCheck then
      Dialogue.log (compareSums sum (dividend.toDense + divisor.toDense))
    if configuration.showTermSum then
      sayAll (termSumText sum)

def divideOperands (configuration : Configuration) (dividend divisor : TermMap α) :
    SessionDialogue α Unit := do
  Dialogue.log (.dividing dividend.toDense divisor.toDense)
  let division ← Dialogue.ofExcept
    ((dividend.toDense.divide divisor.toDense).mapError SessionError.ofDivision)
  Dialogue.logAll (division.steps.map Event.divisionStep)
  sayAll (divisionText division)
  addUp configuration dividend divisor

/-- A session whose operands are answered by given dialogues. -/
def withAnswers (configuration : Configuration) (dividend divisor : SessionDialogue α (TermMap α)) :
    SessionDialogue α Unit := do
  let dividend ← promptOperand .dividend dividend
  let divisor ← promptOperand .divisor divisor
  divideOperands configuration dividend divisor

end Session

/-- The session that reads its operands from the input. -/
def session {α : Type} [Zero α] [One α] [Neg α] [Add α] [Mul α] [Div α] [BEq α] [IntCast α]
    [Written α] (configuration : Configuration) : SessionDialogue α Unit :=
  Session.withAnswers configuration
    (Session.readOperand configuration.maxDegree .dividend)
    (Session.readOperand configuration.maxDegree .divisor)

end LongDivision
