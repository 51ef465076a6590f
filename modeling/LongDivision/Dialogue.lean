/-!
Dialogues: what a program says, reports and asks for, as a value. A dialogue can be held with a
given input, with an output that takes everything or only so many bytes, and by a terminal.
-/

namespace LongDivision

/-- A dialogue with results in `β`, failures in `ε` and reported events in `ω`. Each question takes
one line of input, in bytes and with its line end. -/
inductive Dialogue (ε ω β : Type) where
  | done (value : β)
  | fail (reason : ε)
  | write (text : String) (next : Dialogue ε ω β)
  | report (event : ω) (next : Dialogue ε ω β)
  | readLine (next : List UInt8 → Dialogue ε ω β)

structure Transcript (ε ω β : Type) where
  output : List Char
  events : List ω
  result : Except ε β

namespace Transcript

variable {ε ω β : Type}

def afterWriting (text : List Char) (transcript : Transcript ε ω β) : Transcript ε ω β :=
  { transcript with output := text ++ transcript.output }

def afterReporting (event : ω) (transcript : Transcript ε ω β) : Transcript ε ω β :=
  { transcript with events := event :: transcript.events }

end Transcript

def lineFeed : UInt8 := 10

/-- The first line of an input, up to and with its line feed. At the end of the input it is
empty. -/
def firstLine (input : List UInt8) : List UInt8 :=
  input.takeWhile (· ≠ lineFeed) ++ (input.dropWhile (· ≠ lineFeed)).take 1

def afterFirstLine (input : List UInt8) : List UInt8 :=
  (input.dropWhile (· ≠ lineFeed)).drop 1

theorem firstLine_append_afterFirstLine (input : List UInt8) :
    firstLine input ++ afterFirstLine input = input := by
  rw [firstLine, afterFirstLine, List.append_assoc, List.take_append_drop,
    List.takeWhile_append_dropWhile]

namespace Dialogue

variable {ε ω β γ : Type}

def andThen : Dialogue ε ω β → (β → Dialogue ε ω γ) → Dialogue ε ω γ
  | done value, next => next value
  | fail reason, _ => fail reason
  | write text rest, next => write text (rest.andThen next)
  | report event rest, next => report event (rest.andThen next)
  | readLine rest, next => readLine fun line => (rest line).andThen next

instance : Monad (Dialogue ε ω) where
  pure := done
  bind := andThen

def say (text : String) : Dialogue ε ω Unit :=
  write text (done ())

def log (event : ω) : Dialogue ε ω Unit :=
  report event (done ())

def logAll : List ω → Dialogue ε ω Unit
  | [] => done ()
  | event :: events => report event (logAll events)

def ask : Dialogue ε ω (List UInt8) :=
  readLine done

def ofExcept : Except ε β → Dialogue ε ω β
  | .ok value => done value
  | .error reason => fail reason

/-- Makes the outcome, failures included, the result of a dialogue. -/
def attempt {δ : Type} : Dialogue ε ω β → Dialogue δ ω (Except ε β)
  | done value => done (.ok value)
  | fail reason => done (.error reason)
  | write text rest => write text rest.attempt
  | report event rest => report event rest.attempt
  | readLine rest => readLine fun line => (rest line).attempt

/-- Holds a dialogue with a given input and an output that takes everything. -/
def run : Dialogue ε ω β → (input : List UInt8) → Transcript ε ω β
  | done value, _ => ⟨[], [], .ok value⟩
  | fail reason, _ => ⟨[], [], .error reason⟩
  | write text rest, input => (rest.run input).afterWriting text.toList
  | report event rest, input => (rest.run input).afterReporting event
  | readLine rest, input => (rest (firstLine input)).run (afterFirstLine input)

/-- Holds a dialogue whose output takes only `limit` bytes in all. A text that does not fit is kept
up to the limit and ends the dialogue with the failure `full`. Texts are plain ASCII, one byte a
character. -/
def runLimited (full : ε) : Dialogue ε ω β → (limit : Nat) → (input : List UInt8) →
    Transcript ε ω β
  | done value, _, _ => ⟨[], [], .ok value⟩
  | fail reason, _, _ => ⟨[], [], .error reason⟩
  | write text rest, limit, input =>
      if text.length ≤ limit then
        (rest.runLimited full (limit - text.length) input).afterWriting text.toList
      else ⟨text.toList.take limit, [], .error full⟩
  | report event rest, limit, input => (rest.runLimited full limit input).afterReporting event
  | readLine rest, limit, input =>
      (rest (firstLine input)).runLimited full limit (afterFirstLine input)

end Dialogue

end LongDivision
