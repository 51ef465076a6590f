import LongDivision.Toml.Value

/-!
Values written without quotes or brackets: integers, floating-point numbers, booleans and dates.
Each is judged as a whole token.
-/

namespace LongDivision.Toml

/-- Digits, where single underscores may stand between two of them. The underscores are left
out. -/
def groupedDigits? (isDigit : Char → Bool) : List Char → Option (List Char)
  | [] => none
  | [digit] => if isDigit digit then some [digit] else none
  | digit :: '_' :: rest =>
      if isDigit digit then (groupedDigits? isDigit rest).map (digit :: ·) else none
  | digit :: rest =>
      if isDigit digit then (groupedDigits? isDigit rest).map (digit :: ·) else none

def digitValue (digit : Char) : Nat :=
  if digit.isDigit then digit.toNat - '0'.toNat
  else digit.toLower.toNat - 'a'.toNat + 10

def digitsValue (base : Nat) (digits : List Char) : Nat :=
  digits.foldl (fun value digit => value * base + digitValue digit) 0

def isDigitBelow (base : Nat) (char : Char) : Bool :=
  (char.isDigit || char.isAlpha) && digitValue char < base

def splitSign : List Char → Bool × List Char
  | '-' :: rest => (true, rest)
  | '+' :: rest => (false, rest)
  | rest => (false, rest)

/-- The digits of a decimal number without superfluous leading zeros. -/
def decimal? (text : List Char) : Option (List Char) :=
  (groupedDigits? Char.isDigit text).filter fun digits => digits.length = 1 || digits.head? ≠ some '0'

/-- Integers are signed 64-bit; a base other than ten takes no sign. -/
def integer? (text : List Char) : Option Int :=
  let unsigned (base : Nat) (digits : List Char) : Option Int :=
    (groupedDigits? (isDigitBelow base) digits).map fun digits => (digitsValue base digits : Int)
  let integer := match text with
    | '0' :: 'x' :: digits => unsigned 16 digits
    | '0' :: 'o' :: digits => unsigned 8 digits
    | '0' :: 'b' :: digits => unsigned 2 digits
    | _ =>
        let (negative, digits) := splitSign text
        (decimal? digits).map fun digits =>
          if negative then -(digitsValue 10 digits : Int) else digitsValue 10 digits
  integer.filter fun integer => -(Nat.pow 2 63 : Int) ≤ integer && integer < Nat.pow 2 63

/-- Whether `digits * 10 ^ exponent` rounds beyond the greatest floating-point number. Numbers of
far different magnitude are told apart by their number of digits. -/
def overflows (digits : Nat) (exponent : Int) : Bool :=
  let bound := Nat.pow 2 1024 - Nat.pow 2 970
  let magnitude := (Nat.toDigits 10 digits).length + exponent
  if digits = 0 || magnitude < 300 then false
  else if 320 < magnitude then true
  else if 0 ≤ exponent then bound ≤ digits * Nat.pow 10 exponent.toNat
  else bound * Nat.pow 10 (-exponent).toNat ≤ digits

/-- A fraction: a point and at least one digit, or nothing. -/
def fraction? : List Char → Option (List Char × List Char)
  | '.' :: rest =>
      let isPart (char : Char) := char.isDigit || char == '_'
      (groupedDigits? Char.isDigit (rest.takeWhile isPart)).map fun digits =>
        (digits, rest.dropWhile isPart)
  | rest => some ([], rest)

/-- An exponent: the letter, an optional sign and at least one digit, or nothing. -/
def exponent? : List Char → Option Int
  | [] => some 0
  | letter :: rest =>
      if letter = 'e' || letter = 'E' then
        let (negative, digits) := splitSign rest
        (groupedDigits? Char.isDigit digits).map fun digits =>
          if negative then -(digitsValue 10 digits : Int) else digitsValue 10 digits
      else none

/-- A number with a fraction or an exponent. One that rounds to infinity is accepted only below
zero. -/
def isFloat (text : List Char) : Bool :=
  let (negative, number) := splitSign text
  let isPart (char : Char) := char.isDigit || char == '_'
  if number = ['i', 'n', 'f'] || number = ['n', 'a', 'n'] then true
  else if (number.dropWhile isPart).isEmpty then false
  else
    let accepted := do
      let whole ← decimal? (number.takeWhile isPart)
      let (fraction, rest) ← fraction? (number.dropWhile isPart)
      let exponent ← exponent? rest
      return negative || !overflows (digitsValue 10 (whole ++ fraction)) (exponent - fraction.length)
    accepted == some true

def fixed? (digits : List Char) : Option Nat :=
  if digits.all Char.isDigit then some (digitsValue 10 digits) else none

def daysInMonth (year month : Nat) : Nat :=
  if month = 2 then
    if year % 4 = 0 && (year % 100 ≠ 0 || year % 400 = 0) then 29 else 28
  else if month = 4 || month = 6 || month = 9 || month = 11 then 30
  else 31

/-- Reads a date of the calendar and returns what follows it. -/
def afterDate? : List Char → Option (List Char)
  | y₁ :: y₂ :: y₃ :: y₄ :: '-' :: m₁ :: m₂ :: '-' :: d₁ :: d₂ :: rest => do
      let year ← fixed? [y₁, y₂, y₃, y₄]
      let month ← fixed? [m₁, m₂]
      let day ← fixed? [d₁, d₂]
      if 1 ≤ month && month ≤ 12 && 1 ≤ day && day ≤ daysInMonth year month then some rest else none
  | _ => none

/-- Reads a time of day, whose seconds may be those of a leap second and may have a fraction. -/
def afterTime? : List Char → Option (List Char)
  | h₁ :: h₂ :: ':' :: m₁ :: m₂ :: ':' :: s₁ :: s₂ :: rest => do
      let hour ← fixed? [h₁, h₂]
      let minute ← fixed? [m₁, m₂]
      let second ← fixed? [s₁, s₂]
      if hour ≤ 23 && minute ≤ 59 && second ≤ 60 then
        match rest with
        | '.' :: digits =>
            if (digits.takeWhile Char.isDigit).isEmpty then none
            else some (digits.dropWhile Char.isDigit)
        | _ => some rest
      else none
  | _ => none

/-- Nothing, the letter for Greenwich, or a signed number of hours and minutes. -/
def isOffset : List Char → Bool
  | [] => true
  | [letter] => letter == 'Z' || letter == 'z'
  | [sign, h₁, h₂, ':', m₁, m₂] =>
      (sign == '+' || sign == '-') && (fixed? [h₁, h₂]).any (· ≤ 23) && (fixed? [m₁, m₂]).any (· ≤ 59)
  | _ => false

def isDate (text : List Char) : Bool :=
  afterDate? text == some []

def isZonedTime (text : List Char) : Bool :=
  (afterTime? text).any isOffset

def isDateTime (text : List Char) : Bool :=
  isDate text || afterTime? text == some [] ||
    match afterDate? text with
    | some (letter :: time) => (letter == 'T' || letter == 't') && isZonedTime time
    | _ => false

def isScalarChar (char : Char) : Bool :=
  char.isAlphanum || char == '_' || char == '+' || char == '-' || char == '.' || char == ':'

def scalar? (text : List Char) : Option Value :=
  if text = ['t', 'r', 'u', 'e'] then some (.boolean true)
  else if text = ['f', 'a', 'l', 's', 'e'] then some (.boolean false)
  else if isDateTime text then some .dateTime
  else if isFloat text then some .float
  else (integer? text).map Value.integer

end LongDivision.Toml
