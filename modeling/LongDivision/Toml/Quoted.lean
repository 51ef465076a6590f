/-!
Quoted text, on one line or on several, with escapes between double quotes and literal between
single ones. Each reader starts behind the opening quotes and returns the text and what follows
the closing quotes. Lines end with a line feed.
-/

namespace LongDivision.Toml

/-- A character that may stand for itself: no control character but the tab. -/
def isPlain (char : Char) : Bool :=
  char == '\t' || (0x20 ≤ char.toNat && char.toNat ≠ 0x7F)

def isSpace (char : Char) : Bool :=
  char == ' ' || char == '\t'

def escape? : Char → Option Char
  | 'b' => some (Char.ofNat 0x08)
  | 't' => some '\t'
  | 'n' => some '\n'
  | 'f' => some (Char.ofNat 0x0C)
  | 'r' => some '\r'
  | '"' => some '"'
  | '\\' => some '\\'
  | _ => none

def hexDigit? (digit : Char) : Option Nat :=
  if digit.isDigit then some (digit.toNat - '0'.toNat)
  else if 'a' ≤ digit && digit ≤ 'f' then some (digit.toNat - 'a'.toNat + 10)
  else if 'A' ≤ digit && digit ≤ 'F' then some (digit.toNat - 'A'.toNat + 10)
  else none

def codePoint? (digits : List Char) : Option Char := do
  let values ← digits.mapM hexDigit?
  let code := values.foldl (fun code value => code * 16 + value) 0
  if code.isValidChar then some (Char.ofNat code) else none

def consText (char : Char) (read : Option (List Char × List Char)) :
    Option (List Char × List Char) :=
  read.map fun (text, rest) => (char :: text, rest)

def basic : List Char → Option (List Char × List Char)
  | [] => none
  | '"' :: rest => some ([], rest)
  | '\\' :: 'u' :: a :: b :: c :: d :: rest => do
      let char ← codePoint? [a, b, c, d]
      consText char (basic rest)
  | '\\' :: 'U' :: a :: b :: c :: d :: e :: f :: g :: h :: rest => do
      let char ← codePoint? [a, b, c, d, e, f, g, h]
      consText char (basic rest)
  | '\\' :: letter :: rest => do
      let char ← escape? letter
      consText char (basic rest)
  | char :: rest => if isPlain char && char ≠ '\\' then consText char (basic rest) else none

def literal : List Char → Option (List Char × List Char)
  | [] => none
  | '\'' :: rest => some ([], rest)
  | char :: rest => if isPlain char then consText char (literal rest) else none

/-- Where a reader of several lines stands with respect to a backslash at the end of a line. Behind
it, only blanks may precede the end of the line, and all blanks and line ends after it are
skipped. -/
inductive Continuation where
  | none
  | lineEnd
  | indent

/-- Text on several lines, up to three double quotes. One or two more quotes in front of the
closing ones belong to the text. -/
def multilineBasic : Continuation → List Char → Option (List Char × List Char)
  | _, [] => .none
  | .lineEnd, '\n' :: rest => multilineBasic .indent rest
  | .lineEnd, char :: rest => if isSpace char then multilineBasic .lineEnd rest else .none
  | .indent, '\n' :: rest => multilineBasic .indent rest
  | .indent, ' ' :: rest => multilineBasic .indent rest
  | .indent, '\t' :: rest => multilineBasic .indent rest
  | _, '"' :: '"' :: '"' :: '"' :: '"' :: rest => some (['"', '"'], rest)
  | _, '"' :: '"' :: '"' :: '"' :: rest => some (['"'], rest)
  | _, '"' :: '"' :: '"' :: rest => some ([], rest)
  | _, '\\' :: 'u' :: a :: b :: c :: d :: rest => do
      let char ← codePoint? [a, b, c, d]
      consText char (multilineBasic .none rest)
  | _, '\\' :: 'U' :: a :: b :: c :: d :: e :: f :: g :: h :: rest => do
      let char ← codePoint? [a, b, c, d, e, f, g, h]
      consText char (multilineBasic .none rest)
  | _, '\\' :: '\n' :: rest => multilineBasic .indent rest
  | _, '\\' :: letter :: rest =>
      if isSpace letter then multilineBasic .lineEnd rest
      else do
        let char ← escape? letter
        consText char (multilineBasic .none rest)
  | _, char :: rest =>
      if (isPlain char && char ≠ '\\') || char = '\n' then
        consText char (multilineBasic .none rest)
      else .none

/-- Literal text on several lines, up to three single quotes. One or two more quotes in front of
the closing ones belong to the text. -/
def multilineLiteral : List Char → Option (List Char × List Char)
  | [] => none
  | '\'' :: '\'' :: '\'' :: '\'' :: '\'' :: rest => some (['\'', '\''], rest)
  | '\'' :: '\'' :: '\'' :: '\'' :: rest => some (['\''], rest)
  | '\'' :: '\'' :: '\'' :: rest => some ([], rest)
  | char :: rest =>
      if isPlain char || char = '\n' then consText char (multilineLiteral rest) else none

/-- A line end right behind the opening quotes of several lines is no part of the text. -/
def dropFirstLineEnd : List Char → List Char
  | '\n' :: rest => rest
  | text => text

/-- Reads quoted text of any kind, from its opening quotes on. -/
def quoted? : List Char → Option (List Char × List Char)
  | '"' :: '"' :: '"' :: rest => multilineBasic .none (dropFirstLineEnd rest)
  | '\'' :: '\'' :: '\'' :: rest => multilineLiteral (dropFirstLineEnd rest)
  | '"' :: rest => basic rest
  | '\'' :: rest => literal rest
  | _ => none

end LongDivision.Toml
