import LongDivision.Toml.Quoted
import LongDivision.Toml.Scalar

/-!
Documents in the format TOML 1.0: lines of keys with their values, under the headers of tables.
-/

namespace LongDivision.Toml

/-- Brackets and braces nest less deep than this, and dotted keys have fewer parts. -/
def nestingLimit : Nat := 79

def skipSpaces (text : List Char) : List Char :=
  text.dropWhile isSpace

/-- Skips blanks, line ends and comments. What is left starts with the first character that
belongs to none of them, which inside a comment is a forbidden one. -/
def skipLines (comment : Bool) : List Char → List Char
  | [] => []
  | '\n' :: rest => skipLines false rest
  | char :: rest =>
      if comment then if isPlain char then skipLines true rest else char :: rest
      else if isSpace char then skipLines false rest
      else if char = '#' then skipLines true rest
      else char :: rest

def isKeyChar (char : Char) : Bool :=
  char.isAlphanum || char == '_' || char == '-'

/-- Reads one part of a key, bare or quoted on one line. -/
def keyPart? : List Char → Option (String × List Char)
  | '"' :: rest => (basic rest).map fun (text, rest) => (String.ofList text, rest)
  | '\'' :: rest => (literal rest).map fun (text, rest) => (String.ofList text, rest)
  | text =>
      let part := text.takeWhile isKeyChar
      if part.isEmpty then none else some (String.ofList part, text.dropWhile isKeyChar)

/-- A key: the path of a dotted key and its last part. -/
structure Key where
  path : List String
  last : String

/-- Reads a key of a limited number of parts, and the blanks around it. -/
def key? : (parts : Nat) → List Char → Option (Key × List Char)
  | 0, _ => none
  | parts + 1, text => do
      let (part, rest) ← keyPart? (skipSpaces text)
      match skipSpaces rest with
      | '.' :: rest => do
          let (key, rest) ← key? parts rest
          return ({ key with path := part :: key.path }, rest)
      | rest => return (⟨[], part⟩, rest)

def keyEquals? (text : List Char) : Option (Key × List Char) := do
  let (key, rest) ← key? nestingLimit text
  match rest with
  | '=' :: rest => return (key, skipSpaces rest)
  | _ => none

/-- Reads a value without quotes or brackets. A date takes in a time of day behind one space. -/
def bare? (text : List Char) : Option (Value × List Char) :=
  let token := text.takeWhile isScalarChar
  let rest := text.dropWhile isScalarChar
  match rest with
  | ' ' :: next =>
      if isDate token && isZonedTime (next.takeWhile isScalarChar) then
        some (.dateTime, next.dropWhile isScalarChar)
      else (scalar? token).map (·, rest)
  | _ => (scalar? token).map (·, rest)

/-- Reads the items of an array up to its closing bracket. A comma may follow the last item. -/
def items? (item? : List Char → Option (Value × List Char)) :
    (count : Nat) → List Char → Option (List Value × List Char)
  | 0, _ => none
  | count + 1, text =>
      match skipLines false text with
      | ']' :: rest => some ([], rest)
      | text => do
          let (item, rest) ← item? text
          match skipLines false rest with
          | ']' :: rest => return ([item], rest)
          | ',' :: rest => do
              let (items, rest) ← items? item? count rest
              return (item :: items, rest)
          | _ => none

/-- Reads the entries of a table in braces, which stand on one line without a comma at the end. -/
def pairs? (item? : List Char → Option (Value × List Char)) :
    (count : Nat) → Entries → List Char → Option (Entries × List Char)
  | 0, _, _ => none
  | count + 1, entries, text => do
      let (key, rest) ← keyEquals? text
      let (item, rest) ← item? rest
      let entries ← entries.insert key.path key.last item
      match skipSpaces rest with
      | '}' :: rest => return (entries, rest)
      | ',' :: rest => pairs? item? count entries rest
      | _ => none

/-- Reads a value. Every item takes at least one character, which bounds the number of items. -/
def value? : (depth : Nat) → List Char → Option (Value × List Char)
  | 0, '[' :: _ => none
  | 0, '{' :: _ => none
  | depth + 1, '[' :: rest => do
      let (items, rest) ← items? (value? depth) rest.length rest
      return (.array items, rest)
  | depth + 1, '{' :: rest =>
      match skipSpaces rest with
      | '}' :: rest => return (.table .inline [], rest)
      | rest => do
          let (entries, rest) ← pairs? (value? depth) rest.length [] rest
          return (.table .inline entries, rest)
  | _, text =>
      if text.head? = some '"' || text.head? = some '\'' then
        (quoted? text).map fun (content, rest) => (.string (String.ofList content), rest)
      else bare? text

/-- The entries read so far and the header under which the next ones stand. -/
structure Document where
  entries : Entries
  header : List String

namespace Document

/-- Reads a header or a key with its value, and returns the rest of its line. -/
def statement? (document : Document) (text : List Char) : Option (Document × List Char) :=
  match text with
  | '[' :: '[' :: rest => do
      let (key, rest) ← key? nestingLimit rest
      match rest with
      | ']' :: ']' :: rest => do
          let entries ← document.entries.openTables key.path key.last
          return (⟨entries, key.path ++ [key.last]⟩, rest)
      | _ => none
  | '[' :: rest => do
      let (key, rest) ← key? nestingLimit rest
      match rest with
      | ']' :: rest => do
          let entries ← document.entries.openTable key.path key.last
          return (⟨entries, key.path ++ [key.last]⟩, rest)
      | _ => none
  | _ => do
      let (key, rest) ← keyEquals? text
      let (value, rest) ← value? nestingLimit rest
      let entries ← document.entries.atPath document.header fun table =>
        table.insert key.path key.last value
      return ({ document with entries }, rest)

def isLineEnd (text : List Char) : Bool :=
  match skipSpaces text with
  | [] => true
  | char :: _ => char == '\n' || char == '#'

/-- Reads all lines. Every statement takes at least one character. -/
def lines? : (count : Nat) → Document → List Char → Option Document
  | 0, document, text => if (skipLines false text).isEmpty then some document else none
  | count + 1, document, text =>
      match skipLines false text with
      | [] => some document
      | text => do
          let (document, rest) ← document.statement? text
          if isLineEnd rest then lines? count document rest else none

end Document

/-- Turns the two-character line ends into line feeds. -/
def unifyLineEnds : List Char → List Char
  | '\r' :: '\n' :: rest => '\n' :: unifyLineEnds rest
  | char :: rest => char :: unifyLineEnds rest
  | [] => []

def dropByteOrderMark : List Char → List Char
  | '\uFEFF' :: rest => rest
  | text => text

/-- The entries of a document, or nothing if the text is no document. -/
def parse? (text : List Char) : Option Entries :=
  let text := unifyLineEnds (dropByteOrderMark text)
  (Document.lines? text.length ⟨[], []⟩ text).map (·.entries)

end LongDivision.Toml
