/-!
Values of configuration files in the format TOML 1.0, and the rules by which keys add to tables.
-/

namespace LongDivision.Toml

/-- How a table came to be, which decides what may still be added to it. -/
inductive Origin where
  /-- Written out in braces: it is complete. -/
  | inline
  | header
  /-- Passed through by the header of another table. -/
  | implied
  | dotted
  deriving DecidableEq

/-- A value. Numbers with a fraction and dates are checked for their form; their content is not
kept. -/
inductive Value where
  | string (text : String)
  | integer (number : Int)
  | float
  | boolean (value : Bool)
  | dateTime
  | array (items : List Value)
  | table (origin : Origin) (entries : List (String × Value))
  /-- Tables that share a header, the latest first. -/
  | tables (latest : List (String × Value)) (earlier : List (List (String × Value)))

/-- The entries of a table, in the order in which they were written. -/
abbrev Entries := List (String × Value)

namespace Entries

def get? (entries : Entries) (key : String) : Option Value :=
  entries.lookup key

/-- Puts a value under a key, in the place of the old value if there is one. -/
def set (entries : Entries) (key : String) (value : Value) : Entries :=
  match entries with
  | [] => [(key, value)]
  | (found, old) :: rest =>
      if found = key then (key, value) :: rest else (found, old) :: set rest key value

/-- Puts a value under a key path. The tables on the way are made as needed; ones that were opened
by a header or written in braces take no dotted keys. The table that takes the value must be the
`home` of the key itself or made of dotted keys. -/
def insertDotted (entries : Entries) (path : List String) (key : String) (value : Value)
    (home : Bool) : Option Entries :=
  match path with
  | [] =>
      if home && (entries.get? key).isNone then some (entries.set key value) else none
  | first :: path =>
      match entries.get? first with
      | none => do
          let inner ← insertDotted [] path key value true
          return entries.set first (.table .dotted inner)
      | some (.table origin inner) =>
          if origin = .inline || origin = .header then none
          else do
            let inner ← insertDotted inner path key value (origin == .dotted)
            return entries.set first (.table origin inner)
      | some (.tables latest earlier) => do
          let latest ← insertDotted latest path key value false
          return entries.set first (.tables latest earlier)
      | some _ => none

def insert (entries : Entries) (path : List String) (key : String) (value : Value) :
    Option Entries :=
  entries.insertDotted path key value true

/-- Changes the table that a header path leads to, through the latest of tables that share a
header. Missing tables on the way are implied. -/
def atPath (entries : Entries) (path : List String) (change : Entries → Option Entries) :
    Option Entries :=
  match path with
  | [] => change entries
  | first :: path =>
      match entries.get? first with
      | none => do
          let inner ← atPath [] path change
          return entries.set first (.table .implied inner)
      | some (.table .inline _) => none
      | some (.table origin inner) => do
          let inner ← atPath inner path change
          return entries.set first (.table origin inner)
      | some (.tables latest earlier) => do
          let latest ← atPath latest path change
          return entries.set first (.tables latest earlier)
      | some _ => none

/-- Opens the table of a header. Only a table that other headers passed through may exist. -/
def openTable (entries : Entries) (path : List String) (key : String) : Option Entries :=
  entries.atPath path fun parent =>
    match parent.get? key with
    | none => some (parent.set key (.table .header []))
    | some (.table .implied inner) => some (parent.set key (.table .header inner))
    | some _ => none

def openTables (entries : Entries) (path : List String) (key : String) : Option Entries :=
  entries.atPath path fun parent =>
    match parent.get? key with
    | none => some (parent.set key (.tables [] []))
    | some (.tables latest earlier) => some (parent.set key (.tables [] (latest :: earlier)))
    | some _ => none

end Entries

end LongDivision.Toml
