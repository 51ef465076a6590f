import LongDivision.Proofs.Expression.Grammar

/-! Readers that take something off the front of a text, and a reader of terms that is put together
from them. It tries the forms of a term in a fixed order, an exponent is optional, and a number that
does not fit is refused where it stands. Read to its end, a text is the term that `term?` reads.
-/

namespace LongDivision.Expression

/-- What is taken off the front of a text, and the text that is left. -/
abbrev Reader (β : Type) := List Char → Option (β × List Char)

namespace Reader

variable {β γ : Type}

def char (expected : Char) : Reader Char
  | [] => none
  | first :: rest => if first = expected then some (first, rest) else none

/-- One or more digits, as many as there are. -/
def digits : Reader (List Char) := fun text =>
  let front := text.takeWhile Char.isDigit
  if front.isEmpty then none else some (front, text.dropWhile Char.isDigit)

def both (first : Reader β) (second : Reader γ) : Reader (β × γ) := fun text => do
  let (left, middle) ← first text
  let (right, rest) ← second middle
  return ((left, right), rest)

def map (reader : Reader β) (f : β → γ) : Reader γ := fun text => do
  let (value, rest) ← reader text
  return (f value, rest)

/-- What a conversion makes of the value. Without a result of the conversion nothing is taken. -/
def convert (reader : Reader β) (convert? : β → Option γ) : Reader γ := fun text => do
  let (value, rest) ← reader text
  let converted ← convert? value
  return (converted, rest)

def optional (reader : Reader β) : Reader (Option β) := fun text =>
  match reader text with
  | some (value, rest) => some (some value, rest)
  | none => some (none, text)

/-- The characters that are taken, whatever they are read as. -/
def taken (reader : Reader β) : Reader (List Char) := fun text => do
  let (_, rest) ← reader text
  return (text.take (text.length - rest.length), rest)

/-- The first of some readers that takes something. The readers after it are not tried, whatever is
left of the text. -/
def firstOf : List (Reader β) → Reader β
  | [], _ => none
  | reader :: readers, text => (reader text).orElse fun _ => firstOf readers text

/-- Reads a text to its end. -/
def whole (reader : Reader β) (text : List Char) : Option β :=
  match reader text with
  | some (value, []) => some value
  | _ => none

/-- A signed integer that fits into 64 bits. -/
def integer : Reader Int :=
  (taken (both (optional (char '-')) digits)).convert integer?

/-- An unsigned integer that fits into 32 bits. -/
def unsigned : Reader Nat :=
  digits.convert exponent?

/-- The exponent of `x` or of `x^` with a number. Where no number follows that fits, only the `x` is
taken. -/
def power : Reader Nat :=
  (both (char 'x') (optional (both (char '^') unsigned))).map fun (_, raised) =>
    (raised.map Prod.snd).getD 1

def multiple : Reader (Int × Nat) :=
  (both (both integer (char '*')) power).map fun ((coeff, _), exponent) => (coeff, exponent)

def negatedPower : Reader (Int × Nat) :=
  (both (char '-') power).map fun (_, exponent) => (-1, exponent)

def barePower : Reader (Int × Nat) :=
  power.map fun exponent => (1, exponent)

def constant : Reader (Int × Nat) :=
  integer.map fun coeff => (coeff, 0)

def term : Reader (Int × Nat) :=
  firstOf [multiple, negatedPower, barePower, constant]

section Combinators

variable {text rest : List Char} {value : β} {first : Reader β} {second : Reader γ}

theorem char_eq_some_iff {expected read : Char} :
    char expected text = some (read, rest) ↔ read = expected ∧ text = expected :: rest := by
  cases text with
  | nil => simp [char]
  | cons front text =>
      rw [char]
      by_cases same : front = expected
      · simp [same, eq_comm]
      · simp [same]

theorem both_eq_some_iff {left : β} {right : γ} :
    both first second text = some ((left, right), rest) ↔
      ∃ middle, first text = some (left, middle) ∧ second middle = some (right, rest) := by
  simp [both, Option.bind_eq_some_iff]

theorem map_eq_some_iff {reader : Reader β} {f : β → γ} {mapped : γ} :
    map reader f text = some (mapped, rest) ↔
      ∃ value, reader text = some (value, rest) ∧ f value = mapped := by
  simp [map, Option.bind_eq_some_iff]

theorem convert_eq_some_iff {reader : Reader β} {convert? : β → Option γ} {converted : γ} :
    convert reader convert? text = some (converted, rest) ↔
      ∃ value, reader text = some (value, rest) ∧ convert? value = some converted := by
  simp [convert, Option.bind_eq_some_iff]

theorem optional_eq_some_iff {reader : Reader β} {read : Option β} :
    optional reader text = some (read, rest) ↔
      (∃ value, reader text = some (value, rest) ∧ read = some value) ∨
        reader text = none ∧ read = none ∧ rest = text := by
  rw [optional]
  cases reader text with
  | none => simp [eq_comm]
  | some found => simp [Prod.ext_iff, eq_comm, and_comm]

theorem whole_eq_some_iff {reader : Reader β} :
    whole reader text = some value ↔ reader text = some (value, []) := by
  rw [whole]
  split
  · rename_i found read
    simp [read]
  · rename_i partly
    exact ⟨nofun, fun read => absurd read (partly _)⟩

theorem whole_firstOf_cons {reader : Reader β} {readers : List (Reader β)} :
    whole (firstOf (reader :: readers)) text = some value ↔
      reader text = some (value, []) ∨
        reader text = none ∧ whole (firstOf readers) text = some value := by
  simp only [whole_eq_some_iff, firstOf]
  cases reader text with
  | none => simp
  | some found => simp

end Combinators

/-- Characters are only taken off the front. -/
def Forward (reader : Reader β) : Prop :=
  ∀ ⦃text value rest⦄, reader text = some (value, rest) → rest <:+ text

section Forward

variable {text rest : List Char}

theorem forward_char (expected : Char) : (char expected).Forward := by
  intro text read rest taken
  rw [(char_eq_some_iff.mp taken).2]
  exact List.suffix_cons _ _

theorem append_of_digits {number : List Char} (taken : digits text = some (number, rest)) :
    number ++ rest = text := by
  rw [digits] at taken
  split at taken
  · contradiction
  · cases taken
    exact List.takeWhile_append_dropWhile

theorem forward_digits : digits.Forward :=
  fun _ number _ taken => ⟨number, append_of_digits taken⟩

theorem Forward.both {first : Reader β} {second : Reader γ} (left : first.Forward)
    (right : second.Forward) : (both first second).Forward := by
  intro text read rest taken
  obtain ⟨middle, front, back⟩ := both_eq_some_iff.mp taken
  exact (right back).trans (left front)

theorem Forward.optional {reader : Reader β} (forward : reader.Forward) :
    (optional reader).Forward := by
  intro text read rest taken
  rcases optional_eq_some_iff.mp taken with ⟨value, found, _⟩ | ⟨_, _, same⟩
  · exact forward found
  · exact same ▸ List.suffix_rfl

theorem Forward.taken_eq_some_iff {reader : Reader β} (forward : reader.Forward)
    {front : List Char} :
    taken reader text = some (front, rest) ↔
      text = front ++ rest ∧ ∃ value, reader text = some (value, rest) := by
  constructor
  · intro read
    obtain ⟨⟨value, left⟩, found, same⟩ := Option.bind_eq_some_iff.mp read
    cases same
    obtain ⟨front, parts⟩ := forward found
    refine ⟨?_, value, found⟩
    rw [← parts]
    simp
  · rintro ⟨rfl, value, found⟩
    simp [taken, found]

end Forward

section Numbers

variable {text number rest : List Char} {coeff : Int} {exponent value : Nat}

/-- A text that starts with no digit. -/
def Undigited (text : List Char) : Prop :=
  ∀ char ∈ text.head?, char.isDigit = false

theorem digits_append (numeral : Numeral number value) (stop : Undigited rest) :
    digits (number ++ rest) = some (number, rest) := by
  have stopped : rest.takeWhile Char.isDigit = [] ∧ rest.dropWhile Char.isDigit = rest := by
    cases rest with
    | nil => exact ⟨rfl, rfl⟩
    | cons next rest => simp [stop next rfl]
  have front : (number ++ rest).takeWhile Char.isDigit = number := by
    rw [List.takeWhile_append_of_pos numeral.isDigit, stopped.1, List.append_nil]
  have back : (number ++ rest).dropWhile Char.isDigit = rest := by
    rw [List.dropWhile_append_of_pos numeral.isDigit, stopped.2]
  have nonempty : number.isEmpty = false := List.isEmpty_eq_false_iff.mpr numeral.ne_nil
  simp only [digits, front, back, nonempty, Bool.false_eq_true, if_false]

theorem forward_sign_digits : (both (optional (char '-')) digits).Forward :=
  (forward_char '-').optional.both forward_digits

theorem integer_append (coefficient : WrittenCoefficient number coeff) (stop : Undigited rest) :
    integer (number ++ rest) = some (coeff, rest) := by
  have found : ∃ read, both (optional (char '-')) digits (number ++ rest) = some (read, rest) := by
    cases coefficient.1 with
    | plain numeral =>
        have noSign : char '-' (number ++ rest) = none := by
          rw [Option.eq_none_iff_forall_ne_some]
          intro read signed
          obtain ⟨first, others, rfl⟩ := List.exists_cons_of_ne_nil numeral.ne_nil
          have isSign : first = '-' := (List.cons.inj (char_eq_some_iff.mp signed).2).1
          exact numeral.not_mem '-' (by decide) (isSign ▸ List.mem_cons_self)
        exact ⟨(none, number), both_eq_some_iff.mpr
          ⟨_, optional_eq_some_iff.mpr (.inr ⟨noSign, rfl, rfl⟩), digits_append numeral stop⟩⟩
    | @negative digits _ numeral =>
        have signed : char '-' ('-' :: digits ++ rest) = some ('-', digits ++ rest) :=
          char_eq_some_iff.mpr ⟨rfl, rfl⟩
        exact ⟨(some '-', digits), both_eq_some_iff.mpr
          ⟨_, optional_eq_some_iff.mpr (.inl ⟨_, signed, rfl⟩), digits_append numeral stop⟩⟩
  have front := forward_sign_digits.taken_eq_some_iff.mpr ⟨rfl, found⟩
  exact convert_eq_some_iff.mpr ⟨number, front, integer?_eq_some_iff.mpr coefficient⟩

theorem exists_of_integer (read : integer text = some (coeff, rest)) :
    ∃ number, text = number ++ rest ∧ WrittenCoefficient number coeff := by
  obtain ⟨number, front, converted⟩ := convert_eq_some_iff.mp read
  obtain ⟨parts, _⟩ := forward_sign_digits.taken_eq_some_iff.mp front
  exact ⟨number, parts, integer?_eq_some_iff.mp converted⟩

theorem unsigned_eq_some_iff :
    unsigned text = some (exponent, []) ↔ WrittenExponent text exponent := by
  rw [unsigned, convert_eq_some_iff]
  constructor
  · rintro ⟨number, front, converted⟩
    have parts : number = text := by simpa using append_of_digits front
    exact parts ▸ exponent?_eq_some_iff.mp converted
  · intro raised
    have front : digits (text ++ []) = some (text, []) := digits_append raised.1 nofun
    exact ⟨text, by simpa using front, exponent?_eq_some_iff.mpr raised⟩

theorem exists_of_power (read : power text = some (exponent, rest)) :
    ∃ raised, text = 'x' :: raised := by
  obtain ⟨⟨_, raised⟩, found, _⟩ := map_eq_some_iff.mp read
  obtain ⟨middle, front, _⟩ := both_eq_some_iff.mp found
  exact ⟨middle, (char_eq_some_iff.mp front).2⟩

theorem power_eq_some_iff :
    power text = some (exponent, []) ↔ power? text = some exponent := by
  constructor
  · intro read
    obtain ⟨⟨_, raised⟩, found, same⟩ := map_eq_some_iff.mp read
    obtain ⟨middle, front, back⟩ := both_eq_some_iff.mp found
    obtain ⟨_, rfl⟩ := char_eq_some_iff.mp front
    rcases optional_eq_some_iff.mp back with ⟨_, marked, rfl⟩ | ⟨_, rfl, rfl⟩
    · obtain ⟨number, mark, written⟩ := both_eq_some_iff.mp marked
      obtain ⟨_, rfl⟩ := char_eq_some_iff.mp mark
      cases same
      exact exponent?_eq_some_iff.mpr (unsigned_eq_some_iff.mp written)
    · cases same
      rfl
  · intro read
    rcases power?_eq_some_iff.mp read with ⟨rfl, rfl⟩ | ⟨number, rfl, raised⟩
    · rfl
    · have marked : both (char '^') unsigned ('^' :: number) = some (('^', exponent), []) :=
        both_eq_some_iff.mpr
          ⟨number, char_eq_some_iff.mpr ⟨rfl, rfl⟩, unsigned_eq_some_iff.mpr raised⟩
      have back : optional (both (char '^') unsigned) ('^' :: number) =
          some (some ('^', exponent), []) :=
        optional_eq_some_iff.mpr (.inl ⟨_, marked, rfl⟩)
      exact map_eq_some_iff.mpr
        ⟨_, both_eq_some_iff.mpr ⟨'^' :: number, char_eq_some_iff.mpr ⟨rfl, rfl⟩, back⟩, rfl⟩

end Numbers

section Terms

variable {text : List Char} {coeff : Int} {exponent : Nat}

theorem multiple_eq_some_iff :
    multiple text = some ((coeff, exponent), []) ↔ ∃ number raised,
      text = number ++ '*' :: raised ∧ WrittenCoefficient number coeff ∧
        power? raised = some exponent := by
  constructor
  · intro read
    obtain ⟨_, factors, same⟩ := map_eq_some_iff.mp read
    cases same
    obtain ⟨raised, front, back⟩ := both_eq_some_iff.mp factors
    obtain ⟨starred, integer, star⟩ := both_eq_some_iff.mp front
    obtain ⟨number, parts, coefficient⟩ := exists_of_integer integer
    rw [(char_eq_some_iff.mp star).2] at parts
    exact ⟨number, raised, parts, coefficient, power_eq_some_iff.mp back⟩
  · rintro ⟨number, raised, rfl, coefficient, back⟩
    have stop : Undigited ('*' :: raised) := by simp [Undigited]
    have front : both integer (char '*') (number ++ '*' :: raised) = some ((coeff, '*'), raised) :=
      both_eq_some_iff.mpr ⟨_, integer_append coefficient stop, char_eq_some_iff.mpr ⟨rfl, rfl⟩⟩
    exact map_eq_some_iff.mpr
      ⟨_, both_eq_some_iff.mpr ⟨raised, front, power_eq_some_iff.mpr back⟩, rfl⟩

theorem multiple_eq_none (noStar : '*' ∉ text) : multiple text = none := by
  rw [Option.eq_none_iff_forall_ne_some]
  intro read taken
  obtain ⟨_, factors, _⟩ := map_eq_some_iff.mp taken
  obtain ⟨raised, front, _⟩ := both_eq_some_iff.mp factors
  obtain ⟨starred, integer, star⟩ := both_eq_some_iff.mp front
  obtain ⟨number, parts, _⟩ := exists_of_integer integer
  rw [parts, (char_eq_some_iff.mp star).2] at noStar
  simp at noStar

theorem negatedPower_eq_some_iff :
    negatedPower text = some ((coeff, exponent), []) ↔
      ∃ raised, text = '-' :: raised ∧ coeff = -1 ∧ power? raised = some exponent := by
  constructor
  · intro read
    obtain ⟨⟨_, _⟩, signed, same⟩ := map_eq_some_iff.mp read
    cases same
    obtain ⟨raised, sign, back⟩ := both_eq_some_iff.mp signed
    exact ⟨raised, (char_eq_some_iff.mp sign).2, rfl, power_eq_some_iff.mp back⟩
  · rintro ⟨raised, rfl, rfl, back⟩
    have signed : both (char '-') power ('-' :: raised) = some (('-', exponent), []) :=
      both_eq_some_iff.mpr ⟨raised, char_eq_some_iff.mpr ⟨rfl, rfl⟩, power_eq_some_iff.mpr back⟩
    exact map_eq_some_iff.mpr ⟨_, signed, rfl⟩

theorem negatedPower_eq_none (other : ∀ raised, text ≠ '-' :: 'x' :: raised) :
    negatedPower text = none := by
  rw [Option.eq_none_iff_forall_ne_some]
  intro read taken
  obtain ⟨_, signed, _⟩ := map_eq_some_iff.mp taken
  obtain ⟨middle, sign, power⟩ := both_eq_some_iff.mp signed
  obtain ⟨raised, rfl⟩ := exists_of_power power
  exact other raised (char_eq_some_iff.mp sign).2

theorem barePower_eq_some_iff :
    barePower text = some ((coeff, exponent), []) ↔ coeff = 1 ∧ power? text = some exponent := by
  rw [barePower, map_eq_some_iff, ← power_eq_some_iff]
  constructor
  · rintro ⟨_, power, same⟩
    cases same
    exact ⟨rfl, power⟩
  · rintro ⟨rfl, power⟩
    exact ⟨exponent, power, rfl⟩

theorem barePower_eq_none (other : ∀ raised, text ≠ 'x' :: raised) : barePower text = none := by
  rw [Option.eq_none_iff_forall_ne_some]
  intro read taken
  obtain ⟨_, power, _⟩ := map_eq_some_iff.mp taken
  obtain ⟨raised, same⟩ := exists_of_power power
  exact other raised same

theorem constant_eq_some_iff :
    constant text = some ((coeff, exponent), []) ↔
      WrittenCoefficient text coeff ∧ exponent = 0 := by
  constructor
  · intro read
    obtain ⟨_, front, same⟩ := map_eq_some_iff.mp read
    cases same
    obtain ⟨number, parts, coefficient⟩ := exists_of_integer front
    exact ⟨by simpa [parts] using coefficient, rfl⟩
  · rintro ⟨coefficient, rfl⟩
    have front : integer (text ++ []) = some (coeff, []) := integer_append coefficient nofun
    exact map_eq_some_iff.mpr ⟨coeff, by simpa using front, rfl⟩

theorem whole_term_eq_some_iff :
    whole term text = some (coeff, exponent) ↔ multiple text = some ((coeff, exponent), []) ∨
      multiple text = none ∧ (negatedPower text = some ((coeff, exponent), []) ∨
        negatedPower text = none ∧ (barePower text = some ((coeff, exponent), []) ∨
          barePower text = none ∧ constant text = some ((coeff, exponent), []))) := by
  have last : whole (firstOf []) text ≠ some (coeff, exponent) := nofun
  simp only [term, whole_firstOf_cons, last, and_false, or_false]

theorem writtenTerm_of_whole (read : whole term text = some (coeff, exponent)) :
    WrittenTerm text coeff exponent := by
  rcases whole_term_eq_some_iff.mp read with
    multiple | ⟨_, negated | ⟨_, bare | ⟨_, constant⟩⟩⟩
  · obtain ⟨number, raised, rfl, coefficient, power⟩ := multiple_eq_some_iff.mp multiple
    exact term?_eq_some_iff.mp (term?_of_factors coefficient power)
  · obtain ⟨raised, rfl, rfl, power⟩ := negatedPower_eq_some_iff.mp negated
    rcases power?_eq_some_iff.mp power with ⟨rfl, rfl⟩ | ⟨digits, rfl, written⟩
    · exact .negatedVariable
    · exact .negatedPower written
  · obtain ⟨rfl, power⟩ := barePower_eq_some_iff.mp bare
    rcases power?_eq_some_iff.mp power with ⟨rfl, rfl⟩ | ⟨digits, rfl, written⟩
    · exact .bareVariable
    · exact .power written
  · obtain ⟨coefficient, rfl⟩ := constant_eq_some_iff.mp constant
    exact .constant coefficient

/-- Before the reader of a form is tried, none takes anything of its text: only products hold a star,
and no number starts as a power does. -/
theorem whole_of_writtenTerm (form : WrittenTerm text coeff exponent) :
    whole term text = some (coeff, exponent) := by
  rw [whole_term_eq_some_iff]
  cases form with
  | multipleOfPower coefficient raised =>
      exact .inl (multiple_eq_some_iff.mpr
        ⟨_, _, rfl, coefficient, exponent?_eq_some_iff.mpr raised⟩)
  | multiple coefficient =>
      exact .inl (multiple_eq_some_iff.mpr ⟨_, _, rfl, coefficient, rfl⟩)
  | constant coefficient =>
      have noProduct := multiple_eq_none (coefficient.not_mem '*' (by decide) (by decide))
      have noVariable := coefficient.not_mem 'x' (by decide) (by decide)
      have unnegated : negatedPower text = none := by
        refine negatedPower_eq_none fun raised same => noVariable ?_
        simp [same]
      have notBare : barePower text = none := by
        refine barePower_eq_none fun raised same => noVariable ?_
        simp [same]
      exact .inr ⟨noProduct, .inr ⟨unnegated, .inr ⟨notBare,
        constant_eq_some_iff.mpr ⟨coefficient, rfl⟩⟩⟩⟩
  | negatedPower raised =>
      have noStar := raised.1.not_mem '*' (by decide)
      exact .inr ⟨multiple_eq_none (by simpa using noStar), .inl (negatedPower_eq_some_iff.mpr
        ⟨_, rfl, rfl, exponent?_eq_some_iff.mpr raised⟩)⟩
  | negatedVariable =>
      exact .inr ⟨multiple_eq_none (by decide), .inl (negatedPower_eq_some_iff.mpr
        ⟨_, rfl, rfl, rfl⟩)⟩
  | power raised =>
      have noStar := raised.1.not_mem '*' (by decide)
      exact .inr ⟨multiple_eq_none (by simpa using noStar), .inr ⟨negatedPower_eq_none nofun,
        .inl (barePower_eq_some_iff.mpr ⟨rfl, exponent?_eq_some_iff.mpr raised⟩)⟩⟩
  | bareVariable =>
      exact .inr ⟨multiple_eq_none (by decide), .inr ⟨negatedPower_eq_none nofun,
        .inl (barePower_eq_some_iff.mpr ⟨rfl, rfl⟩)⟩⟩

end Terms

end Reader

/-- Trying the forms in order and reading to the end comes to the same as looking for the first star
of the text. An alternative that is kept and leaves a rest is no loss, and neither is an exponent that
is left out because it does not fit. -/
theorem whole_term (text : List Char) : Reader.term.whole text = term? text := by
  ext ⟨coeff, exponent⟩
  rw [term?_eq_some_iff]
  exact ⟨Reader.writtenTerm_of_whole, Reader.whole_of_writtenTerm⟩

end LongDivision.Expression
