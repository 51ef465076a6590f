import LongDivision.Coefficient.Binary64
import LongDivision.Proofs.Dense.Legible

/-! Texts of one-byte characters. All texts of floating-point polynomials are of this kind, so that
their characters and the bytes that an output receives are the same in number.
-/

namespace LongDivision

def OneByte (text : List Char) : Prop :=
  ∀ char ∈ text, char.utf8Size = 1

instance (text : List Char) : Decidable (OneByte text) :=
  List.decidableBAll (fun char : Char => char.utf8Size = 1) text

/-- The bytes of a text. -/
def bytes (text : List Char) : List UInt8 :=
  text.flatMap String.utf8EncodeChar

namespace OneByte

variable {text other : List Char} {char : Char}

theorem append (first : OneByte text) (second : OneByte other) : OneByte (text ++ other) := by
  intro char member
  rcases List.mem_append.mp member with inside | inside
  · exact first char inside
  · exact second char inside

theorem cons (first : char.utf8Size = 1) (rest : OneByte text) : OneByte (char :: text) := by
  intro other member
  rcases List.mem_cons.mp member with rfl | later
  · exact first
  · exact rest other later

theorem take (oneByte : OneByte text) (count : Nat) : OneByte (text.take count) :=
  fun char member => oneByte char (List.mem_of_mem_take member)

theorem flatMap {β : Type} {parts : List β} {write : β → List Char}
    (all : ∀ part ∈ parts, OneByte (write part)) : OneByte (parts.flatMap write) := by
  intro char member
  obtain ⟨part, inside, written⟩ := List.mem_flatMap.mp member
  exact all part inside char written

theorem ofList (oneByte : OneByte text) : OneByte (String.ofList text).toList := by
  rwa [String.toList_ofList]

theorem bytes_eq (oneByte : OneByte text) : bytes text = text.map fun char => char.val.toUInt8 := by
  rw [bytes, List.map_eq_flatMap]
  exact List.flatMap_congr fun char member =>
    String.utf8EncodeChar_eq_singleton (oneByte char member)

theorem length_bytes (oneByte : OneByte text) : (bytes text).length = text.length := by
  rw [oneByte.bytes_eq, List.length_map]

theorem bytes_take (oneByte : OneByte text) (count : Nat) :
    bytes (text.take count) = (bytes text).take count := by
  rw [(oneByte.take count).bytes_eq, oneByte.bytes_eq, List.map_take]

theorem of_isDigit (digit : char.isDigit = true) : char.utf8Size = 1 := by
  rw [Char.utf8Size_eq_one_iff]
  simp only [Char.isDigit, Bool.and_eq_true, decide_eq_true_eq] at digit
  exact UInt32.le_trans digit.2 (by decide)

theorem decimalDigits (number : Nat) : OneByte (decimalDigits number) :=
  fun char member => of_isDigit (digits_decimalDigits number char member)

end OneByte

theorem oneByte_positional (decimal : Decimal) : OneByte decimal.positional := by
  intro char member
  rcases decimal.char_positional char member with digit | rfl
  · exact OneByte.of_isDigit digit
  · decide

namespace Binary64

theorem oneByte_plain (number : Binary64) : OneByte number.plain := by
  cases number with
  | nan => decide
  | infinite negative => cases negative <;> decide
  | finite negative mantissa exponent =>
      have digits := oneByte_positional (decimal mantissa exponent)
      cases negative with
      | false => exact digits
      | true => exact .cons (by decide) digits

theorem oneByte_signed (number : Binary64) : OneByte number.signed := by
  have plain := oneByte_plain number
  cases number with
  | nan => exact plain
  | infinite negative => cases negative <;> decide
  | finite negative mantissa exponent =>
      cases negative with
      | false => exact .cons (by decide) plain
      | true => exact plain

end Binary64

section Polynomials

theorem oneByte_powerText (exponent : Nat) : OneByte (Dense.powerText exponent).toList := by
  have symbols : OneByte ['*', 'x', '^'] := by decide
  intro char member
  rcases Dense.char_powerText char member with digit | symbol
  · exact OneByte.of_isDigit digit
  · exact symbols char symbol

theorem oneByte_termTexts (first : Bool) (row : List Float) :
    OneByte ((Dense.termTexts first row).flatMap String.toList) := by
  induction row generalizing first with
  | nil => simp [Dense.termTexts, OneByte]
  | cons slot lower ih =>
      rw [Dense.termTexts]
      split
      · exact ih first
      · rw [List.flatMap_cons]
        refine OneByte.append ?_ (ih false)
        rw [String.toList_append]
        refine OneByte.append ?_ (oneByte_powerText _)
        cases first with
        | true => exact (Binary64.oneByte_plain _).ofList
        | false => exact (Binary64.oneByte_signed _).ofList

theorem oneByte_render (poly : Dense Float) : OneByte poly.render.toList := by
  rw [Dense.render]
  split
  · decide
  · rw [Dense.text, String.toList_join]
    exact oneByte_termTexts true _

theorem oneByte_text (sum : TermSum Float) : OneByte sum.text.toList := by
  rw [TermSum.text, String.toList_join, List.flatMap_map]
  refine OneByte.flatMap fun term _ => ?_
  simp only [TermSum.termLine, String.toList_append]
  have coeff : OneByte (Written.plain term.coeff).toList := (Binary64.oneByte_plain _).ofList
  have exponent := (OneByte.decimalDigits term.exponent).ofList
  exact (((OneByte.append (by decide) coeff).append (by decide)).append exponent).append (by decide)

end Polynomials

end LongDivision
