/-!
Parts of messages: quoted text, and what is said of bytes that are no text.
-/

namespace LongDivision

def undecoded : String := "stream did not contain valid UTF-8"

/-- A character between double quotes. What lies beyond ASCII stands for itself. -/
def escaped : Char → List Char
  | '"' => ['\\', '"']
  | '\\' => ['\\', '\\']
  | '\t' => ['\\', 't']
  | '\n' => ['\\', 'n']
  | '\r' => ['\\', 'r']
  | '\x00' => ['\\', '0']
  | char =>
      if char.toNat < 0x20 || char.toNat = 0x7F then
        ['\\', 'u', '\x7b'] ++ Nat.toDigits 16 char.toNat ++ ['\x7d']
      else [char]

def quoted (text : String) : String :=
  String.ofList ('"' :: text.toList.flatMap escaped ++ ['"'])

end LongDivision
