/-!
# String literals

A text as a C++ string literal of printable ASCII: quotes, backslashes and the common control
characters have escapes of their own, every other byte outside the printable range is written
with exactly three octal digits.  Three digits are the most an octal escape takes, so the
character after it is never read as part of it.
-/

namespace TypeModel.Text

def octalDigit (n : Nat) : Char := Char.ofNat ('0'.toNat + n % 8)

/-- one byte of a literal -/
def quoteByte (b : UInt8) : List Char :=
  let n := b.toNat
  if n == '"'.toNat then ['\\', '"']
  else if n == '\\'.toNat then ['\\', '\\']
  else if n == '\n'.toNat then ['\\', 'n']
  else if n == '\r'.toNat then ['\\', 'r']
  else if n == '\t'.toNat then ['\\', 't']
  else if 0x20 ≤ n && n ≤ 0x7E then [Char.ofNat n]
  else ['\\', octalDigit (n / 64), octalDigit (n / 8), octalDigit n]

def quoteBytes (bs : List UInt8) : List Char := bs.flatMap quoteByte

def quote (s : String) : String :=
  String.ofList ('"' :: quoteBytes s.toUTF8.toList ++ ['"'])

end TypeModel.Text
