/-
  Two ways to put a text between quotes.

  * `quoted`      -- for the text form of data: single quotes, or double quotes when the text has a
                     single quote and no double one; hidden characters are spelled by number.
  * `asciiQuoted` -- for string literals in rendered types and module names: double quotes and
                     nothing but visible ASCII; a character beyond the basic plane becomes a pair
                     of 16-bit units.  `asciiLiteral` does the same for code points, among which
                     half of a pair may stand alone.
-/
import ApiReference.Text.Printable

namespace ApiReference.Text

/-- The last `width` hexadecimal digits of a number, in small letters. -/
def hex : (width : Nat) → Nat → List Char
  | 0, _ => []
  | w + 1, n => hex w (n / 16) ++ [Nat.digitChar (n % 16)]

/-! ## Quoted data text -/

/-- One character between quotes `q`. -/
def quotedChar (q c : Char) : List Char :=
  if c = q ∨ c = '\\' then ['\\', c]
  else if c = '\t' then ['\\', 't']
  else if c = '\n' then ['\\', 'n']
  else if c = '\r' then ['\\', 'r']
  else if isPrintable c then [c]
  else if c.toNat < 0x100 then '\\' :: 'x' :: hex 2 c.toNat
  else if c.toNat < 0x10000 then '\\' :: 'u' :: hex 4 c.toNat
  else '\\' :: 'U' :: hex 8 c.toNat

/-- Which quote surrounds the text. -/
def quoteMark (cs : List Char) : Char :=
  if cs.contains '\'' && !cs.contains '"' then '"' else '\''

/-- **A text as quoted data.** -/
def quoted (s : String) : String :=
  let q := quoteMark s.toList
  String.ofList (q :: (s.toList.flatMap (quotedChar q) ++ [q]))

/-! ## ASCII string literals -/

/-- One 16-bit unit by number. -/
def unitEscape (n : Nat) : List Char := '\\' :: 'u' :: hex 4 n

/-- One code point of an ASCII literal. -/
def asciiPoint (n : Nat) : List Char :=
  if n = '"'.toNat then ['\\', '"']
  else if n = '\\'.toNat then ['\\', '\\']
  else if n = '\n'.toNat then ['\\', 'n']
  else if n = '\r'.toNat then ['\\', 'r']
  else if n = '\t'.toNat then ['\\', 't']
  else if n = 0x8 then ['\\', 'b']
  else if n = 0xc then ['\\', 'f']
  else if 0x20 ≤ n ∧ n ≤ 0x7e then [Char.ofNat n]
  else if n < 0x10000 then unitEscape n
  else unitEscape (0xd800 + (n - 0x10000) / 0x400) ++ unitEscape (0xdc00 + (n - 0x10000) % 0x400)

/-- Code points as an ASCII string literal. -/
def asciiLiteral (points : List Nat) : String :=
  String.ofList ('"' :: (points.flatMap asciiPoint ++ ['"']))

/-- **A text as an ASCII string literal.** -/
def asciiQuoted (s : String) : String := asciiLiteral (s.toList.map Char.toNat)

end ApiReference.Text
