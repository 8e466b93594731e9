/-
  Blanks and decimal digits over all of Unicode, and the reader of whole numbers.

  A whole number may stand between blanks, may carry one sign, and may have single underscores
  between its digits.  Digits of every script count, each by its value.  A numeral may have
  `maxDigits` digits; longer ones are refused wherever whole numbers are read.

  1. `isBlank`, `trim`      -- the 29 blank characters and the text between them;
  2. `digitValue?`          -- the value of a decimal digit;
  3. `readInt?`             -- the reader.
-/
namespace ApiReference.Text

/-! ## 1. Blanks -/

/-- The blank characters, as closed ranges of code points. -/
def blankRanges : List (Nat × Nat) :=
  [(0x9, 0xd), (0x1c, 0x20), (0x85, 0x85), (0xa0, 0xa0), (0x1680, 0x1680), (0x2000, 0x200a),
   (0x2028, 0x2029), (0x202f, 0x202f), (0x205f, 0x205f), (0x3000, 0x3000)]

/-- A blank character. -/
def isBlank (c : Char) : Bool := blankRanges.any (fun r => r.1 ≤ c.toNat && c.toNat ≤ r.2)

/-- The characters without those at both ends that satisfy `p`. -/
def trimList (p : Char → Bool) (cs : List Char) : List Char :=
  ((cs.dropWhile p).reverse.dropWhile p).reverse

/-- **The text without the blanks at both ends.** -/
def trim (s : String) : String := String.ofList (trimList isBlank s.toList)

/-! ## 2. Digits -/

/-- The zero of each script; its nine successors follow it. -/
def zeros : List Nat :=
  [0x30, 0x660, 0x6f0, 0x7c0, 0x966, 0x9e6, 0xa66, 0xae6, 0xb66, 0xbe6, 0xc66,
   0xce6, 0xd66, 0xde6, 0xe50, 0xed0, 0xf20, 0x1040, 0x1090, 0x17e0, 0x1810, 0x1946,
   0x19d0, 0x1a80, 0x1a90, 0x1b50, 0x1bb0, 0x1c40, 0x1c50, 0xa620, 0xa8d0, 0xa900, 0xa9d0,
   0xa9f0, 0xaa50, 0xabf0, 0xff10, 0x104a0, 0x10d30, 0x11066, 0x110f0, 0x11136, 0x111d0, 0x112f0,
   0x11450, 0x114d0, 0x11650, 0x116c0, 0x11730, 0x118e0, 0x11950, 0x11c50, 0x11d50, 0x11da0, 0x16a60,
   0x16ac0, 0x16b50, 0x1d7ce, 0x1d7d8, 0x1d7e2, 0x1d7ec, 0x1d7f6, 0x1e140, 0x1e2f0, 0x1e950, 0x1fbf0]

/-- The value of a decimal digit of any script. -/
def digitValue? (c : Char) : Option Nat :=
  (zeros.find? (fun z => z ≤ c.toNat && c.toNat < z + 10)).map (c.toNat - ·)

/-! ## 3. Whole numbers -/

/-- The blanks that may surround a number: all but the four separators `0x1c` to `0x1f`. -/
def isNumeralBlank (c : Char) : Bool := isBlank c && !(0x1c ≤ c.toNat && c.toNat ≤ 0x1f)

/-- The most digits that a whole number is written with. -/
def maxDigits : Nat := 4300

/-- Digits after a first one: an underscore must be followed by a digit. -/
def readDigits (n : Nat) : List Char → Option Nat
  | [] => some n
  | '_' :: c :: r => (digitValue? c).bind (fun d => readDigits (10 * n + d) r)
  | c :: r => (digitValue? c).bind (fun d => readDigits (10 * n + d) r)

/-- A sequence of digits that starts with a digit; underscores do not count for its length. -/
def readNat? (cs : List Char) : Option Nat :=
  if (cs.filter (· != '_')).length ≤ maxDigits then
    match cs with
    | [] => none
    | c :: r => (digitValue? c).bind (readDigits · r)
  else none

/-- **Reading a whole number**: blanks, at most one sign, digits, blanks. -/
def readInt? (s : String) : Option Int :=
  match trimList isNumeralBlank s.toList with
  | '-' :: r => (readNat? r).map (fun n => -(n : Int))
  | '+' :: r => (readNat? r).map (fun n => (n : Int))
  | r => (readNat? r).map (fun n => (n : Int))

example : readInt? " 1_0 " = some 10 := by decide
example : readInt? "1__0" = none := by decide

end ApiReference.Text
