/-
  The text format of plain data.

  Fact documents and settings arrive as JSON texts, and dumped models leave as JSON texts.

  1. `Json.read?`  -- the reader.  It keeps the order of map entries; of a repeated key the last
                      value stands at the first position.  Whole numbers stay whole.
                      Infinities and NaN are words.  `Json.readLiteral?` reads a single string as
                      code points, so that half of a pair is kept.
  2. `Json.write`  -- the writer, in ASCII, on one line.

  The reader descends with a fuel of twice the length of the text: each step either takes a
  character or opens a value whose first character is taken next.
-/
import ApiReference.Data.Value

namespace ApiReference.Json

open Decimal (Double)

/-! ## 1. Reading -/

/-- The rest of the text, if it starts with the given characters. -/
def dropStart? : (start text : List Char) → Option (List Char)
  | [], r => some r
  | c :: s, d :: r => if c = d then dropStart? s r else none
  | _ :: _, [] => none

/-- The blanks that may stand between tokens. -/
def isSpace (c : Char) : Bool := c == ' ' || c == '\t' || c == '\n' || c == '\r'

/-- The text after its leading blanks. -/
def skip (cs : List Char) : List Char := cs.dropWhile isSpace

/-- The value of a hexadecimal digit. -/
def hexValue? (c : Char) : Option Nat :=
  if '0' ≤ c ∧ c ≤ '9' then some (c.toNat - '0'.toNat)
  else if 'a' ≤ c ∧ c ≤ 'f' then some (c.toNat - 'a'.toNat + 10)
  else if 'A' ≤ c ∧ c ≤ 'F' then some (c.toNat - 'A'.toNat + 10)
  else none

/-- Four hexadecimal digits and the rest. -/
def readUnit? : List Char → Option (Nat × List Char)
  | a :: b :: c :: d :: r => do
    let a ← hexValue? a
    let b ← hexValue? b
    let c ← hexValue? c
    let d ← hexValue? d
    some (((a * 16 + b) * 16 + c) * 16 + d, r)
  | _ => none

/-- The code point of one 16-bit unit, joined with the unit after it when both form a pair; half of a
    pair may stand alone. -/
def joinUnits (unit : Nat) (rest : List Char) : Nat × List Char :=
  if 0xd800 ≤ unit ∧ unit < 0xdc00 then
    match (dropStart? ['\\', 'u'] rest).bind readUnit? with
    | some (low, r) =>
      if 0xdc00 ≤ low ∧ low < 0xe000 then (0x10000 + (unit - 0xd800) * 0x400 + (low - 0xdc00), r)
      else (unit, rest)
    | none => (unit, rest)
  else (unit, rest)

/-- The code point after a backslash. -/
def readEscape? : List Char → Option (Nat × List Char)
  | '"' :: r => some ('"'.toNat, r)
  | '\\' :: r => some ('\\'.toNat, r)
  | '/' :: r => some ('/'.toNat, r)
  | 'b' :: r => some (0x8, r)
  | 'f' :: r => some (0xc, r)
  | 'n' :: r => some ('\n'.toNat, r)
  | 'r' :: r => some ('\r'.toNat, r)
  | 't' :: r => some ('\t'.toNat, r)
  | 'u' :: r => (readUnit? r).map (fun (n, r) => joinUnits n r)
  | _ => none

/-- The code points up to the closing quote, in front of the reversed ones read so far. -/
def readPoints? : (fuel : Nat) → (done : List Nat) → (text : List Char) → Option (List Nat × List Char)
  | 0, _, _ => none
  | _ + 1, _, [] => none
  | n + 1, done, c :: r =>
    if c = '"' then some (done.reverse, r)
    else if c = '\\' then
      match readEscape? r with
      | some (d, r) => readPoints? n (d :: done) r
      | none => none
    else if c.toNat < 0x20 then none
    else readPoints? n (c.toNat :: done) r

/-- The character of a code point; half of a pair is no character and shows as the replacement
    character. -/
def charOfPoint (n : Nat) : Char := if n.isValidChar then Char.ofNat n else Char.ofNat 0xfffd

/-- The text after an opening quote. -/
def readString? (fuel : Nat) (cs : List Char) : Option (String × List Char) :=
  (readPoints? fuel [] cs).map (fun (ps, r) => (String.ofList (ps.map charOfPoint), r))

/-- The number spelled by decimal digits. -/
def natOfDigits (ds : List Char) : Nat := ds.foldl (fun n c => 10 * n + (c.toNat - '0'.toNat)) 0

/-- The leading decimal digits and the rest. -/
def spanDigits (cs : List Char) : List Char × List Char := cs.span Char.isDigit

/-- The fraction of a number: the digits after a point. -/
def readFraction : List Char → List Char × List Char
  | '.' :: r =>
    let (ds, s) := spanDigits r
    if ds.isEmpty then ([], '.' :: r) else (ds, s)
  | r => ([], r)

/-- The exponent of a number, if one is written. -/
def readExponent (cs : List Char) : Option Int × List Char :=
  match cs with
  | c :: r =>
    if c = 'e' ∨ c = 'E' then
      let (negative, r) := match r with
        | '-' :: s => (true, s)
        | '+' :: s => (false, s)
        | s => (false, s)
      let (ds, s) := spanDigits r
      if ds.isEmpty then (none, cs)
      else (some (if negative then -(natOfDigits ds : Int) else natOfDigits ds), s)
    else (none, cs)
  | [] => (none, [])

/-- A number without its sign: no zero leads another digit, a fraction or an exponent makes it a
    floating-point number, and a whole number has a bounded number of digits. -/
def readNumber? (negative : Bool) (cs : List Char) : Option (Value × List Char) :=
  let (whole, r) := spanDigits cs
  match whole with
  | [] => none
  | '0' :: _ :: _ => none
  | _ =>
    let (fraction, r) := readFraction r
    let (exponent, r) := readExponent r
    let digits := natOfDigits (whole ++ fraction)
    if fraction.isEmpty && exponent.isNone then
      if Text.maxDigits < whole.length then none
      else some (.int (if negative then -(digits : Int) else digits), r)
    else
      some (.float (Double.ofDecimal negative digits (exponent.getD 0 - fraction.length)), r)

/-- The word for an infinity, after its first letter. -/
def infinityTail : List Char := "nfinity".toList

/-- What a reading step is looking at: a value, or the inside of a list or of a map. -/
inductive Place where
  | value
  /-- after the opening bracket or a comma -/
  | element (done : List Value)
  | entry (done : List (String × Value))

/-- **One value, list or map**, and the rest of the text.  The fuel is twice the text that is left, as
    a step that reads no character is followed by one that does, so it is enough for a string, too. -/
def readAt? : (fuel : Nat) → Place → List Char → Option (Value × List Char)
  | 0, _, _ => none
  | n + 1, .value, cs =>
    match skip cs with
    | '"' :: r => (readString? n r).map (fun (s, r) => (.str s, r))
    | '[' :: r => match skip r with
      | ']' :: r => some (.list [], r)
      | r => readAt? n (.element []) r
    | '\x7b' :: r => match skip r with
      | '\x7d' :: r => some (.map [], r)
      | r => readAt? n (.entry []) r
    | 'I' :: r => (dropStart? infinityTail r).map (fun r => (.float (.infinity false), r))
    | '-' :: 'I' :: r => (dropStart? infinityTail r).map (fun r => (.float (.infinity true), r))
    | 'N' :: r => (dropStart? ['a', 'N'] r).map (fun r => (.float .nan, r))
    | '-' :: r => readNumber? true r
    | 'n' :: r => (dropStart? ['u', 'l', 'l'] r).map (fun r => (.null, r))
    | 't' :: r => (dropStart? ['r', 'u', 'e'] r).map (fun r => (.bool true, r))
    | 'f' :: r => (dropStart? ['a', 'l', 's', 'e'] r).map (fun r => (.bool false, r))
    | r => readNumber? false r
  | n + 1, .element done, cs =>
    match readAt? n .value cs with
    | none => none
    | some (v, r) => match skip r with
      | ',' :: r => readAt? n (.element (v :: done)) r
      | ']' :: r => some (.list (v :: done).reverse, r)
      | _ => none
  | n + 1, .entry done, cs =>
    match skip cs with
    | '"' :: r => match readString? n r with
      | none => none
      | some (k, r) => match skip r with
        | ':' :: r => match readAt? n .value r with
          | none => none
          | some (v, r) => match skip r with
            | ',' :: r => readAt? n (.entry (Value.insert k v done)) r
            | '\x7d' :: r => some (.map (Value.insert k v done), r)
            | _ => none
        | _ => none
    | _ => none

/-- **Reading a whole text**: one value, with blanks around it. -/
def read? (text : String) : Option Value :=
  let cs := text.toList
  match readAt? (2 * cs.length + 2) .value cs with
  | some (v, r) => if (skip r).isEmpty then some v else none
  | none => none

/-- **Reading a whole text that is one string**, as code points. -/
def readLiteral? (text : String) : Option (List Nat) :=
  match skip text.toList with
  | '"' :: cs => match readPoints? (cs.length + 1) [] cs with
    | some (ps, r) => if (skip r).isEmpty then some ps else none
    | none => none
  | _ => none

/-! ## 2. Writing -/

mutual

/-- **A value as a JSON text.** -/
def write : Value → String
  | .null => "null"
  | .bool true => "true"
  | .bool false => "false"
  | .int n => toString n
  | .float d =>
    if d.isInfinite then (if d.negative then "-Infinity" else "Infinity")
    else if d.isFinite then d.text
    else "NaN"
  | .str s => Text.asciiQuoted s
  | .list xs => "[" ++ ", ".intercalate (writeAll xs) ++ "]"
  | .map es => "\x7b" ++ ", ".intercalate (writeEntries es) ++ "\x7d"

/-- The elements of a list. -/
def writeAll : List Value → List String
  | [] => []
  | v :: r => write v :: writeAll r

/-- The entries of a map. -/
def writeEntries : List (String × Value) → List String
  | [] => []
  | (k, v) :: r => (Text.asciiQuoted k ++ ": " ++ write v) :: writeEntries r

end

end ApiReference.Json
