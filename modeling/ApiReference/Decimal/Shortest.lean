/-
  The shortest decimal text of a binary floating-point number.

  A finite double is `m * 2 ^ q`.  The reals that read back as that double form an interval around
  it, closed exactly when `m` is even.  Of all decimals in the interval we want one with the fewest
  digits, and of those the one nearest to the number.

  1. `Double`      -- a double as its 64 bits, decoded into sign, `m` and `q`;
  2. `shortest`    -- for 1, 2, ... 17 digits, the two grid neighbours of the number are tested in
                      exact integer arithmetic, and the first grid with a hit wins;
  3. `Double.text` -- the layout: positional between `10 ^ (-4)` and `10 ^ 16`, else scientific.
-/
namespace ApiReference.Decimal

/-! ## 1. Doubles -/

/-- A power of two. -/
def twoTo (n : Nat) : Nat := Nat.pow 2 n

/-- A power of ten. -/
def tenTo (n : Nat) : Nat := Nat.pow 10 n

/-- **A double, by its bits.**  Two doubles are equal when their bits are, so equality is decidable
    and `0.0` differs from `-0.0`. -/
structure Double where
  bits : UInt64
deriving DecidableEq, Repr, Inhabited

namespace Double

/-- An infinity. -/
def infinity (negative : Bool) : Double :=
  ⟨if negative then 0xfff0000000000000 else 0x7ff0000000000000⟩

/-- What is not a number. -/
def nan : Double := ⟨0x7ff8000000000000⟩

/-- The sign bit. -/
def negative (d : Double) : Bool := d.bits.toNat / twoTo 63 == 1

/-- The biased exponent, 0 to 2047. -/
def biased (d : Double) : Nat := d.bits.toNat / twoTo 52 % 2048

/-- The stored fraction, below `2 ^ 52`. -/
def fraction (d : Double) : Nat := d.bits.toNat % twoTo 52

/-- Neither an infinity nor a NaN. -/
def isFinite (d : Double) : Bool := d.biased != 2047

/-- One of the two infinities. -/
def isInfinite (d : Double) : Bool := !d.isFinite && d.fraction == 0

/-- The integer `m` of `m * 2 ^ q`. -/
def mantissa (d : Double) : Nat := if d.biased = 0 then d.fraction else twoTo 52 + d.fraction

/-- The exponent `q` of `m * 2 ^ q`. -/
def exponent (d : Double) : Int := if d.biased = 0 then -1074 else (d.biased : Int) - 1075

/-- Both zeros. -/
def isZero (d : Double) : Bool := d.isFinite && d.mantissa == 0

/-- **The nearest double** of `digits * 10 ^ exp`. -/
def ofDecimal (negative : Bool) (digits : Nat) (exp : Int) : Double :=
  let magnitude :=
    if exp < 0 then Float.ofScientific digits true (min exp.natAbs 20000)
    else Float.ofScientific digits false (min exp.natAbs 20000)
  ⟨(if negative then -magnitude else magnitude).toBits⟩

/-- **The whole part**, toward zero; `none` for infinities and NaN. -/
def truncate? (d : Double) : Option Int :=
  if d.isFinite then
    let n := if d.exponent < 0 then d.mantissa / twoTo d.exponent.natAbs
             else d.mantissa * twoTo d.exponent.natAbs
    some (if d.negative then -(n : Int) else n)
  else none

end Double

/-! ## 2. Fewest digits -/

/-- **A number with its interval**, all over one denominator: the number is `mid / den`, and the
    reals between `low / den` and `high / den` read back as it. -/
structure Interval where
  low : Nat
  mid : Nat
  high : Nat
  den : Nat
  closed : Bool

/-- The interval of `m * 2 ^ q`.  Below a power of two the gap to the next double is halved, except
    at the least exponent. -/
def Interval.ofDouble (d : Double) : Interval :=
  let m := d.mantissa
  let below := if d.fraction = 0 && 1 < d.biased then 1 else 2
  let e := d.exponent - 2
  let scale := if e < 0 then 1 else twoTo e.natAbs
  { low := (4 * m - below) * scale
    mid := 4 * m * scale
    high := (4 * m + 2) * scale
    den := if e < 0 then twoTo e.natAbs else 1
    closed := m % 2 == 0 }

/-- Is `n * 10 ^ p` in the interval? -/
def Interval.holds (i : Interval) (n : Nat) (p : Int) : Bool :=
  let x := n * i.den * tenTo p.toNat
  let y := tenTo (-p).toNat
  if i.closed then i.low * y ≤ x && x ≤ i.high * y else i.low * y < x && x < i.high * y

/-- The greatest `n` with `n * 10 ^ p` not above the number. -/
def Interval.below (i : Interval) (p : Int) : Nat :=
  (i.mid * tenTo (-p).toNat) / (i.den * tenTo p.toNat)

/-- Is the grid point `n + 1` nearer to the number than `n`, or as near with `n` odd? -/
def Interval.prefersNext (i : Interval) (n : Nat) (p : Int) : Bool :=
  let unit := i.den * tenTo p.toNat
  let twice := 2 * (i.mid * tenTo (-p).toNat)
  (2 * n + 1) * unit < twice || ((2 * n + 1) * unit == twice && n % 2 == 1)

/-- The place of the leading digit: `10 ^ place` is the greatest power of ten not above the
    number. -/
def Interval.place (i : Interval) : Int :=
  if i.den ≤ i.mid then ((Nat.toDigits 10 (i.mid / i.den)).length : Int) - 1
  else -(((List.range 400).find? (fun j => i.den ≤ i.mid * tenTo j)).getD 0 : Nat)

/-- The decimal with `n` digits, if one lies in the interval: its integer and its exponent. -/
def Interval.withDigits? (i : Interval) (n : Nat) : Option (Nat × Int) :=
  let p := i.place + 1 - n
  let f := i.below p
  match i.holds f p, i.holds (f + 1) p with
  | true, true => some (if i.prefersNext f p then f + 1 else f, p)
  | true, false => some (f, p)
  | false, true => some (f + 1, p)
  | false, false => none

/-- **The shortest decimal** of a finite double that is not zero: an integer and an exponent.
    Seventeen digits always suffice. -/
def shortest (d : Double) : Nat × Int :=
  let i := Interval.ofDouble d
  ((List.range 17).findSome? (fun n => i.withDigits? (n + 1))).getD (i.below (i.place - 16), i.place - 16)

/-! ## 3. Layout -/

/-- Trailing zeros removed, each counted in the exponent. -/
def dropZeros (ds : List Char) : List Char := (ds.reverse.dropWhile (· == '0')).reverse

/-- Positional notation of the digits `ds` whose first digit has place `e`; a fraction is always
    written. -/
def positional (ds : List Char) (e : Int) : List Char :=
  if e < 0 then '0' :: '.' :: (List.replicate (e.natAbs - 1) '0' ++ ds)
  else
    let whole := e.natAbs + 1
    if ds.length ≤ whole then ds ++ List.replicate (whole - ds.length) '0' ++ ['.', '0']
    else ds.take whole ++ '.' :: ds.drop whole

/-- Scientific notation: the exponent has a sign and at least two digits. -/
def scientific (ds : List Char) (e : Int) : List Char :=
  let digits := Nat.toDigits 10 e.natAbs
  let padded := if digits.length < 2 then '0' :: digits else digits
  let fraction := if 1 < ds.length then '.' :: ds.drop 1 else []
  ds.take 1 ++ fraction ++ 'e' :: (if e < 0 then '-' else '+') :: padded

/-- **The text of a double**: the fewest digits that read back, positional from `10 ^ (-4)` up to
    below `10 ^ 16`. -/
def Double.text (d : Double) : String :=
  let sign := if d.negative then ['-'] else []
  if d.isInfinite then String.ofList (sign ++ ['i', 'n', 'f'])
  else if !d.isFinite then "nan"
  else if d.mantissa = 0 then String.ofList (sign ++ ['0', '.', '0'])
  else
    let (n, p) := shortest d
    let digits := Nat.toDigits 10 n
    let e := (digits.length : Int) - 1 + p
    let ds := dropZeros digits
    String.ofList (sign ++ (if -4 ≤ e && e < 16 then positional ds e else scientific ds e))

end ApiReference.Decimal
