import LinkGuard.Text.Numeral

/-! # Doubles

Numbers of 53 binary digits, read from decimal and written in decimal again. All arithmetic is
exact; a number that is no double becomes the nearest one, of two the one with the even mantissa.
-/

namespace LinkGuard

/-- A double. A finite one is `mantissa * 2 ^ exponent`, with a sign. -/
inductive Binary64 where
  | nan
  | infinite (negative : Bool)
  | finite (negative : Bool) (mantissa : Nat) (exponent : Int)
deriving DecidableEq

namespace Binary64

/-! ## Rounding -/

/-- The numerator and denominator of `num / (den * base ^ power)`. -/
def scale (base : Nat) (num den : Nat) (power : Int) : Nat × Nat :=
  (num * Nat.pow base (-power).toNat, den * Nat.pow base power.toNat)

/-- The whole number nearest to a quotient, of two the even one. -/
def nearest (num den : Nat) : Nat :=
  let q := num / den
  let r := num % den
  if den < 2 * r || (2 * r = den && q % 2 = 1) then q + 1 else q

/-- The exponent that leaves 53 digits for the mantissa of a quotient, but no less than the least
    one. -/
def exponentOf (num den : Nat) : Int :=
  let e : Int := max ((num.log2 : Int) - den.log2 - 53) (-1074)
  let (n, d) := scale 2 num den e
  if n / d < Nat.pow 2 53 then e else e + 1

/-- The mantissa and exponent nearest to a positive quotient; `none` if it is too large. -/
def round? (num den : Nat) : Option (Nat × Int) :=
  let e := exponentOf num den
  let (n, d) := scale 2 num den e
  let m := nearest n d
  let (m, e) := if m = Nat.pow 2 53 then (Nat.pow 2 52, e + 1) else (m, e)
  if 971 < e then none else some (m, e)

/-- The mantissa and exponent nearest to `digits * 10 ^ power`, where `digits` is positive. -/
def roundDecimal? (digits : Nat) (power : Int) : Option (Nat × Int) :=
  let (n, d) := scale 10 digits 1 (-power)
  round? n d

/-- The double nearest to `digits * 10 ^ power`. Far outside the range of doubles it is not worked
    out. -/
def ofDecimal (negative : Bool) (digits : Nat) (power : Int) : Binary64 :=
  let size : Int := (Numeral.digits digits).length + power
  if digits = 0 || size < -330 then .finite negative 0 (-1074)
  else if 330 < size then .infinite negative
  else match roundDecimal? digits power with
    | some (m, e) => .finite negative m e
    | none => .infinite negative

/-! ## Reading -/

/-- The value of a possibly empty run of digits. -/
def runValue (digits : List Char) : Nat := (Numeral.natural? 10 digits).getD 0

/-- An exponent: `e`, a sign, and at least one digit; or nothing. -/
def exponent? : List Char → Option Int
  | [] => some 0
  | c :: rest => if c = 'e' || c = 'E' then Numeral.signed? 10 rest else none

/-- Digits with a point among them, before them or behind them, and an exponent. -/
def unsigned? (negative : Bool) (text : List Char) : Option Binary64 :=
  let isDigit (c : Char) := '0' ≤ c && c ≤ '9'
  let whole := text.takeWhile isDigit
  let rest := text.dropWhile isDigit
  let (fraction, rest) := match rest with
    | '.' :: rest => (rest.takeWhile isDigit, rest.dropWhile isDigit)
    | rest => ([], rest)
  if whole.isEmpty && fraction.isEmpty then none
  else (exponent? rest).map fun e =>
    ofDecimal negative (runValue (whole ++ fraction)) (e - fraction.length)

/-- What stands behind a sign. -/
def body? (negative : Bool) (text : List Char) : Option Binary64 :=
  match String.ofList (text.map Char.toLower) with
  | "inf" | "infinity" => some (.infinite negative)
  | "nan" => some .nan
  | _ => unsigned? negative text

/-- A number as a text, or one of the words for infinity and for no number, in letters of any
    case. -/
def parse? : List Char → Option Binary64
  | '-' :: rest => body? true rest
  | '+' :: rest => body? false rest
  | text => body? false text

/-! ## Writing -/

/-- One more than the position of the first digit of a positive quotient, counted from the point. -/
def position (num den : Nat) : Int :=
  if den ≤ num then (Numeral.digits (num / den)).length else 1 - (Numeral.digits (den / num)).length

/-- The two numbers of `n` digits around a positive quotient that stand for the double `target`. Of
two the nearer one is taken, or the larger. -/
def candidate? (target : Nat × Int) (num den : Nat) (n : Nat) : Option (Nat × Int) :=
  let power := position num den - n
  let (a, b) := scale 10 num den power
  let low := a / b
  let fits (digits : Nat) := digits ≠ 0 && roundDecimal? digits power = some target
  let order := if 2 * (a % b) < b then [low, low + 1] else [low + 1, low]
  (order.find? fits).map fun digits => (digits, power)

/-- All digits of a double, and the power of ten that belongs to them. -/
def exact (m : Nat) (e : Int) : Nat × Int :=
  if 0 ≤ e then (m * Nat.pow 2 e.toNat, 0) else (m * Nat.pow 5 (-e).toNat, e)

/-- The fewest digits that stand for a double, and the power of ten that belongs to them. Seventeen
are always enough. -/
def shortest (m : Nat) (e : Int) : Nat × Int :=
  let (num, den) := scale 2 m 1 (-e)
  ((List.range 17).findSome? fun n => candidate? (m, e) num den (n + 1)).getD (exact m e)

/-- The number with that many digits, without an exponent. A zero behind the last digit is left out
behind the point. -/
def positional (digits : Nat) (power : Int) : List Char :=
  let ds := Numeral.digits digits
  if 0 ≤ power then ds ++ List.replicate power.toNat '0'
  else
    let places := (-power).toNat
    let padded := List.replicate (places + 1 - ds.length) '0' ++ ds
    let whole := padded.take (padded.length - places)
    let fraction := ((padded.drop (padded.length - places)).reverse.dropWhile (· = '0')).reverse
    if fraction.isEmpty then whole else whole ++ '.' :: fraction

def text : Binary64 → String
  | nan => "NaN"
  | infinite negative => if negative then "-inf" else "inf"
  | finite negative m e =>
    let digits := if m = 0 then ['0'] else
      let (digits, power) := shortest m e
      positional digits power
    String.ofList (if negative then '-' :: digits else digits)

/-! ## Whole numbers -/

/-- The nearest whole number of 64 bits without a sign; a half goes up. No number counts as zero. -/
def toWord : Binary64 → Nat
  | nan => 0
  | infinite negative => if negative then 0 else UInt64.size - 1
  | finite negative m e =>
    if negative then 0
    else
      let (num, den) := scale 2 m 1 (-e)
      min ((2 * num + den) / (2 * den)) (UInt64.size - 1)

end Binary64

end LinkGuard
