/-! # Numerals

Whole numbers written in decimal, and numerals of any base up to sixteen read back. A reader takes
digits only: no blank, no separator, and at least one digit; a sign only where the name says so.
-/

namespace LinkGuard.Numeral

def digit (n : Nat) : Char := Char.ofNat ('0'.toNat + n)

/-- The decimal digits of `n`, the most significant first. -/
def digits (n : Nat) : List Char :=
  if n < 10 then [digit n] else digits (n / 10) ++ [digit (n % 10)]
termination_by n

def ofNat (n : Nat) : String := String.ofList (digits n)

def ofInt : Int → String
  | .ofNat n => ofNat n
  | .negSucc n => "-" ++ ofNat (n + 1)

/-- The value of a digit in a base of at most sixteen, letters in either case. -/
def digit? (base : Nat) (c : Char) : Option Nat :=
  let value :=
    if '0' ≤ c ∧ c ≤ '9' then some (c.toNat - '0'.toNat)
    else if 'a' ≤ c ∧ c ≤ 'f' then some (c.toNat - 'a'.toNat + 10)
    else if 'A' ≤ c ∧ c ≤ 'F' then some (c.toNat - 'A'.toNat + 10)
    else none
  value.filter (· < base)

/-- Continues a numeral whose digits so far are worth `value`. -/
def continue? (base value : Nat) : List Char → Option Nat
  | [] => some value
  | c :: rest => do continue? base (value * base + (← digit? base c)) rest

/-- The value of a non-empty run of digits. -/
def natural? (base : Nat) : List Char → Option Nat
  | [] => none
  | c :: rest => continue? base 0 (c :: rest)

/-- A numeral that a plus sign may precede. -/
def unsigned? (base : Nat) : List Char → Option Nat
  | '+' :: rest => natural? base rest
  | text => natural? base text

/-- A numeral that a plus or minus sign may precede. -/
def signed? (base : Nat) : List Char → Option Int
  | '+' :: rest => (natural? base rest).map Int.ofNat
  | '-' :: rest => (natural? base rest).map fun n => -Int.ofNat n
  | text => (natural? base text).map Int.ofNat

def fitsWord (n : Int) : Bool := -9223372036854775808 ≤ n && n ≤ 9223372036854775807

def word? (base : Nat) (text : List Char) : Option Int := (signed? base text).filter fitsWord

end LinkGuard.Numeral
