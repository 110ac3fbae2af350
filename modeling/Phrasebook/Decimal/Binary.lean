/-! Binary floating-point numbers as exact data. A finite number is `± mantissa · 2 ^ exponent`, and
every operation is the exact rational result rounded once, to nearest, ties to even. -/
namespace Phrasebook.Decimal

/-- A binary format: the width of its mantissa, and the exponents of the last bit of its smallest
and its largest numbers. -/
structure Format where
  precision : Nat
  least : Int
  greatest : Int

def single : Format := ⟨24, -149, 104⟩
def double : Format := ⟨53, -1074, 971⟩

inductive Binary (f : Format) where
  | nan
  | infinite (negative : Bool)
  | finite (negative : Bool) (mantissa : Nat) (exponent : Int)
  deriving DecidableEq, Repr

abbrev Single := Binary single
abbrev Double := Binary double

def pow2 (n : Nat) : Nat := Nat.pow 2 n
def pow10 (n : Nat) : Nat := Nat.pow 10 n

/-- The quotient rounded to nearest, a half to the even neighbour. -/
def divideEven (num den : Nat) : Nat :=
  let q := num / den
  let r := 2 * (num % den)
  if r < den || (r == den && q % 2 == 0) then q else q + 1

/-- The largest `e` with `2 ^ e ≤ num / den`, for positive `num` and `den`. -/
def floorLog2 (num den : Nat) : Int :=
  let guess : Int := (Nat.log2 num : Int) - Nat.log2 den
  let atLeast (e : Int) : Bool := den * pow2 e.toNat ≤ num * pow2 (-e).toNat
  if atLeast guess then guess else guess - 1

namespace Binary

variable {f g : Format}

def zero (negative : Bool) : Binary f := .finite negative 0 f.least

/-- The number nearest to `± num / den`. -/
def ofRatio (negative : Bool) (num den : Nat) : Binary f :=
  if num = 0 then zero negative
  else
    let e := max f.least (floorLog2 num den - (f.precision - 1))
    let m := divideEven (num * pow2 (-e).toNat) (den * pow2 e.toNat)
    let (m, e) := if m = pow2 f.precision then (pow2 (f.precision - 1), e + 1) else (m, e)
    if f.greatest < e then .infinite negative else .finite negative m e

def ofInt (i : Int) : Binary f := ofRatio (i < 0) i.natAbs 1

/-- A factor above every finite number and one below every positive number decide huge and tiny
decimals without their powers of ten. -/
def ofDecimal (negative : Bool) (digits : Nat) (exponent : Int) : Binary f :=
  if digits = 0 then zero negative
  else
    let top : Int := (Nat.toDigits 10 digits).length + exponent
    if 400 < top then .infinite negative
    else if top < -400 then zero negative
    else ofRatio negative (digits * pow10 exponent.toNat) (pow10 (-exponent).toNat)

/-- The same number in another format. -/
def convert : Binary f → Binary g
  | .nan => .nan
  | .infinite s => .infinite s
  | .finite s m e => ofRatio s (m * pow2 e.toNat) (pow2 (-e).toNat)

def mul : Binary f → Binary f → Binary f
  | .finite s m e, .finite s' m' e' =>
    ofRatio (s != s') (m * m' * pow2 (e + e').toNat) (pow2 (-(e + e')).toNat)
  | _, _ => .nan

/-- The quotient of finite numbers; the divisor is not zero. -/
def div : Binary f → Binary f → Binary f
  | .finite s m e, .finite s' m' e' =>
    ofRatio (s != s') (m * pow2 (e - e').toNat) (m' * pow2 (e' - e).toNat)
  | _, _ => .nan

def isFinite : Binary f → Bool
  | .finite .. => true
  | _ => false

/-- Finite and above zero. -/
def isPositive : Binary f → Bool
  | .finite negative m _ => !negative && m != 0
  | _ => false

/-- Equality of values: no number equals `nan`, and the zeros are equal. -/
def agrees : Binary f → Binary f → Bool
  | .nan, _ => false
  | .finite s m e, .finite s' m' e' => (m == 0 && m' == 0) || (s == s' && m == m' && e == e')
  | a, b => a == b

end Binary

def Single.one : Single := .finite false 8388608 (-23)

end Phrasebook.Decimal
