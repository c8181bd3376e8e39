import Mathlib.Algebra.Group.Nat.Defs
import Mathlib.Algebra.Ring.Int.Defs
import Mathlib.Data.Rat.Defs
import Mathlib.Data.Nat.Log
import PulseGuard.ForStd.PyStr

/-!
# Python floats

A Python `float` is an IEEE 754 double. A finite one is kept as the exact rational it
stands for, so comparisons (which Python makes exactly, also between `int` and `float`)
are comparisons of rationals, and a product is the exact product rounded to the
nearest double, ties to even. The sign of zero is not kept: `0.0 == -0.0`.
-/

/-- A double: an exact finite value, an infinity (`neg` for `-inf`), or `nan`. -/
inductive PyFloat where
  | fin (q : Rat)
  | inf (neg : Bool)
  | nan
deriving DecidableEq

namespace PyFloat

/-- `2 ^ k` for any integer `k`. -/
def pow2 (k : Int) : Rat := if 0 ≤ k then mkRat (2 ^ k.toNat) 1 else mkRat 1 (2 ^ (-k).toNat)

/-- `10 ^ k` for any integer `k`. -/
def pow10 (k : Int) : Rat := if 0 ≤ k then mkRat (10 ^ k.toNat) 1 else mkRat 1 (10 ^ (-k).toNat)

/-- The nearest integer, ties to even. -/
def roundHalfEven (q : Rat) : Int :=
  let f := q.floor
  let r := q - f
  if r < mkRat 1 2 then f
  else if mkRat 1 2 < r then f + 1
  else if f % 2 = 0 then f
  else f + 1

/-- `⌊log₂ a⌋` for positive `a`. -/
def log2Floor (a : Rat) : Int :=
  let k : Int := (Nat.log2 a.num.natAbs : Int) - Nat.log2 a.den
  if a < pow2 k then k - 1 else k

/-- `⌊log₁₀ a⌋` for positive `a`. -/
def log10Floor (a : Rat) : Int :=
  let k : Int := (Nat.log 10 a.num.natAbs : Int) - Nat.log 10 a.den
  if a < pow10 k then k - 1 else k

/-- The double nearest to `q`: 53 significant bits, exponents down to the subnormal
    range, infinity from `2 ^ 1024` on. -/
def ofRat (q : Rat) : PyFloat :=
  if q = 0 then fin 0
  else
    let a := if q < 0 then -q else q
    let ulp := pow2 (max (log2Floor a) (-1022) - 52)
    let r := roundHalfEven (a / ulp) * ulp
    if pow2 1024 ≤ r then inf (decide (q < 0)) else fin (if q < 0 then -r else r)

/-- `a == b` -/
def beq : PyFloat → PyFloat → Bool
  | fin a, fin b => decide (a = b)
  | inf m, inf n => m == n
  | _, _ => false

/-- `a < b` -/
def blt : PyFloat → PyFloat → Bool
  | fin a, fin b => decide (a < b)
  | fin _, inf n => !n
  | inf m, fin _ => m
  | inf m, inf n => m && !n
  | _, _ => false

/-- `a <= b` -/
def ble (a b : PyFloat) : Bool := a.blt b || a.beq b

/-- `a * b` -/
def mul : PyFloat → PyFloat → PyFloat
  | fin a, fin b => ofRat (a * b)
  | inf m, fin b => if b = 0 then nan else inf (xor m (decide (b < 0)))
  | fin a, inf n => if a = 0 then nan else inf (xor n (decide (a < 0)))
  | inf m, inf n => inf (xor m n)
  | _, _ => nan

/-- `a / b` for a finite `b` other than zero. -/
def divFin (a : PyFloat) (b : Rat) : PyFloat :=
  match a with
  | fin q => ofRat (q / b)
  | inf m => inf (xor m (decide (b < 0)))
  | nan => nan

/-- `round(x, 2)`: the nearest multiple of a hundredth, ties to even, as a double. -/
def round2 : PyFloat → PyFloat
  | fin q => ofRat (mkRat (roundHalfEven (q * 100)) 100)
  | x => x

/-- `float(text)` of a plain decimal: an optional sign, digits, and a fraction. -/
def parse? (text : String) : Option PyFloat := do
  let (sign, body) := match text.toList with
    | '-' :: cs => ((-1 : Int), cs)
    | '+' :: cs => (1, cs)
    | cs => (1, cs)
  let whole := body.takeWhile (· != '.')
  let fraction := body.drop (whole.length + 1)
  let n ← PyStr.digits? 0 true (whole ++ fraction)
  return ofRat (mkRat (sign * n) (10 ^ fraction.length))

/-- The shortest decimal `n * 10 ^ e` (at most `d` digits tried from here on) that
    rounds back to the double `a`. -/
def shortest (a : Rat) (e10 : Int) : (fuel : Nat) → (d : Nat) → Int × Int
  | 0, d => (roundHalfEven (a / pow10 (e10 - d + 1)), e10 - d + 1)
  | fuel + 1, d =>
    let e := e10 - d + 1
    let n := roundHalfEven (a / pow10 e)
    if ofRat (n * pow10 e) = fin a then (n, e) else shortest a e10 fuel (d + 1)

/-- Digits and the position of the decimal point, laid out as `repr(float)` does. -/
def layout (digits : List Char) (point : Int) : String :=
  let zeros (n : Nat) := List.replicate n '0'
  if -4 < point ∧ point ≤ 16 then
    if point ≤ 0 then "0." ++ String.ofList (zeros (-point).toNat ++ digits)
    else if (digits.length : Int) ≤ point then
      String.ofList (digits ++ zeros (point.toNat - digits.length)) ++ ".0"
    else
      String.ofList (digits.take point.toNat) ++ "." ++ String.ofList (digits.drop point.toNat)
  else
    let exponent := point - 1
    let power := (toString exponent.natAbs).toList
    String.ofList (digits.take 1) ++
      (if digits.length ≤ 1 then "" else "." ++ String.ofList (digits.drop 1)) ++
      (if exponent < 0 then "e-" else "e+") ++
      String.ofList (zeros (2 - power.length) ++ power)

/-- `repr(x)`, which is also `str(x)`. -/
def repr : PyFloat → String
  | nan => "nan"
  | inf neg => if neg then "-inf" else "inf"
  | fin q =>
    if q = 0 then "0.0"
    else
      let a := if q < 0 then -q else q
      let (n, e) := shortest a (log10Floor a) 16 1
      let digits := (toString n).toList
      let stripped := (digits.reverse.dropWhile (· == '0')).reverse
      (if q < 0 then "-" else "") ++ layout stripped (digits.length + e)

@[simp] theorem beq_fin (a b : Rat) : (fin a).beq (fin b) = decide (a = b) := rfl

theorem beq_comm (a b : PyFloat) : a.beq b = b.beq a := by
  cases a <;> cases b <;> simp [beq, eq_comm, Bool.beq_comm]

theorem beq_self_iff {a : PyFloat} : a.beq a = true ↔ a ≠ nan := by
  cases a <;> simp [beq]

end PyFloat
