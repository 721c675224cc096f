/-
  Binary64 — the finite double-precision numbers, and the decimals by which they are written.

  A finite double is a sign and a *code*, the number its other 63 bits spell.  Codes are ordered as
  the magnitudes are, and every magnitude is a whole number of *units* of 2^-1074, the least
  positive double:

    * below 2^53 the code is the number of units;
    * above, each further 2^52 codes double the step, so code `e * 2^52 + m` with `2^52 ≤ m < 2^53`
      stands for `m * 2^e` units.

  1. **`units`** reads a code; **`nearest`** finds the code closest to a quotient of naturals, a tie
     going to the even code.  Both are total functions on naturals, and every operation below is one
     exact computation between them.
  2. **`ofNat`**, **`mulCode`** and **`divCode`** round once each; **`scale`** puts them together.  A
     result at or beyond the first magnitude that a double cannot hold is `none`.
  3. **Digits.**  Every double owns an interval of reals that round to it: half a step to either
     side, one quarter of a step below where the step halves there, the ends included exactly when
     the code is even.  A decimal `d * 10 ^ k` names the double if it lies in that interval.  The
     coarsest grid of such decimals wins, the one with the largest `k`, and on it the decimal nearest
     to the double, of two equally near ones the even; a coarser grid means fewer digits.
  4. **Layout.**  `Layout` holds the decisions of the written form: where positional notation ends
     on either side, and how an exponent is marked.  `Number.layout` is the one used here.
-/

namespace PlatformClient

/-- How many codes in a row have the same step: 2^52. -/
def Binary64.period : Nat := 0x10000000000000

/-- The first code that is no finite number. -/
def Binary64.infinity : Nat := 2047 * Binary64.period

/-- A finite double-precision number. -/
structure Binary64 where
  negative : Bool
  code : Nat
  finite : code < Binary64.infinity
  deriving DecidableEq, Repr

namespace Binary64

/-! ## Codes and magnitudes -/

/-- The exponent a code stands for: its step is `2 ^ exponent` units. -/
def exponent (code : Nat) : Nat := code / period - 1

/-- The significand a code stands for: its magnitude is `significand * 2 ^ exponent` units. -/
def significand (code : Nat) : Nat := code - exponent code * period

/-- The magnitude of a code, in units of 2^-1074. -/
def units (code : Nat) : Nat := significand code * Nat.pow 2 (exponent code)

/-- `a / b` rounded to the nearest natural number, a tie going to the even one. -/
def roundQuotient (a b : Nat) : Nat :=
  let q := a / b
  let r := a % b
  if 2 * r < b then q else if b < 2 * r then q + 1 else q + q % 2

/-- How many units make one: 2^1074. -/
def perOne : Nat := Nat.pow 2 1074

/-- The code nearest to the magnitude `a / b`.  The step is chosen so that the significand has 53
    bits, unless the magnitude is so small that the least step leaves it fewer. -/
def nearest (a b : Nat) : Nat :=
  let n := a * perOne
  let e := (n / b).log2 - 52
  e * period + roundQuotient n (b * Nat.pow 2 e)

/-- The number with a sign and a code, unless the code lies beyond the finite ones. -/
def ofCode? (negative : Bool) (code : Nat) : Option Binary64 :=
  if h : code < infinity then some ⟨negative, code, h⟩ else none

/-- Zero, with a sign. -/
def zero (negative : Bool) : Binary64 := ⟨negative, 0, by decide⟩

/-- All 64 bits of a number. -/
def bits (x : Binary64) : UInt64 :=
  UInt64.ofNat ((if x.negative then 0x8000000000000000 else 0) + x.code)

/-! ## Scaling by a power of ten -/

/-- The code nearest to a natural number. -/
def ofNat (n : Nat) : Nat := nearest n 1

/-- The code nearest to `10 ^ k`. -/
def powerOfTen (k : Nat) : Nat := ofNat (Nat.pow 10 k)

/-- The product of the magnitudes of two codes, rounded once. -/
def mulCode (x y : Nat) : Nat := nearest (units x * units y) (perOne * perOne)

/-- The quotient of the magnitudes of two codes, rounded once. -/
def divCode (x y : Nat) : Nat := nearest (units x) (units y)

/-- The largest power of ten that a double can hold. -/
def maxPower : Nat := 308

/-- `scaleDown n code k` divides by `10 ^ k`, where a divisor too large for a double is split: whole
    factors of `10 ^ 308` go first.  `n` bounds the number of factors; zero stays zero. -/
def scaleDown : Nat → Nat → Nat → Nat
  | 0, code, k => divCode code (powerOfTen k)
  | n + 1, code, k =>
    if k ≤ maxPower then divCode code (powerOfTen k)
    else if code = 0 then 0
    else scaleDown n (divCode code (powerOfTen maxPower)) (k - maxPower)

/-- The code of `digits * 10 ^ exponent` as a reader computes it that rounds the digits first, then
    the power of ten, and then their product or quotient.  `none` means too large. -/
def scale (digits : Nat) (exponent : Int) : Option Nat :=
  let code := ofNat digits
  if 0 ≤ exponent then
    if exponent.toNat ≤ maxPower then
      let product := mulCode code (powerOfTen exponent.toNat)
      if product < infinity then some product else none
    else if code = 0 then some 0
    else none
  else some (scaleDown 4 code (-exponent).toNat)

example : units (ofNat 3) = 3 * perOne := by decide +kernel
example : scale 5 (-324) = some 1 := by decide +kernel
example : scale 1 309 = none := by decide +kernel

/-! ## Digits -/

/-- A decimal: `digits * 10 ^ exponent`. -/
structure Decimal where
  digits : Nat
  exponent : Int
  deriving DecidableEq, Repr

/-- Half the distance to the neighbour below and above, in quarters of a unit. -/
def reach (code : Nat) : Nat × Nat :=
  let step := Nat.pow 2 (exponent code)
  (if code % period = 0 ∧ 0 < exponent code then step else 2 * step, 2 * step)

/-- Whether `a / b`, in quarters of a unit, rounds to the code. -/
def owns (code a b : Nat) : Bool :=
  let (down, up) := reach code
  let value := 4 * units code
  let lo := (value - down) * b
  let hi := (value + up) * b
  if code % 2 = 0 then lo ≤ a && a ≤ hi else lo < a && a < hi

/-- The decimal nearest to the code among those of exponent `k` that round to it. -/
def onGrid? (code : Nat) (k : Int) : Option Decimal :=
  -- a grid point `d` is `d * num / den` quarters of a unit
  let num := 4 * perOne * Nat.pow 10 k.toNat
  let den := Nat.pow 10 (-k).toNat
  let value := 4 * units code * den
  let d := value / num
  let below := owns code (d * num) den && d != 0
  let above := owns code ((d + 1) * num) den
  let down := value - d * num
  let up := (d + 1) * num - value
  let nearer := down < up || (down == up && d % 2 == 0)
  if below && (nearer || !above) then some ⟨d, k⟩
  else if above then some ⟨d + 1, k⟩
  else none

/-- The largest decimal exponent worth trying: `10 ^ 309` exceeds every double. -/
def topExponent : Nat := 309

/-- The least decimal that rounds to a code: zero, or a hit on the coarsest grid.  Steps of
    `10 ^ -343` are finer than half a unit, so a hit is among the grids tried. -/
def shortest (code : Nat) : Decimal :=
  if code = 0 then ⟨0, 0⟩
  else ((List.range 653).findSome? fun (i : Nat) => onGrid? code ((topExponent : Int) - i)).getD ⟨0, 0⟩

/-! ## Layout -/

/-- The decisions of a written form. -/
structure Layout where
  /-- The least decimal point position written without an exponent. -/
  lowest : Int
  /-- The greatest decimal point position written without an exponent. -/
  highest : Int
  /-- What marks an exponent that is not negative. -/
  raised : String
  /-- What marks a negative exponent, whose digits follow without a sign. -/
  lowered : String
  deriving DecidableEq, Repr

/-- Numbers from 10^-5 up to below 10^16 are written out; others get `e+` or `e-`. -/
def layout : Layout := ⟨-4, 16, "e+", "e-"⟩

/-- The text of a decimal.  The point stands after the first `point` digits. -/
def Layout.render (l : Layout) (x : Decimal) : String :=
  let ds := Nat.toDigits 10 x.digits
  let point : Int := ds.length + x.exponent
  if x.digits = 0 then "0.0"
  else if point < l.lowest || l.highest < point then
    let mantissa := match ds with
      | d :: [] => [d]
      | d :: rest => d :: '.' :: rest
      | [] => []
    let e := point - 1
    String.ofList mantissa ++ (if 0 ≤ e then l.raised else l.lowered) ++ Nat.repr e.natAbs
  else if point ≤ 0 then
    "0." ++ String.ofList (List.replicate (-point).toNat '0' ++ ds)
  else
    let whole := ds.take point.toNat ++ List.replicate (point.toNat - ds.length) '0'
    let part := ds.drop point.toNat
    String.ofList (whole ++ '.' :: (if part.isEmpty then ['0'] else part))

/-- The text of a number: the shortest decimal that reads back as it. -/
def text (x : Binary64) : String :=
  (if x.negative then "-" else "") ++ layout.render (shortest x.code)

example : shortest 0x430B92B466D5EE1E = ⟨9701409860315558, -1⟩ := by decide +kernel
example : layout.render ⟨1, 0⟩ = "1.0" := by decide +kernel
example : layout.render ⟨1, -5⟩ = "0.00001" := by decide +kernel
example : layout.render ⟨15, -8⟩ = "1.5e-7" := by decide +kernel
example : layout.render ⟨1, 15⟩ = "1000000000000000.0" := by decide +kernel
example : layout.render ⟨1, 16⟩ = "1e+16" := by decide +kernel

end Binary64

end PlatformClient
