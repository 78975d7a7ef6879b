/-
Srrdb.Lib.Ieee — IEEE 754 binary formats on bit patterns.

A float is its bit pattern, a natural number below `2 ^ width`. Finite
values are read as whole multiples of the format's smallest subnormal
(`Format.scaled`), so comparison, subtraction and decimal conversion are
integer arithmetic followed by one rounding (`Format.round`, to nearest,
ties to even). Nothing here is specific to one program: a format is given
by its two field widths.

  * comparison      — `Format.partialCmp`, `Format.ieeeEq` (NaN is unequal to
                      everything, the zeros are equal) and `Format.totalKey`,
                      whose order is the IEEE total order;
  * arithmetic      — `Format.sub`, `Format.add`, `Format.ofInt`;
  * decimal text    — `Format.ofDecimal` reads `m * 10 ^ e` correctly rounded,
                      `Format.display` prints the shortest decimal that reads
                      back, without an exponent.
-/
import Mathlib.Algebra.Group.Int.Defs
import Mathlib.Algebra.Group.Nat.Defs
import Mathlib.Data.Nat.Log

namespace Srrdb.Lib.Ieee

/-- A binary interchange format: widths of the fraction and exponent fields. -/
structure Format where
  fracBits : Nat
  expBits : Nat
  deriving DecidableEq, Repr

/-- Single precision. -/
def binary32 : Format := ⟨23, 8⟩

/-- Double precision. -/
def binary64 : Format := ⟨52, 11⟩

namespace Format

variable (F : Format)

/-! ## Fields -/

/-- Place value of the sign bit. -/
def signBit : Nat := 2 ^ (F.fracBits + F.expBits)

/-- The exponent field of infinities and NaNs. -/
def expMax : Nat := 2 ^ F.expBits - 1

/-- The magnitude of infinity. -/
def infBits : Nat := F.expMax * 2 ^ F.fracBits

def isNegative (bits : Nat) : Bool := decide (F.signBit ≤ bits)

/-- The pattern without its sign bit. -/
def magnitude (bits : Nat) : Nat := bits % F.signBit

def isNan (bits : Nat) : Bool := decide (F.infBits < F.magnitude bits)

def isInf (bits : Nat) : Bool := decide (F.magnitude bits = F.infBits)

/-- The canonical quiet NaN. -/
def nan : Nat := F.infBits + 2 ^ (F.fracBits - 1)

/-- A pattern from a sign and a magnitude. -/
def withSign (neg : Bool) (mag : Nat) : Nat := if neg then F.signBit + mag else mag

/-- One is `2 ^ F.unit` smallest subnormals. -/
def unit : Nat := 2 ^ (F.expBits - 1) - 2 + F.fracBits

/-- A magnitude in smallest subnormals. Infinity reads as the power of two
above the largest finite value, which keeps the order. -/
def scaledMagnitude (mag : Nat) : Nat :=
  let e := mag / 2 ^ F.fracBits
  let m := mag % 2 ^ F.fracBits
  if e = 0 then m else (2 ^ F.fracBits + m) * 2 ^ (e - 1)

/-- A non-NaN pattern in smallest subnormals, with its sign. -/
def scaled (bits : Nat) : Int :=
  if F.isNegative bits then -(F.scaledMagnitude (F.magnitude bits) : Int)
  else F.scaledMagnitude (F.magnitude bits)

/-! ## Rounding -/

/-- Round half to even. -/
def roundEven (num den : Nat) : Nat :=
  let q := num / den
  let r := num % den
  if den < 2 * r ∨ (2 * r = den ∧ q % 2 = 1) then q + 1 else q

/-- The magnitude nearest to `num / den` smallest subnormals; overflow is
infinity. -/
def round (num den : Nat) : Nat :=
  let shift := Nat.log2 (num / den) - F.fracBits
  min (shift * 2 ^ F.fracBits + roundEven num (den * 2 ^ shift)) F.infBits

/-- A whole number of smallest subnormals, rounded. -/
def ofScaled (v : Int) : Nat := F.withSign (decide (v < 0)) (F.round v.natAbs 1)

/-! ## Arithmetic -/

/-- Conversion from an integer. -/
def ofInt (n : Int) : Nat := F.ofScaled (n * 2 ^ F.unit)

/-- The pattern with its sign flipped. -/
def neg (a : Nat) : Nat := F.withSign (!F.isNegative a) (F.magnitude a)

/-- Addition. An exact zero sum of opposite signs is `+0`. -/
def add (a b : Nat) : Nat :=
  if F.isNan a || F.isNan b then F.nan
  else if F.isInf a then
    if F.isInf b && F.isNegative a != F.isNegative b then F.nan else a
  else if F.isInf b then b
  else if F.scaled a + F.scaled b = 0 then
    F.withSign (F.isNegative a && F.isNegative b) 0
  else F.ofScaled (F.scaled a + F.scaled b)

/-- Subtraction. -/
def sub (a b : Nat) : Nat := if F.isNan b then F.nan else F.add a (F.neg b)

/-- Absolute value: the sign bit cleared. -/
def abs (a : Nat) : Nat := F.magnitude a

/-- The distance from one to the next value. -/
def epsilon : Nat := F.round (2 ^ F.unit) (2 ^ F.fracBits)

/-! ## Comparison -/

/-- Ordered comparison; `none` when a NaN is involved. -/
def partialCmp (a b : Nat) : Option Ordering :=
  if F.isNan a || F.isNan b then none else some (compare (F.scaled a) (F.scaled b))

/-- IEEE equality. -/
def ieeeEq (a b : Nat) : Bool := F.partialCmp a b == some .eq

/-- IEEE less-than. -/
def lt (a b : Nat) : Bool := F.partialCmp a b == some .lt

/-- The integer whose order is the IEEE total order. -/
def totalKey (bits : Nat) : Int :=
  if F.isNegative bits then -(F.magnitude bits : Int) - 1 else F.magnitude bits

/-! ## Decimal text -/

/-- The value `digits * 10 ^ exp10`, correctly rounded. -/
def ofDecimal (neg : Bool) (digits : Nat) (exp10 : Int) : Nat :=
  let mag := match exp10 with
    | .ofNat e => F.round (digits * 10 ^ e * 2 ^ F.unit) 1
    | .negSucc e => F.round (digits * 2 ^ F.unit) (10 ^ (e + 1))
  F.withSign neg mag

/-- The first decimal exponent, from `exp10` downwards, at which a multiple of
`10 ^ exp10` reads back as `mag`, with the closest such multiple. -/
def shortest (mag : Nat) : Nat → Int → Nat × Int
  | 0, exp10 => (0, exp10)
  | fuel + 1, exp10 =>
    let num := F.scaledMagnitude mag * 10 ^ (-exp10).toNat
    let den := 2 ^ F.unit * 10 ^ exp10.toNat
    let d := num / den
    let lowOk := decide (F.ofDecimal false d exp10 = mag)
    let highOk := decide (F.ofDecimal false (d + 1) exp10 = mag)
    if highOk && (!lowOk || decide (den ≤ 2 * (num % den))) then (d + 1, exp10)
    else if lowOk then (d, exp10)
    else shortest mag fuel (exp10 - 1)

/-- Digits with a decimal point, no exponent and no superfluous zeros. -/
def placePoint (digits : Nat) (exp10 : Int) : String :=
  match exp10 with
  | .ofNat e => toString (digits * 10 ^ e)
  | .negSucc e =>
    let cs := (toString digits).toList
    let padded := List.replicate (e + 2 - cs.length) '0' ++ cs
    String.ofList (padded.take (padded.length - (e + 1))) ++ "." ++
      String.ofList (padded.drop (padded.length - (e + 1)))

/-- The shortest decimal text that reads back as the value. -/
def display (bits : Nat) : String :=
  if F.isNan bits then "NaN"
  else
    let mag := F.magnitude bits
    let body :=
      if F.isInf bits then "inf"
      else if mag = 0 then "0"
      else
        let whole := F.scaledMagnitude mag / 2 ^ F.unit
        let start := Nat.log 10 whole + 1
        let (d, e) := F.shortest mag (start + F.unit + 1) start
        placePoint d e
    if F.isNegative bits then "-" ++ body else body

/-! ## The total order -/

/-- The total order separates every two patterns. -/
theorem totalKey_injective {a b : Nat} (ha : a < 2 * F.signBit) (hb : b < 2 * F.signBit)
    (h : F.totalKey a = F.totalKey b) : a = b := by
  have hlow : ∀ n, n < F.signBit → F.magnitude n = n := fun n hn => Nat.mod_eq_of_lt hn
  have hhigh : ∀ n, F.signBit ≤ n → n < 2 * F.signBit → F.magnitude n = n - F.signBit := by
    intro n hle hlt
    rw [magnitude, Nat.mod_eq_sub_mod hle, Nat.mod_eq_of_lt (by omega)]
  by_cases hna : F.signBit ≤ a <;> by_cases hnb : F.signBit ≤ b <;>
    simp only [totalKey, isNegative, hna, hnb, decide_true, decide_false, if_true,
      Bool.false_eq_true, if_false] at h
  · rw [hhigh a hna ha, hhigh b hnb hb] at h; omega
  · omega
  · omega
  · rw [hlow a (by omega), hlow b (by omega)] at h; omega

end Format

end Srrdb.Lib.Ieee
