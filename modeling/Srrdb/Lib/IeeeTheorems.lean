/-
Srrdb.Lib.IeeeTheorems — order and rounding of the IEEE formats.

The magnitudes of a format are ordered as their values are, and rounding to
the nearest value keeps the order. So a conversion from integers is monotone,
and a difference rounds to less than the format's epsilon exactly when it is
below the midpoint under epsilon (`lt_epsilon_iff`).
-/
import Srrdb.Lib.Ieee
import Mathlib.Order.Monotone.Basic

namespace Srrdb.Lib.Ieee.Format

variable (F : Format)

/-! ## Magnitudes -/

theorem scaledMagnitude_lt (mag : Nat) :
    F.scaledMagnitude mag < 2 ^ F.fracBits * 2 ^ (mag / 2 ^ F.fracBits) := by
  have hm : mag % 2 ^ F.fracBits < 2 ^ F.fracBits := Nat.mod_lt _ (Nat.two_pow_pos _)
  unfold scaledMagnitude
  simp only
  split
  · next he => rw [he]; omega
  · next he =>
    obtain ⟨e, he'⟩ := Nat.exists_eq_succ_of_ne_zero he
    rw [he', Nat.succ_sub_one, Nat.pow_succ, Nat.mul_comm (2 ^ e) 2, ← Nat.mul_assoc]
    exact Nat.mul_lt_mul_of_pos_right (by omega) (Nat.two_pow_pos _)

theorem le_scaledMagnitude {mag : Nat} (h : mag / 2 ^ F.fracBits ≠ 0) :
    2 ^ F.fracBits * 2 ^ (mag / 2 ^ F.fracBits - 1) ≤ F.scaledMagnitude mag := by
  unfold scaledMagnitude
  simp only [if_neg h]
  exact Nat.mul_le_mul_right _ (Nat.le_add_right _ _)

/-- The order of magnitudes is that of their values. -/
theorem scaledMagnitude_strictMono : StrictMono F.scaledMagnitude := by
  intro a b hab
  rcases Nat.lt_or_eq_of_le (Nat.div_le_div_right (c := 2 ^ F.fracBits) hab.le) with he | he
  · have hb : b / 2 ^ F.fracBits ≠ 0 := Nat.ne_zero_of_lt he
    have hpow : 2 ^ (a / 2 ^ F.fracBits) ≤ 2 ^ (b / 2 ^ F.fracBits - 1) :=
      Nat.pow_le_pow_right (by decide) (by omega)
    calc F.scaledMagnitude a < 2 ^ F.fracBits * 2 ^ (a / 2 ^ F.fracBits) := F.scaledMagnitude_lt a
      _ ≤ 2 ^ F.fracBits * 2 ^ (b / 2 ^ F.fracBits - 1) := Nat.mul_le_mul_left _ hpow
      _ ≤ F.scaledMagnitude b := F.le_scaledMagnitude hb
  · have ha := Nat.div_add_mod a (2 ^ F.fracBits)
    have hb := Nat.div_add_mod b (2 ^ F.fracBits)
    rw [← he] at hb
    have hm : a % 2 ^ F.fracBits < b % 2 ^ F.fracBits := by omega
    unfold scaledMagnitude
    simp only [← he]
    split
    · exact hm
    · exact Nat.mul_lt_mul_of_pos_right (by omega) (Nat.two_pow_pos _)

theorem scaledMagnitude_zero : F.scaledMagnitude 0 = 0 := by
  simp [scaledMagnitude]

theorem infBits_lt_signBit : F.infBits < F.signBit := by
  rw [infBits, signBit, expMax, Nat.pow_add, Nat.mul_comm (2 ^ F.fracBits)]
  exact Nat.mul_lt_mul_of_pos_right (Nat.sub_lt (Nat.two_pow_pos _) Nat.one_pos)
    (Nat.two_pow_pos _)

/-! ## Rounding to a whole number -/

theorem div_le_roundEven (n den : Nat) : n / den ≤ roundEven n den := by
  unfold roundEven
  simp only
  split <;> omega

theorem roundEven_le_succ (n den : Nat) : roundEven n den ≤ n / den + 1 := by
  unfold roundEven
  simp only
  split <;> omega

theorem roundEven_mono {n m : Nat} (h : n ≤ m) (den : Nat) : roundEven n den ≤ roundEven m den := by
  rcases Nat.lt_or_eq_of_le (Nat.div_le_div_right (c := den) h) with hq | hq
  · calc roundEven n den ≤ n / den + 1 := roundEven_le_succ n den
      _ ≤ m / den := hq
      _ ≤ roundEven m den := div_le_roundEven m den
  · have hn := Nat.div_add_mod n den
    have hm := Nat.div_add_mod m den
    rw [← hq] at hm
    have hr : n % den ≤ m % den := by omega
    unfold roundEven
    simp only [← hq]
    split <;> split <;> omega

theorem roundEven_mul (q : Nat) {den : Nat} (h : 0 < den) : roundEven (q * den) den = q := by
  unfold roundEven
  simp only [Nat.mul_div_cancel q h, Nat.mul_mod_left]
  rw [if_neg]
  omega

theorem roundEven_le {n q den : Nat} (hden : 0 < den) (h : n ≤ q * den) : roundEven n den ≤ q :=
  (roundEven_mono h den).trans_eq (roundEven_mul q hden)

theorem le_roundEven {n q den : Nat} (hden : 0 < den) (h : q * den ≤ n) : q ≤ roundEven n den :=
  (roundEven_mul q hden).symm.trans_le (roundEven_mono h den)

/-- Rounding stays under an even number exactly below the midpoint under it. -/
theorem roundEven_lt_iff {n q h : Nat} (hq : q % 2 = 0) (hpos : 0 < h) :
    roundEven n (2 * h) < q ↔ n + h < q * (2 * h) := by
  have hn := Nat.div_add_mod n (2 * h)
  have hr : n % (2 * h) < 2 * h := Nat.mod_lt _ (by omega)
  rcases Nat.lt_trichotomy (n / (2 * h) + 1) q with hlt | heq | hgt
  · refine iff_of_true ((roundEven_le_succ n (2 * h)).trans_lt hlt) ?_
    have hmul := Nat.mul_le_mul_left (2 * h) (show n / (2 * h) + 2 ≤ q from hlt)
    rw [Nat.mul_add] at hmul
    rw [Nat.mul_comm q]
    omega
  · -- the quotient is odd, so the midpoint goes up
    have hodd : n / (2 * h) % 2 = 1 := by omega
    have hmul : q * (2 * h) = 2 * h * (n / (2 * h)) + 2 * h := by
      rw [← heq, Nat.add_mul, Nat.mul_comm, Nat.one_mul]
    unfold roundEven
    simp only [hodd, and_true]
    rw [hmul]
    generalize 2 * h * (n / (2 * h)) = whole at hn
    split <;> omega
  · refine iff_of_false (fun hlt => ?_) fun hlt => ?_
    · have := div_le_roundEven n (2 * h)
      omega
    · have hmul := Nat.mul_le_mul_left (2 * h) (show q ≤ n / (2 * h) by omega)
      rw [Nat.mul_comm q] at hlt
      omega

/-! ## Rounding to a value -/

/-- How many bits of a whole number do not fit the fraction. -/
def excess (n : Nat) : Nat := Nat.log2 n - F.fracBits

/-- Rounding with an unbounded exponent. -/
def roundMag (n : Nat) : Nat := F.excess n * 2 ^ F.fracBits + roundEven n (2 ^ F.excess n)

theorem round_one (n : Nat) : F.round n 1 = min (F.roundMag n) F.infBits := by
  simp [round, roundMag, excess]

theorem roundEven_excess_le (n : Nat) : roundEven n (2 ^ F.excess n) ≤ 2 ^ (F.fracBits + 1) := by
  refine roundEven_le (Nat.two_pow_pos _) ?_
  rw [← Nat.pow_add]
  have hlog : n < 2 ^ (n.log2 + 1) := Nat.lt_log2_self
  exact hlog.le.trans (Nat.pow_le_pow_right (by decide) (by unfold excess; omega))

theorem le_roundEven_excess {n : Nat} (h : 0 < F.excess n) :
    2 ^ F.fracBits ≤ roundEven n (2 ^ F.excess n) := by
  refine le_roundEven (Nat.two_pow_pos _) ?_
  have hn : n ≠ 0 := by rintro rfl; simp [excess] at h
  rw [← Nat.pow_add]
  refine le_trans (Nat.pow_le_pow_right (by decide) ?_) (Nat.log2_self_le hn)
  unfold excess at h ⊢
  omega

theorem roundMag_mono {n m : Nat} (h : n ≤ m) : F.roundMag n ≤ F.roundMag m := by
  have hlog : F.excess n ≤ F.excess m := by
    unfold excess
    rw [Nat.log2_eq_log_two, Nat.log2_eq_log_two]
    exact Nat.sub_le_sub_right (Nat.log_mono_right h) _
  rcases Nat.lt_or_eq_of_le hlog with hlt | heq
  · have hn := F.roundEven_excess_le n
    have hm := F.le_roundEven_excess (n := m) (by omega)
    have hmul := Nat.mul_le_mul_right (2 ^ F.fracBits) (show F.excess n + 1 ≤ F.excess m from hlt)
    rw [Nat.pow_succ] at hn
    rw [Nat.add_mul] at hmul
    unfold roundMag
    omega
  · unfold roundMag
    rw [← heq]
    exact Nat.add_le_add_left (roundEven_mono h _) _

theorem round_mono {n m : Nat} (h : n ≤ m) : F.round n 1 ≤ F.round m 1 := by
  rw [round_one, round_one]
  have hmag := F.roundMag_mono h
  omega

theorem ofDecimal_mono {n m : Nat} (h : n ≤ m) : F.ofDecimal false n 0 ≤ F.ofDecimal false m 0 :=
  F.round_mono (Nat.mul_le_mul_right _ (Nat.mul_le_mul_right _ h))

theorem round_zero : F.round 0 1 = 0 := by
  simp [round_one, roundMag, excess, roundEven]

theorem round_le_infBits (n den : Nat) : F.round n den ≤ F.infBits := min_le_right _ _

/-! ## Signs -/

theorem magnitude_withSign (neg : Bool) {mag : Nat} (h : mag < F.signBit) :
    F.magnitude (F.withSign neg mag) = mag := by
  unfold magnitude withSign
  split
  · rw [Nat.add_mod_left, Nat.mod_eq_of_lt h]
  · exact Nat.mod_eq_of_lt h

theorem isNegative_withSign (neg : Bool) {mag : Nat} (h : mag < F.signBit) :
    F.isNegative (F.withSign neg mag) = neg := by
  unfold isNegative withSign
  cases neg <;> simp [h]

theorem magnitude_lt (bits : Nat) : F.magnitude bits < F.signBit :=
  Nat.mod_lt _ (Nat.two_pow_pos _)

theorem scaled_withSign (neg : Bool) {mag : Nat} (h : mag < F.signBit) :
    F.scaled (F.withSign neg mag) =
      if neg then -(F.scaledMagnitude mag : Int) else F.scaledMagnitude mag := by
  rw [scaled, F.isNegative_withSign neg h, F.magnitude_withSign neg h]

theorem scaled_neg (a : Nat) : F.scaled (F.neg a) = -F.scaled a := by
  rw [neg, F.scaled_withSign _ (F.magnitude_lt a), scaled]
  cases F.isNegative a <;> simp

theorem round_lt_signBit (n den : Nat) : F.round n den < F.signBit :=
  (F.round_le_infBits n den).trans_lt F.infBits_lt_signBit

theorem magnitude_ofScaled (v : Int) : F.magnitude (F.ofScaled v) = F.round v.natAbs 1 :=
  F.magnitude_withSign _ (F.round_lt_signBit _ _)

theorem isNan_ofScaled (v : Int) : F.isNan (F.ofScaled v) = false := by
  rw [isNan, magnitude_ofScaled]
  simpa using F.round_le_infBits v.natAbs 1

/-- Rounding keeps the order, signs included. -/
theorem scaled_ofScaled_mono {v w : Int} (h : v ≤ w) :
    F.scaled (F.ofScaled v) ≤ F.scaled (F.ofScaled w) := by
  have hmono : ∀ {n m : Nat}, n ≤ m →
      F.scaledMagnitude (F.round n 1) ≤ F.scaledMagnitude (F.round m 1) :=
    fun hnm => F.scaledMagnitude_strictMono.monotone (F.round_mono hnm)
  rw [ofScaled, ofScaled, F.scaled_withSign _ (F.round_lt_signBit _ _),
    F.scaled_withSign _ (F.round_lt_signBit _ _)]
  by_cases hv : v < 0 <;> by_cases hw : w < 0
  · have := hmono (show w.natAbs ≤ v.natAbs by omega)
    simp only [hv, hw, decide_true, if_true]
    omega
  · simp only [hv, hw, decide_true, decide_false, if_true, Bool.false_eq_true, if_false]
    omega
  · omega
  · have := hmono (show v.natAbs ≤ w.natAbs by omega)
    simp only [hv, hw, decide_false, Bool.false_eq_true, if_false]
    omega

/-! ## Integers -/

theorem isNan_ofInt (n : Int) : F.isNan (F.ofInt n) = false := F.isNan_ofScaled _

/-- The conversion from integers is monotone. -/
theorem scaled_ofInt_mono {n m : Int} (h : n ≤ m) :
    F.scaled (F.ofInt n) ≤ F.scaled (F.ofInt m) := by
  refine F.scaled_ofScaled_mono (Int.mul_le_mul_of_nonneg_right h ?_)
  exact Int.pow_nonneg (by decide)

/-! ## Comparison -/

theorem partialCmp_of_not_nan {a b : Nat} (ha : F.isNan a = false) (hb : F.isNan b = false) :
    F.partialCmp a b = some (compare (F.scaled a) (F.scaled b)) := by
  simp [partialCmp, ha, hb]

theorem partialCmp_eq_none_iff {a b : Nat} :
    F.partialCmp a b = none ↔ F.isNan a = true ∨ F.isNan b = true := by
  unfold partialCmp
  split
  · next h => simpa using h
  · next h => simpa using h

theorem partialCmp_swap (a b : Nat) :
    F.partialCmp b a = (F.partialCmp a b).map Ordering.swap := by
  unfold partialCmp
  rw [Bool.or_comm]
  split
  · rfl
  · rw [Option.map_some, ← Std.OrientedCmp.eq_swap]

/-- Two patterns have the same value when they are the same, or two zeros. -/
theorem scaled_eq_scaled_iff {a b : Nat} (ha : a < 2 * F.signBit) (hb : b < 2 * F.signBit) :
    F.scaled a = F.scaled b ↔ a = b ∨ F.magnitude a = 0 ∧ F.magnitude b = 0 := by
  have hinj := F.scaledMagnitude_strictMono.injective
  have hzero : ∀ {m : Nat}, F.scaledMagnitude m = 0 → m = 0 := fun h =>
    hinj (h.trans F.scaledMagnitude_zero.symm)
  constructor
  · intro h
    unfold scaled at h
    cases hna : F.isNegative a <;> cases hnb : F.isNegative b <;>
      simp only [hna, hnb, if_true, Bool.false_eq_true, if_false] at h
    case true.true | false.false =>
      have hmag : F.magnitude a = F.magnitude b := hinj (by omega)
      refine .inl (F.totalKey_injective ha hb ?_)
      rw [totalKey, totalKey, hna, hnb, hmag]
    case true.false | false.true => exact .inr ⟨hzero (by omega), hzero (by omega)⟩
  · rintro (rfl | ⟨hmaga, hmagb⟩)
    · rfl
    · simp [scaled, hmaga, hmagb, scaledMagnitude_zero]

/-- IEEE equality: of numbers, the same pattern or two zeros. -/
theorem ieeeEq_iff {a b : Nat} (ha : a < 2 * F.signBit) (hb : b < 2 * F.signBit) :
    F.ieeeEq a b = true ↔
      F.isNan a = false ∧ (a = b ∨ F.magnitude a = 0 ∧ F.magnitude b = 0) := by
  have hnan : ∀ {n : Nat}, F.magnitude n = 0 → F.isNan n = false := fun h => by simp [isNan, h]
  rw [← F.scaled_eq_scaled_iff ha hb]
  cases hna : F.isNan a with
  | true => simp [ieeeEq, F.partialCmp_eq_none_iff.mpr (.inl hna)]
  | false =>
    cases hnb : F.isNan b with
    | true =>
      have hne : ¬ F.scaled a = F.scaled b := by
        intro h
        rcases (F.scaled_eq_scaled_iff ha hb).mp h with rfl | ⟨-, hmag⟩
        · rw [hna] at hnb; cases hnb
        · rw [hnan hmag] at hnb; cases hnb
      simp [ieeeEq, F.partialCmp_eq_none_iff.mpr (.inr hnb), hne]
    | false =>
      simp [ieeeEq, F.partialCmp_of_not_nan hna hnb, Std.LawfulEqCmp.compare_eq_iff_eq]

theorem lt_iff {a b : Nat} : F.lt a b = true ↔
    F.isNan a = false ∧ F.isNan b = false ∧ F.scaled a < F.scaled b := by
  unfold lt partialCmp
  cases F.isNan a <;> cases F.isNan b <;> simp [Int.compare_eq_lt]

/-! ## Distance -/

/-- There is a fraction, and the exponent range reaches far enough below one to
hold epsilon and the values half way under it. -/
structure Wide : Prop where
  fraction : 0 < F.fracBits
  unit : 2 * F.fracBits + 2 ≤ F.unit

theorem binary32_wide : binary32.Wide := ⟨by decide, by decide⟩

theorem binary64_wide : binary64.Wide := ⟨by decide, by decide⟩

/-- The midpoint of epsilon and the value below it, in smallest subnormals. -/
def closeBound : Nat :=
  2 ^ (F.unit - F.fracBits) - 2 ^ (F.unit - 2 * F.fracBits - 2)

variable {F}

theorem epsilon_eq (hF : F.Wide) :
    F.epsilon = (F.unit - 2 * F.fracBits + 1) * 2 ^ F.fracBits := by
  have hF := hF.unit
  have hquot : 2 ^ F.unit / 2 ^ F.fracBits = 2 ^ (F.unit - F.fracBits) :=
    Nat.pow_div (by omega) (by decide)
  have hshift : F.unit - F.fracBits - F.fracBits = F.unit - 2 * F.fracBits := by omega
  have hunit : 2 ^ F.unit =
      2 ^ F.fracBits * (2 ^ F.fracBits * 2 ^ (F.unit - 2 * F.fracBits)) := by
    rw [← Nat.pow_add, ← Nat.pow_add]
    congr 1
    omega
  have hround : roundEven (2 ^ F.unit) (2 ^ F.fracBits * 2 ^ (F.unit - 2 * F.fracBits)) =
      2 ^ F.fracBits := by
    rw [hunit]
    exact roundEven_mul _ (Nat.mul_pos (Nat.two_pow_pos _) (Nat.two_pow_pos _))
  have hexp : F.unit - 2 * F.fracBits + 1 ≤ F.expMax := by
    have hle : 2 ^ (F.expBits - 1) ≤ 2 ^ F.expBits := Nat.pow_le_pow_right (by decide) (by omega)
    unfold Format.unit expMax at *
    omega
  rw [epsilon, round, hquot, Nat.log2_two_pow, hshift, hround, Nat.add_mul, Nat.one_mul,
    Nat.min_eq_left]
  rw [← Nat.succ_mul]
  exact Nat.mul_le_mul_right _ hexp

theorem epsilon_le_infBits : F.epsilon ≤ F.infBits := F.round_le_infBits _ _

/-- The last binade below epsilon. -/
theorem roundMag_lt_iff (hF : F.Wide) {n : Nat} (hlow : 2 ^ (F.unit - F.fracBits - 1) ≤ n)
    (hhigh : n < 2 ^ (F.unit - F.fracBits)) :
    F.roundMag n < F.epsilon ↔ n < F.closeBound := by
  have hunit := hF.unit
  obtain ⟨s, hs⟩ : ∃ s, F.unit - 2 * F.fracBits = s + 2 := ⟨_, (Nat.sub_add_cancel (by omega)).symm⟩
  have hexp : F.unit - F.fracBits = F.fracBits + 1 + (s + 1) := by omega
  have hlog : n.log2 = F.fracBits + (s + 1) := by
    have hn : n ≠ 0 := by
      have := Nat.two_pow_pos (F.unit - F.fracBits - 1)
      omega
    rw [Nat.log2_eq_iff hn]
    rw [hexp] at hlow hhigh
    exact ⟨by convert hlow using 2; omega, by convert hhigh using 2; omega⟩
  have hexcess : F.excess n = s + 1 := by unfold excess; omega
  have heven : 2 ^ (F.fracBits + 1) % 2 = 0 := by rw [Nat.pow_succ]; omega
  have hround := roundEven_lt_iff (n := n) heven (Nat.two_pow_pos s)
  have hwide : 2 ^ (F.unit - F.fracBits) = 2 ^ (F.fracBits + 1) * (2 * 2 ^ s) := by
    rw [hexp, Nat.pow_add, Nat.pow_succ 2 s, Nat.mul_comm (2 ^ s)]
  rw [roundMag, hexcess, epsilon_eq hF, hs, closeBound, hwide,
    show F.unit - 2 * F.fracBits - 2 = s by omega, Nat.pow_succ 2 s, Nat.mul_comm (2 ^ s)]
  rw [Nat.pow_succ] at hround ⊢
  have hsplit : (s + 2 + 1) * 2 ^ F.fracBits = (s + 1) * 2 ^ F.fracBits + 2 ^ F.fracBits * 2 := by
    rw [← Nat.mul_comm 2, ← Nat.add_mul]
  rw [hsplit]
  omega

theorem closeBound_between (hF : F.Wide) : 2 ^ (F.unit - F.fracBits - 1) < F.closeBound ∧
    F.closeBound < 2 ^ (F.unit - F.fracBits) := by
  have hF := hF.unit
  have hpow : 2 ^ (F.unit - F.fracBits) = 2 * 2 ^ (F.unit - F.fracBits - 1) := by
    rw [← Nat.pow_succ']
    congr 1
    omega
  have hgap : 2 ^ (F.unit - 2 * F.fracBits - 2) < 2 ^ (F.unit - F.fracBits - 1) :=
    Nat.pow_lt_pow_right (by decide) (by omega)
  have hpos := Nat.two_pow_pos (F.unit - 2 * F.fracBits - 2)
  unfold closeBound
  omega

theorem closeBound_pos (hF : F.Wide) : 0 < F.closeBound :=
  (Nat.zero_le _).trans_lt (closeBound_between hF).1

/-- A whole number rounds to less than epsilon exactly when it is below the
midpoint under epsilon. -/
theorem round_lt_epsilon_iff (hF : F.Wide) {n : Nat} :
    F.round n 1 < F.epsilon ↔ n < F.closeBound := by
  have hinf := F.epsilon_le_infBits
  have hmin : F.round n 1 < F.epsilon ↔ F.roundMag n < F.epsilon := by
    rw [round_one]
    omega
  obtain ⟨hlower, hupper⟩ := closeBound_between hF
  rw [hmin]
  rcases Nat.lt_or_ge n (2 ^ (F.unit - F.fracBits - 1)) with hlow | hlow
  · refine iff_of_true ((F.roundMag_mono hlow.le).trans_lt ?_) (hlow.trans hlower)
    exact (roundMag_lt_iff hF le_rfl (hlower.trans hupper)).mpr hlower
  rcases Nat.lt_or_ge n (2 ^ (F.unit - F.fracBits)) with hhigh | hhigh
  · exact roundMag_lt_iff hF hlow hhigh
  · refine iff_of_false (Nat.not_lt.mpr ?_) (by omega)
    refine le_trans ?_ (F.roundMag_mono (hupper.le.trans hhigh))
    exact Nat.not_lt.mp fun h => Nat.lt_irrefl _ ((roundMag_lt_iff hF hlower.le hupper).mp h)

theorem magnitude_of_lt {mag : Nat} (h : mag < F.signBit) : F.magnitude mag = mag :=
  Nat.mod_eq_of_lt h

theorem scaled_of_lt {mag : Nat} (h : mag < F.signBit) :
    F.scaled mag = F.scaledMagnitude mag := by
  rw [scaled, magnitude_of_lt h, isNegative]
  simp [Nat.not_le.mpr h]

theorem abs_lt_epsilon_iff (a : Nat) :
    F.lt (F.abs a) F.epsilon = true ↔ F.magnitude a < F.epsilon := by
  have ha : F.magnitude a < F.signBit := F.magnitude_lt a
  have hinf := F.epsilon_le_infBits
  have heps : F.epsilon < F.signBit := hinf.trans_lt F.infBits_lt_signBit
  rw [lt_iff, abs, scaled_of_lt ha, scaled_of_lt heps, isNan, isNan, magnitude_of_lt ha,
    magnitude_of_lt heps, Int.ofNat_lt, F.scaledMagnitude_strictMono.lt_iff_lt]
  simp only [decide_eq_false_iff_not]
  omega

theorem infBits_le_magnitude_nan (hF : F.Wide) : F.infBits ≤ F.magnitude F.nan := by
  have hlt : F.nan < F.signBit := by
    have hhalf : 2 ^ (F.fracBits - 1) < 2 ^ F.fracBits :=
      Nat.pow_lt_pow_right (by decide) (Nat.sub_lt hF.fraction Nat.one_pos)
    have hexp : F.expMax + 1 = 2 ^ F.expBits := Nat.sub_add_cancel (Nat.two_pow_pos _)
    rw [nan, infBits, signBit, Nat.pow_add, Nat.mul_comm (2 ^ F.fracBits), ← hexp, Nat.add_mul]
    omega
  rw [magnitude_of_lt hlt]
  exact Nat.le_add_right _ _

/-- Addition gives a NaN or an infinity exactly of these. -/
theorem magnitude_add_lt_epsilon_iff (hF : F.Wide) (a b : Nat) :
    F.magnitude (F.add a b) < F.epsilon ↔
      F.isNan a = false ∧ F.isNan b = false ∧ F.isInf a = false ∧ F.isInf b = false ∧
        (F.scaled a + F.scaled b).natAbs < F.closeBound := by
  have hinf := F.epsilon_le_infBits
  have hnan := infBits_le_magnitude_nan hF
  have hinf' : ∀ x, F.isInf x = true → ¬ F.magnitude x < F.epsilon := by
    intro x hx
    rw [isInf, decide_eq_true_iff] at hx
    omega
  unfold add
  cases hna : F.isNan a with
  | true => simp only [Bool.true_or, if_true]; refine iff_of_false (by omega) (by simp)
  | false =>
    cases hnb : F.isNan b with
    | true => simp only [Bool.or_true, if_true]; refine iff_of_false (by omega) (by simp)
    | false =>
      simp only [Bool.or_false, Bool.false_eq_true, if_false]
      cases hia : F.isInf a with
      | true =>
        refine iff_of_false ?_ (by simp)
        simp only [if_true]
        split
        · omega
        · exact hinf' a hia
      | false =>
        cases hib : F.isInf b with
        | true => exact iff_of_false (by simpa using hinf' b hib) (by simp)
        | false =>
          simp only [Bool.false_eq_true, if_false, true_and]
          split
          · next hzero =>
            rw [F.magnitude_withSign _ (Nat.two_pow_pos _), hzero, ← F.round_zero]
            exact round_lt_epsilon_iff hF
          · rw [magnitude_ofScaled]
            exact round_lt_epsilon_iff hF

theorem isNan_neg (a : Nat) : F.isNan (F.neg a) = F.isNan a := by
  rw [isNan, neg, F.magnitude_withSign _ (F.magnitude_lt a), isNan]

theorem isInf_neg (a : Nat) : F.isInf (F.neg a) = F.isInf a := by
  rw [isInf, neg, F.magnitude_withSign _ (F.magnitude_lt a), isInf]

/-- Two values are closer than epsilon, as the rounded difference tells, exactly
when they are finite and their distance is below the midpoint under epsilon. -/
theorem sub_lt_epsilon_iff (hF : F.Wide) (a b : Nat) :
    F.lt (F.abs (F.sub a b)) F.epsilon = true ↔
      F.isNan a = false ∧ F.isNan b = false ∧ F.isInf a = false ∧ F.isInf b = false ∧
        (F.scaled a - F.scaled b).natAbs < F.closeBound := by
  rw [abs_lt_epsilon_iff, sub]
  have hadd := magnitude_add_lt_epsilon_iff hF a (F.neg b)
  rw [isNan_neg, isInf_neg, scaled_neg, ← Int.sub_eq_add_neg] at hadd
  cases hnb : F.isNan b with
  | true =>
    have hnan := infBits_le_magnitude_nan hF
    have hinf := F.epsilon_le_infBits
    exact iff_of_false (by simp only [if_true]; omega) (by simp)
  | false =>
    rw [hnb] at hadd
    simpa only [Bool.false_eq_true, if_false] using hadd

end Srrdb.Lib.Ieee.Format
