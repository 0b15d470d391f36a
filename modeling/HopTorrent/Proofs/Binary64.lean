import HopTorrent.Binary64
import Mathlib.Algebra.Order.Field.Basic
import Mathlib.Data.Rat.Cast.Order
import Mathlib.Order.Monotone.Basic
import Mathlib.Tactic.GCongr
import Mathlib.Tactic.Linarith
import Mathlib.Tactic.Positivity
import Mathlib.Tactic.Ring

/-!
# Proofs/Binary64 — numbers as the rational values they stand for

The bits of a nonnegative number count the representable numbers below it, so its value grows with
its bits (`value_lt_value_iff`): comparing bits is comparing values.  Rounding keeps the order
(`ofRatio_mono`), and with it every operation that rounds an exact result does.
-/

namespace HopTorrent.Binary64

variable {x y : Binary64} {a b c d : ℕ}

/-! ## Values -/

/-- How often the smallest positive number goes into one. -/
def resolution : ℕ := 2 ^ 1074

theorem resolution_pos : 0 < resolution := pow_pos Nat.two_pos 1074

theorem two_pow_mul_resolution (k : ℕ) : 2 ^ k * resolution = 2 ^ (k + 1074) :=
  (pow_add 2 k 1074).symm

/-- The magnitude of a number, as a multiple of the smallest positive one. -/
def units (x : Binary64) : ℕ := x.significand * 2 ^ x.scale

/-- **The value of a number.** -/
def value (x : Binary64) : ℚ := (if x.negative then -1 else 1) * (x.units / resolution)

/-- The magnitude that stands at a place among all magnitudes. -/
def unitsAt (n : ℕ) : ℕ :=
  if n / 2 ^ 52 = 0 then n % 2 ^ 52 else (2 ^ 52 + n % 2 ^ 52) * 2 ^ (n / 2 ^ 52 - 1)

/-- **The magnitudes stand in order.** -/
theorem unitsAt_strictMono : StrictMono unitsAt := by
  refine strictMono_nat_of_lt_succ fun n => ?_
  rw [unitsAt, unitsAt]
  -- Either the next number has the same exponent, or it is the first one with the next exponent.
  obtain ⟨hq, hr⟩ | ⟨hq, hr, hl⟩ :
      (n + 1) / 2 ^ 52 = n / 2 ^ 52 ∧ (n + 1) % 2 ^ 52 = n % 2 ^ 52 + 1
        ∨ (n + 1) / 2 ^ 52 = n / 2 ^ 52 + 1 ∧ (n + 1) % 2 ^ 52 = 0 ∧ n % 2 ^ 52 = 2 ^ 52 - 1 := by
    omega
  · rw [hq, hr]
    split
    · exact Nat.lt_succ_self _
    · gcongr
      omega
  · rw [hq, hr, hl, if_neg (Nat.succ_ne_zero _), Nat.add_sub_cancel]
    split
    · rename_i h
      rw [h]
      norm_num
    · rename_i h
      obtain ⟨e, he⟩ := Nat.exists_eq_succ_of_ne_zero h
      rw [he, Nat.succ_sub_one, Nat.pow_succ]
      have hp : 0 < 2 ^ e := Nat.two_pow_pos e
      omega

theorem negative_eq_false_iff : x.negative = false ↔ x.bits.toNat < 2 ^ 63 := by
  have hb := x.bits.toNat_lt
  rw [negative, decide_eq_false_iff_not]
  simp only [Nat.pow_eq]
  omega

/-- The bits of a nonnegative number are its place. -/
theorem units_eq (h : x.negative = false) : x.units = unitsAt x.bits.toNat := by
  have hb := negative_eq_false_iff.mp h
  have he : x.bits.toNat / 2 ^ 52 % 2 ^ 11 = x.bits.toNat / 2 ^ 52 :=
    Nat.mod_eq_of_lt (by omega)
  rw [units, significand, scale, exponentField, fractionField, unitsAt]
  simp only [Nat.pow_eq]
  rw [he]
  split
  · rename_i h0
    rw [h0]
    exact Nat.mul_one _
  · rfl

theorem value_eq (h : x.negative = false) : x.value = x.units / resolution := by
  rw [value, h, if_neg Bool.false_ne_true, one_mul]

theorem value_nonneg (h : x.negative = false) : 0 ≤ x.value := by
  rw [value_eq h]
  positivity

theorem value_le_value_iff_units (hx : x.negative = false) (hy : y.negative = false) :
    x.value ≤ y.value ↔ x.units ≤ y.units := by
  have hp : (0 : ℚ) < resolution := Nat.cast_pos.mpr resolution_pos
  rw [value_eq hx, value_eq hy, div_le_div_iff_of_pos_right hp, Nat.cast_le]

/-- **Comparing the bits of nonnegative numbers is comparing their values.** -/
theorem value_le_value_iff (hx : x.negative = false) (hy : y.negative = false) :
    x.value ≤ y.value ↔ x.bits ≤ y.bits := by
  rw [value_le_value_iff_units hx hy, units_eq hx, units_eq hy, unitsAt_strictMono.le_iff_le]
  exact UInt64.le_iff_toNat_le.symm

theorem value_lt_value_iff (hx : x.negative = false) (hy : y.negative = false) :
    x.value < y.value ↔ x.bits < y.bits := by
  rw [← not_le, value_le_value_iff hy hx, UInt64.not_le]

/-! ## Fractions -/

theorem ratio_snd_pos (x : Binary64) : 0 < x.ratio.2 := by
  rw [ratio]
  split
  · exact Nat.one_pos
  · exact Nat.two_pow_pos _

/-- The fraction of a number is its magnitude. -/
theorem ratio_mul (x : Binary64) : x.ratio.1 * resolution = x.units * x.ratio.2 := by
  rw [ratio, units]
  simp only [Nat.pow_eq]
  split
  · rename_i h
    rw [mul_assoc, two_pow_mul_resolution, Nat.sub_add_cancel h, mul_one]
  · rename_i h
    rw [mul_assoc, ← pow_add, Nat.add_sub_cancel' (Nat.le_of_not_le h)]
    rfl

theorem value_eq_ratio (h : x.negative = false) : x.value = x.ratio.1 / x.ratio.2 := by
  have hd : (x.ratio.2 : ℚ) ≠ 0 := Nat.cast_ne_zero.mpr x.ratio_snd_pos.ne'
  have hn : (resolution : ℚ) ≠ 0 := Nat.cast_ne_zero.mpr resolution_pos.ne'
  have hr : (x.ratio.1 : ℚ) * resolution = x.units * x.ratio.2 := mod_cast x.ratio_mul
  rw [value_eq h, div_eq_div_iff hn hd]
  exact hr.symm

/-- Fractions are compared crosswise. -/
theorem ratio_le_ratio (hx : x.negative = false) (hy : y.negative = false)
    (h : x.value ≤ y.value) : x.ratio.1 * y.ratio.2 ≤ y.ratio.1 * x.ratio.2 := by
  have hxd : (0 : ℚ) < x.ratio.2 := Nat.cast_pos.mpr x.ratio_snd_pos
  have hyd : (0 : ℚ) < y.ratio.2 := Nat.cast_pos.mpr y.ratio_snd_pos
  rw [value_eq_ratio hx, value_eq_ratio hy, div_le_div_iff₀ hxd hyd] at h
  exact_mod_cast h

/-! ## Rounding keeps the order -/

theorem div_le_roundHalfEven (a b : ℕ) : a / b ≤ roundHalfEven a b := by
  rw [roundHalfEven]
  split
  · exact le_rfl
  split
  · exact Nat.le_succ _
  split
  · exact le_rfl
  · exact Nat.le_succ _

theorem roundHalfEven_le (a b : ℕ) : roundHalfEven a b ≤ a / b + 1 := by
  rw [roundHalfEven]
  split
  · exact Nat.le_succ _
  split
  · exact le_rfl
  split
  · exact Nat.le_succ _
  · exact le_rfl

/-- **A larger fraction is not rounded to a smaller integer.** -/
theorem roundHalfEven_mono (hb : 0 < b) (hd : 0 < d) (h : a * d ≤ c * b) :
    roundHalfEven a b ≤ roundHalfEven c d := by
  have hq : a / b ≤ c / d := by
    rw [Nat.le_div_iff_mul_le hd]
    refine Nat.le_of_mul_le_mul_right ?_ hb
    calc a / b * d * b = a / b * b * d := by ring
      _ ≤ a * d := Nat.mul_le_mul_right d (Nat.div_mul_le_self a b)
      _ ≤ c * b := h
  obtain hlt | heq := hq.lt_or_eq
  · exact (roundHalfEven_le a b).trans ((Nat.succ_le_of_lt hlt).trans (div_le_roundHalfEven c d))
  -- The whole parts are the same, so what is left over decides.
  have hr : a % b * d ≤ c % d * b := by
    have ha := Nat.div_add_mod a b
    have hc := Nat.div_add_mod c d
    rw [← heq] at hc
    nlinarith
  have hup : b ≤ 2 * (a % b) → d ≤ 2 * (c % d) := fun hk => by nlinarith
  have hover : b < 2 * (a % b) → d < 2 * (c % d) := fun hk => by nlinarith
  rw [roundHalfEven, roundHalfEven, heq]
  split_ifs <;> omega

/-- A scale shifts the fraction against the smallest positive number. -/
theorem scaled_lt_iff (a b k s : ℕ) :
    a * 2 ^ (1074 - s) < b * 2 ^ (s - 1074) * k ↔ a * resolution < b * 2 ^ s * k := by
  obtain hs | hs := Nat.le_total s 1074
  · have hr : 2 ^ (1074 - s) * 2 ^ s = resolution := by
      rw [← pow_add, Nat.sub_add_cancel hs]
      rfl
    rw [Nat.sub_eq_zero_of_le hs, pow_zero, mul_one, ← Nat.mul_lt_mul_right (Nat.two_pow_pos s),
      mul_assoc a, hr, mul_right_comm]
  · rw [Nat.sub_eq_zero_of_le hs, pow_zero, mul_one, ← Nat.mul_lt_mul_right resolution_pos,
      mul_right_comm (b * 2 ^ (s - 1074)), mul_assoc b, two_pow_mul_resolution,
      Nat.sub_add_cancel hs]

/-- **At its scale a fraction has a significand** of fifty-three bits, or it has the smallest
scale and a significand of fewer. -/
theorem scaleOf_spec (ha : 0 < a) (hb : 0 < b) :
    a * resolution < b * 2 ^ scaleOf a b * 2 ^ 53
      ∧ (scaleOf a b = 0 ∨ b * 2 ^ scaleOf a b * 2 ^ 52 ≤ a * resolution) := by
  have hal := Nat.log2_self_le ha.ne'
  have hau := Nat.lt_log2_self (n := a)
  have hbl := Nat.log2_self_le hb.ne'
  have hbu := Nat.lt_log2_self (n := b)
  have hp := resolution_pos
  rw [scaleOf]
  generalize hg : a.log2 + 1074 - 52 - b.log2 = g
  simp only [Nat.pow_eq, scaled_lt_iff]
  have hfits : a * resolution < b * 2 ^ g * 2 ^ 53 :=
    calc a * resolution < 2 ^ (a.log2 + 1) * resolution := Nat.mul_lt_mul_of_pos_right hau hp
      _ = 2 ^ (a.log2 + 1 + 1074) := two_pow_mul_resolution _
      _ ≤ 2 ^ (b.log2 + g + 53) := Nat.pow_le_pow_right (by decide) (by omega)
      _ = 2 ^ b.log2 * 2 ^ g * 2 ^ 53 := by rw [pow_add, pow_add]
      _ ≤ b * 2 ^ g * 2 ^ 53 := by gcongr
  split
  · rename_i hlow
    cases g with
    | zero => exact ⟨hfits, .inl rfl⟩
    | succ g =>
      rw [Nat.add_sub_cancel]
      refine ⟨?_, .inr ?_⟩
      · calc a * resolution < b * 2 ^ (g + 1) * 2 ^ 52 := hlow
          _ = b * 2 ^ g * 2 ^ 53 := by ring
      · calc b * 2 ^ g * 2 ^ 52 ≤ 2 ^ (b.log2 + 1) * 2 ^ g * 2 ^ 52 := by gcongr
          _ = 2 ^ (b.log2 + 1 + g + 52) := by
            rw [pow_add _ (b.log2 + 1 + g), pow_add _ (b.log2 + 1)]
          _ ≤ 2 ^ (a.log2 + 1074) := Nat.pow_le_pow_right (by decide) (by omega)
          _ = 2 ^ a.log2 * resolution := (two_pow_mul_resolution _).symm
          _ ≤ a * resolution := by gcongr
  · rename_i hlow
    exact ⟨hfits, .inr (Nat.le_of_not_lt hlow)⟩

/-- A larger fraction has no smaller scale. -/
theorem scaleOf_mono (ha : 0 < a) (hb : 0 < b) (hc : 0 < c) (hd : 0 < d) (h : a * d ≤ c * b) :
    scaleOf a b ≤ scaleOf c d := by
  obtain ⟨-, h0 | hlow⟩ := scaleOf_spec ha hb
  · omega
  obtain ⟨hup, -⟩ := scaleOf_spec hc hd
  by_contra hlt
  have hp : 2 ^ (scaleOf c d + 1) ≤ 2 ^ scaleOf a b := Nat.pow_le_pow_right (by decide) (by omega)
  have : a * d * resolution < a * d * resolution :=
    calc a * d * resolution ≤ c * b * resolution := Nat.mul_le_mul_right _ h
      _ = c * resolution * b := by ring
      _ < d * 2 ^ scaleOf c d * 2 ^ 53 * b := by gcongr
      _ = b * 2 ^ (scaleOf c d + 1) * 2 ^ 52 * d := by ring
      _ ≤ b * 2 ^ scaleOf a b * 2 ^ 52 * d := by gcongr
      _ ≤ a * resolution * d := by gcongr
      _ = a * d * resolution := by ring
  exact lt_irrefl _ this

/-- The significand to which a fraction is rounded. -/
def significandOf (a b : ℕ) : ℕ :=
  roundHalfEven (a * 2 ^ (1074 - scaleOf a b)) (b * 2 ^ (scaleOf a b - 1074))

theorem significandOf_le (ha : 0 < a) (hb : 0 < b) : significandOf a b ≤ 2 ^ 53 := by
  have hlt := (scaled_lt_iff a b _ _).mpr (scaleOf_spec ha hb).1
  exact (roundHalfEven_le _ _).trans (Nat.div_lt_of_lt_mul hlt)

theorem le_significandOf (ha : 0 < a) (hb : 0 < b) (hs : scaleOf a b ≠ 0) :
    2 ^ 52 ≤ significandOf a b := by
  have hle := not_lt.mpr ((scaleOf_spec ha hb).2.resolve_left hs)
  rw [← scaled_lt_iff, not_lt] at hle
  refine le_trans ?_ (div_le_roundHalfEven _ _)
  rw [Nat.le_div_iff_mul_le (by positivity), mul_comm]
  exact hle

/-- The bits of a rounded fraction. -/
theorem toNat_bits_ofRatio (ha : 0 < a) (b : ℕ) :
    (ofRatio a b).bits.toNat
      = Nat.min (scaleOf a b * 2 ^ 52 + significandOf a b) infinityBits := by
  have hi : infinityBits < 2 ^ 64 := by decide
  rw [ofRatio, if_neg ha.ne']
  simp only [Nat.pow_eq]
  rw [UInt64.toNat_ofNat_of_lt' (lt_of_le_of_lt (Nat.min_le_right _ _) hi)]
  rfl

theorem ofRatio_zero (b : ℕ) : ofRatio 0 b = zero := rfl

/-- **A larger fraction is not rounded to a smaller number.** -/
theorem ofRatio_mono (hb : 0 < b) (hd : 0 < d) (h : a * d ≤ c * b) :
    (ofRatio a b).bits ≤ (ofRatio c d).bits := by
  rcases Nat.eq_zero_or_pos a with rfl | ha
  · exact UInt64.zero_le
  have hc : 0 < c := Nat.pos_of_mul_pos_right (lt_of_lt_of_le (Nat.mul_pos ha hd) h)
  rw [UInt64.le_iff_toNat_le, toNat_bits_ofRatio ha, toNat_bits_ofRatio hc]
  refine min_le_min_right _ ?_
  obtain hlt | heq := (scaleOf_mono ha hb hc hd h).lt_or_eq
  · have hup := significandOf_le ha hb
    have hlow := le_significandOf hc hd (by omega)
    omega
  · rw [significandOf, significandOf, heq]
    refine Nat.add_le_add_left (roundHalfEven_mono (by positivity) (by positivity) ?_) _
    calc a * 2 ^ (1074 - scaleOf c d) * (d * 2 ^ (scaleOf c d - 1074))
        = a * d * (2 ^ (1074 - scaleOf c d) * 2 ^ (scaleOf c d - 1074)) := by ring
      _ ≤ c * b * (2 ^ (1074 - scaleOf c d) * 2 ^ (scaleOf c d - 1074)) := by gcongr
      _ = c * 2 ^ (1074 - scaleOf c d) * (b * 2 ^ (scaleOf c d - 1074)) := by ring

theorem toNat_bits_ofRatio_le (a b : ℕ) : (ofRatio a b).bits.toNat ≤ infinityBits := by
  rcases Nat.eq_zero_or_pos a with rfl | ha
  · exact Nat.zero_le _
  · rw [toNat_bits_ofRatio ha]
    exact Nat.min_le_right _ _

theorem negative_ofRatio (a b : ℕ) : (ofRatio a b).negative = false := by
  have hi : infinityBits < 2 ^ 63 := by decide
  exact negative_eq_false_iff.mpr ((toNat_bits_ofRatio_le a b).trans_lt hi)

end HopTorrent.Binary64
