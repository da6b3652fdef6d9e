import FederatedMetrics.Proofs.Decimal.Finite

/-!
# Exact integers

A number of at most 53 bits is represented as it is. Different numbers of this size are therefore
different values, so a count that is returned as a value can be told from every other count.
-/

namespace FederatedMetrics.Binary64

open Float.Model Float.Model.UnpackedFloat

/-- The number that a value represents is determined by its mantissa and its exponent. -/
theorem IsNatural.unique {x : Float} {j k : Nat} (hj : IsNatural x j) (hk : IsNatural x k)
    (hjle : j ≤ 2 ^ 53) (hkle : k ≤ 2 ^ 53) : j = k := by
  obtain ⟨_, hj⟩ := hj
  obtain ⟨_, hk⟩ := hk
  rw [hj] at hk
  injection hk with _ hmantissa hexponent
  have hlog : j.log2 = k.log2 := by omega
  have hscaled : j * 2 ^ 52 = k * 2 ^ 52 := by
    rw [← Nat.div_mul_cancel (two_pow_log2_dvd hjle), ← Nat.div_mul_cancel (two_pow_log2_dvd hkle)]
    change mantissa j * _ = mantissa k * _
    rw [hmantissa, hlog]
  exact Nat.eq_of_mul_eq_mul_right (Nat.two_pow_pos 52) hscaled

theorem isNatural_toFloat {n : UInt64} (hpos : 0 < n.toNat) (hle : n.toNat ≤ 2 ^ 53) :
    IsNatural n.toFloat n.toNat := by
  have hunpack : n.toFloat.toModel.unpack = (Float.Model.pack
      (UnpackedFloat.normalize .binary64 (n.toNat : Int) 0 .positive)).unpack := rfl
  have hround := unpack_round_natural hpos hle 0
  rw [Nat.pow_zero, Nat.mul_one] at hround
  refine ⟨hpos, ?_⟩
  rw [hunpack, UnpackedFloat.normalize, compare_gt_iff_gt.mpr (Int.natCast_pos.mpr hpos)]
  exact hround

/-- A positive number of at most 53 bits is not rounded. -/
theorem isNatural_ofInt {k : Nat} (hpos : 0 < k) (hlt : k < 2 ^ 53) :
    IsNatural (Decimal.ofInt k) k := by
  have htoNat : k.toUInt64.toNat = k := Nat.mod_eq_of_lt (by omega)
  have hvalue := @isNatural_toFloat k.toUInt64 (by omega) (by omega)
  rw [htoNat] at hvalue
  rwa [Decimal.ofInt, if_neg (by omega), Int.natAbs_natCast, ofScientific_eq,
    if_pos ⟨hlt, by decide⟩, mul_one]

theorem unpack_ofInt_zero : (Decimal.ofInt 0).toModel.unpack = .zero .positive := rfl

theorem IsNatural.ne_ofInt_zero {k : Nat} (h : IsNatural (Decimal.ofInt 0) k) : False := by
  obtain ⟨hpos, h⟩ := h
  rw [unpack_ofInt_zero] at h
  cases h

/-- Different numbers of at most 53 bits are different values. -/
theorem ofInt_natCast_inj {j k : Nat} (hj : j < 2 ^ 53) (hk : k < 2 ^ 53) :
    Decimal.ofInt j = Decimal.ofInt k ↔ j = k := by
  refine ⟨fun h => ?_, fun h => by rw [h]⟩
  rcases Nat.eq_zero_or_pos j with rfl | hjpos <;> rcases Nat.eq_zero_or_pos k with rfl | hkpos
  · rfl
  · have hnatural := isNatural_ofInt hkpos hk
    rw [← h] at hnatural
    exact hnatural.ne_ofInt_zero.elim
  · have hnatural := isNatural_ofInt hjpos hj
    rw [h] at hnatural
    exact hnatural.ne_ofInt_zero.elim
  · have hnatural := isNatural_ofInt hjpos hj
    rw [h] at hnatural
    exact hnatural.unique (isNatural_ofInt hkpos hk) hj.le hk.le

end FederatedMetrics.Binary64
