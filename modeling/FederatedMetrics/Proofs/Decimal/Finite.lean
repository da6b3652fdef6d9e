import FederatedMetrics.Decimal.Reading
import FederatedMetrics.Proofs.Decimal.Rounding
import Mathlib.Data.List.Induction

/-!
# Finite results

What is infinite or undefined stays so in sums and products. Counting by ones is finite however long it
goes on, and so is every integer that is not beyond the range.
-/

namespace FederatedMetrics.Binary64

open Float.Model Float.Model.UnpackedFloat

theorem isFinite_eq (x : Float) : x.isFinite = x.toModel.unpack.isFinite := rfl

theorem unpack_add (x y : Float) : (x + y).toModel.unpack =
    (Float.Model.pack (UnpackedFloat.add .binary64 x.toModel.unpack y.toModel.unpack)).unpack := rfl

theorem unpack_mul (x y : Float) : (x * y).toModel.unpack =
    (Float.Model.pack (UnpackedFloat.mul .binary64 x.toModel.unpack y.toModel.unpack)).unpack := rfl

theorem mul_finite (s s' : Sign) {m m' : Nat} (e e' : Int) (hm : 0 < m) (hm' : 0 < m') :
    UnpackedFloat.mul .binary64 (.finite s m e hm) (.finite s' m' e' hm') =
      roundWithAccuracy .binary64 (s * s') (m * m') (e + e') .exact := rfl

theorem unpack_one :
    (1.0 : Float).toModel.unpack = .finite .positive (2 ^ 52) (-52) (Nat.two_pow_pos 52) := rfl

/-! ## What is not finite -/

/-- A sum with something infinite or undefined is not finite. -/
theorem not_isFinite_add {u v : UnpackedFloat} (h : u.isFinite = false ∨ v.isFinite = false) :
    (Float.Model.pack (UnpackedFloat.add .binary64 u v)).unpack.isFinite = false := by
  cases u with
  | notANumber => exact isFinite_unpack_pack_notANumber
  | infinity s =>
      cases v with
      | infinity s' => cases s <;> cases s' <;> rfl
      | notANumber => exact isFinite_unpack_pack_notANumber
      | zero _ => exact isFinite_unpack_pack_infinity s
      | finite _ _ _ _ => exact isFinite_unpack_pack_infinity s
  | zero _ =>
      cases v with
      | notANumber => exact isFinite_unpack_pack_notANumber
      | infinity s => exact isFinite_unpack_pack_infinity s
      | _ => rcases h with h | h <;> cases h
  | finite _ _ _ _ =>
      cases v with
      | notANumber => exact isFinite_unpack_pack_notANumber
      | infinity s => exact isFinite_unpack_pack_infinity s
      | _ => rcases h with h | h <;> cases h

/-- A product with something infinite or undefined is not finite. -/
theorem not_isFinite_mul {u v : UnpackedFloat} (h : u.isFinite = false ∨ v.isFinite = false) :
    (Float.Model.pack (UnpackedFloat.mul .binary64 u v)).unpack.isFinite = false := by
  cases u with
  | notANumber => exact isFinite_unpack_pack_notANumber
  | infinity s =>
      cases v with
      | notANumber => exact isFinite_unpack_pack_notANumber
      | infinity _ => exact isFinite_unpack_pack_infinity _
      | zero _ => exact isFinite_unpack_pack_notANumber
      | finite _ _ _ _ => exact isFinite_unpack_pack_infinity _
  | zero _ =>
      cases v with
      | notANumber => exact isFinite_unpack_pack_notANumber
      | infinity _ => exact isFinite_unpack_pack_notANumber
      | _ => rcases h with h | h <;> cases h
  | finite _ _ _ _ =>
      cases v with
      | notANumber => exact isFinite_unpack_pack_notANumber
      | infinity _ => exact isFinite_unpack_pack_infinity _
      | _ => rcases h with h | h <;> cases h

theorem isFinite_of_add {x y : Float} (h : (x + y).isFinite = true) :
    x.isFinite = true ∧ y.isFinite = true := by
  rw [isFinite_eq, unpack_add] at h
  have hnot := mt not_isFinite_add (Bool.not_eq_false _ |>.mpr h)
  simpa [isFinite_eq] using hnot

theorem isFinite_of_mul {x y : Float} (h : (x * y).isFinite = true) :
    x.isFinite = true ∧ y.isFinite = true := by
  rw [isFinite_eq, unpack_mul] at h
  have hnot := mt not_isFinite_mul (Bool.not_eq_false _ |>.mpr h)
  simpa [isFinite_eq] using hnot

/-! ## Multiplication by one -/

/-- The product with one is the value itself: nothing is cut off, so nothing is rounded. -/
theorem mul_one (x : Float) : x * 1.0 = x := by
  have hproduct : (x * 1.0).toModel = Float.Model.pack (UnpackedFloat.mul .binary64 x.toModel.unpack
      (.finite .positive (2 ^ 52) (-52) (Nat.two_pow_pos 52))) := rfl
  have hsign : ∀ s : Sign, s * .positive = s := by
    intro s
    cases s <;> rfl
  suffices h : UnpackedFloat.mul .binary64 x.toModel.unpack
      (.finite .positive (2 ^ 52) (-52) (Nat.two_pow_pos 52)) = x.toModel.unpack by
    rw [h, pack_unpack] at hproduct
    exact congrArg Float.ofModel hproduct
  cases hu : x.toModel.unpack with
  | notANumber => rfl
  | infinity s => exact congrArg UnpackedFloat.infinity (hsign s)
  | zero s => exact congrArg UnpackedFloat.zero (hsign s)
  | finite s m e hm =>
      obtain ⟨hlt, hlow, hhigh, hfull⟩ := canonical_of_unpack hu
      have hlog : m.log2 = 52 ∨ e = -1074 := hfull.imp_left fun hfull => log2_eq_of_full hfull hlt
      have hshift : shift (m * 2 ^ 52) (e + -52) = 52 := by
        have hle := log2_le_of_lt hlt
        rw [shift, log2_mul_two_pow hm.ne']
        omega
      have hplace : e + -52 + (52 : Nat) = e := by omega
      rw [mul_finite, hsign, roundWithAccuracy_exact _ hshift rfl hm hlt, hplace]

/-! ## Sums -/

/-- The sum of some values, added from the first to the last. -/
def sum (xs : List Float) : Float := xs.foldl (fun total x => total + x) 0.0

/-- Whether all values are finite and also the sums of the first of them. -/
def StaysFinite (xs : List Float) : Prop :=
  (∀ x ∈ xs, x.isFinite = true) ∧ ∀ n, (sum (xs.take n)).isFinite = true

theorem sum_concat (xs : List Float) (x : Float) : sum (xs ++ [x]) = sum xs + x :=
  List.foldl_append

/-- A sum is finite if and only if nothing on the way is not: what is infinite or undefined never
becomes finite again. -/
theorem isFinite_sum_iff (xs : List Float) : (sum xs).isFinite = true ↔ StaysFinite xs := by
  refine ⟨fun h => ?_, fun h => by simpa using h.2 xs.length⟩
  induction xs using List.reverseRecOn with
  | nil => exact ⟨by simp, by simpa using h⟩
  | append_singleton xs x ih =>
      have hsum := h
      rw [sum_concat] at hsum
      obtain ⟨hfirst, hlast⟩ := isFinite_of_add hsum
      obtain ⟨hvalues, hsums⟩ := ih hfirst
      refine ⟨?_, fun n => ?_⟩
      · exact List.forall_mem_append.mpr ⟨hvalues, by simpa using hlast⟩
      · by_cases hn : n ≤ xs.length
        · rw [List.take_append_of_le_length hn]
          exact hsums n
        · rwa [List.take_of_length_le (by simp; omega)]

/-! ## Counting

In units of `2 ^ (-52)` the sum of `k` and one is `(k + 1) * 2 ^ 52`. Up to `2 ^ 53` the bits that
rounding cuts off are zero; from there on one is half a unit in the last place and goes to the even
neighbour, the number itself. -/

theorem round_eq (s : Sign) (m : Nat) (e : Int) :
    UnpackedFloat.round .binary64 s m e = roundWithAccuracy .binary64 s
      (m * 2 ^ (e - max (m.log2 + e - 52) (-1074)).toNat)
      (e - (e - max (m.log2 + e - 52) (-1074)).toNat) .exact := by
  rw [UnpackedFloat.round, targetExponent_eq, decreaseExponent, Nat.shiftLeft_eq]

theorem add_positive {m n : Nat} {e f : Int} (hm : 0 < m) (hn : 0 < n) :
    UnpackedFloat.add .binary64 (.finite .positive m e hm) (.finite .positive n f hn) =
      UnpackedFloat.round .binary64 .positive
        (m * 2 ^ (e - min e f).toNat + n * 2 ^ (f - min e f).toNat) (min e f) := by
  have hpos : 0 < m * 2 ^ (e - min e f).toNat + n * 2 ^ (f - min e f).toNat :=
    Nat.add_pos_left (Nat.mul_pos hm (Nat.two_pow_pos _)) _
  have hadd : UnpackedFloat.add .binary64 (.finite .positive m e hm) (.finite .positive n f hn) =
      UnpackedFloat.normalize .binary64 (((m <<< (e - min e f).toNat : Nat) : Int) +
        ((n <<< (f - min e f).toNat : Nat) : Int)) (min e f) .positive := rfl
  rw [hadd, Nat.shiftLeft_eq, Nat.shiftLeft_eq, ← Int.natCast_add]
  generalize m * 2 ^ (e - min e f).toNat + n * 2 ^ (f - min e f).toNat = total at hpos
  rw [UnpackedFloat.normalize, compare_gt_iff_gt.mpr (Int.natCast_pos.mpr hpos)]
  rfl

/-- The mantissa of a positive number, with the bits moved up to the first of 53 places. -/
def mantissa (k : Nat) : Nat := k * 2 ^ 52 / 2 ^ k.log2

theorem le_mantissa {k : Nat} (hk : 0 < k) : 2 ^ 52 ≤ mantissa k := by
  rw [mantissa, Nat.le_div_iff_mul_le (Nat.two_pow_pos _), Nat.mul_comm]
  exact Nat.mul_le_mul_right _ (Nat.log2_self_le hk.ne')

theorem mantissa_lt (k : Nat) : mantissa k < 2 ^ 53 := by
  rw [mantissa, Nat.div_lt_iff_lt_mul (Nat.two_pow_pos _), ← Nat.pow_add]
  calc k * 2 ^ 52 < 2 ^ (k.log2 + 1) * 2 ^ 52 :=
        Nat.mul_lt_mul_of_pos_right Nat.lt_log2_self (Nat.two_pow_pos 52)
    _ = 2 ^ (53 + k.log2) := by rw [← Nat.pow_add]; congr 1; omega

theorem mantissa_pos {k : Nat} (hk : 0 < k) : 0 < mantissa k :=
  Nat.lt_of_lt_of_le (Nat.two_pow_pos 52) (le_mantissa hk)

/-- Nothing is cut off the mantissa of a number that is not too large. -/
theorem two_pow_log2_dvd {k : Nat} (h : k ≤ 2 ^ 53) : 2 ^ k.log2 ∣ k * 2 ^ 52 := by
  rcases Nat.lt_or_eq_of_le h with hlt | rfl
  · exact Nat.dvd_mul_left_of_dvd (Nat.pow_dvd_pow 2 (log2_le_of_lt hlt)) k
  · rw [Nat.log2_two_pow]
    exact Nat.dvd_mul_right _ _

/-- A value is a positive natural number. -/
def IsNatural (x : Float) (k : Nat) : Prop :=
  ∃ hk : 0 < k,
    x.toModel.unpack = .finite .positive (mantissa k) (k.log2 - 52) (mantissa_pos hk)

theorem isNatural_one : IsNatural (0.0 + 1.0) 1 := ⟨Nat.one_pos, rfl⟩

theorem IsNatural.isFinite {x : Float} {k : Nat} (h : IsNatural x k) : x.isFinite = true := by
  obtain ⟨hk, h⟩ := h
  rw [isFinite_eq, h]
  rfl

/-- The mantissa of a number times a power of two, with the bits moved up and down. -/
theorem mul_two_pow_eq_mantissa {k : Nat} (hle : k ≤ 2 ^ 53) (j : Nat) :
    k * 2 ^ j * 2 ^ (52 - j - k.log2) = mantissa k * 2 ^ (k.log2 + j - 52) := by
  apply Nat.eq_of_mul_eq_mul_right (Nat.two_pow_pos k.log2)
  calc k * 2 ^ j * 2 ^ (52 - j - k.log2) * 2 ^ k.log2
      = k * 2 ^ (j + (52 - j - k.log2) + k.log2) := by
        rw [Nat.pow_add, Nat.pow_add, ← Nat.mul_assoc, ← Nat.mul_assoc]
    _ = k * 2 ^ (52 + (k.log2 + j - 52)) := by congr 2; omega
    _ = mantissa k * 2 ^ k.log2 * 2 ^ (k.log2 + j - 52) := by
        rw [mantissa, Nat.div_mul_cancel (two_pow_log2_dvd hle), Nat.pow_add, Nat.mul_assoc]
    _ = mantissa k * 2 ^ (k.log2 + j - 52) * 2 ^ k.log2 := Nat.mul_right_comm _ _ _

/-- A number of at most 53 bits is not rounded, in whatever part of one it is counted. -/
theorem unpack_round_natural {k : Nat} (hk : 0 < k) (hle : k ≤ 2 ^ 53) (j : Nat) :
    (Float.Model.pack (UnpackedFloat.round .binary64 .positive (k * 2 ^ j) (-(j : Int)))).unpack =
      .finite .positive (mantissa k) (k.log2 - 52) (mantissa_pos hk) := by
  have hlog : k.log2 ≤ 53 := by
    rw [← Nat.lt_succ_iff, Nat.log2_lt hk.ne']
    omega
  have hup : (-(j : Int) - max (((k * 2 ^ j).log2 : Int) + -(j : Int) - 52) (-1074)).toNat =
      52 - j - k.log2 := by
    rw [log2_mul_two_pow hk.ne']
    omega
  have hshift : shift (k * 2 ^ j * 2 ^ (52 - j - k.log2))
      (-(j : Int) - ((52 - j - k.log2 : Nat) : Int)) = k.log2 + j - 52 := by
    rw [Nat.mul_assoc, ← Nat.pow_add, shift, log2_mul_two_pow hk.ne']
    omega
  have hplace : -(j : Int) - ((52 - j - k.log2 : Nat) : Int) + ((k.log2 + j - 52 : Nat) : Int) =
      k.log2 - 52 := by omega
  rw [round_eq, hup, roundWithAccuracy_exact _ hshift (mul_two_pow_eq_mantissa hle j)
    (mantissa_pos hk) (mantissa_lt k), hplace]
  exact unpack_pack_full _ _ (le_mantissa hk) (mantissa_lt k) (by omega) (by omega)

/-- The next number is exact if the mantissa has enough bits for it. -/
theorem IsNatural.add_one {x : Float} {k : Nat} (h : IsNatural x k) (hlt : k < 2 ^ 53) :
    IsNatural (x + 1.0) (k + 1) := by
  obtain ⟨hk, hx⟩ := h
  have hlog := log2_le_of_lt hlt
  have hmin : min ((k.log2 : Int) - 52) (-52) = -52 := by omega
  have hleft : ((k.log2 : Int) - 52 - -52).toNat = k.log2 := by omega
  have hright : ((-52 : Int) - -52).toNat = 0 := rfl
  have hsum : mantissa k * 2 ^ k.log2 + 2 ^ 52 * 2 ^ 0 = (k + 1) * 2 ^ 52 := by
    rw [mantissa, Nat.div_mul_cancel (two_pow_log2_dvd hlt.le)]
    omega
  refine ⟨Nat.succ_pos k, ?_⟩
  rw [unpack_add, hx, unpack_one, add_positive, hmin, hleft, hright, hsum]
  exact unpack_round_natural (Nat.succ_pos k) hlt 52

/-- Behind the last of these numbers one is too little to add. -/
theorem IsNatural.add_one_last {x : Float} (h : IsNatural x (2 ^ 53)) :
    IsNatural (x + 1.0) (2 ^ 53) := by
  obtain ⟨hk, hx⟩ := h
  have hmantissa : mantissa (2 ^ 53) = 2 ^ 52 := by
    rw [mantissa, Nat.log2_two_pow]
    exact Nat.mul_div_cancel_left _ (Nat.two_pow_pos 53)
  have hlog : (((2 ^ 53).log2 : Nat) : Int) - 52 = 1 := by
    rw [Nat.log2_two_pow]
    rfl
  have hsum : Float.Model.pack (UnpackedFloat.add .binary64
      (.finite .positive (2 ^ 52) 1 (Nat.two_pow_pos 52))
      (.finite .positive (2 ^ 52) (-52) (Nat.two_pow_pos 52))) =
        Float.Model.pack (.finite .positive (2 ^ 52) 1 (Nat.two_pow_pos 52)) := by decide +kernel
  have hvalue : UnpackedFloat.finite .positive (mantissa (2 ^ 53)) ((2 ^ 53).log2 - 52)
      (mantissa_pos hk) = .finite .positive (2 ^ 52) 1 (Nat.two_pow_pos 52) := by
    congr 1
  refine ⟨hk, ?_⟩
  rw [hvalue] at hx ⊢
  rw [unpack_add, hx, unpack_one, hsum]
  exact unpack_pack_full _ _ (Nat.le_refl _) (by decide) (by decide) (by decide)

/-- Counting by ones is exact up to `2 ^ 53` and stays there. -/
theorem isNatural_sum_ones (n : Nat) :
    IsNatural (sum (List.replicate (n + 1) 1.0)) (min (n + 1) (2 ^ 53)) := by
  induction n with
  | zero => exact isNatural_one
  | succ n ih =>
      rw [List.replicate_succ', sum_concat]
      by_cases hlt : n + 1 < 2 ^ 53
      · rw [Nat.min_eq_left hlt.le] at ih
        rw [Nat.min_eq_left hlt]
        exact ih.add_one hlt
      · rw [Nat.min_eq_right (Nat.not_lt.mp hlt)] at ih
        rw [Nat.min_eq_right (by omega)]
        exact ih.add_one_last

theorem isFinite_sum_ones (n : Nat) : (sum (List.replicate n 1.0)).isFinite = true := by
  cases n with
  | zero => rfl
  | succ n => exact (isNatural_sum_ones n).isFinite

/-! ## Integers -/

theorem isFinite_round (s : Sign) {m : Nat} {e : Int} (hm : 0 < m) (h : m.log2 + e < 1023) :
    (Float.Model.pack (UnpackedFloat.round .binary64 s m e)).unpack.isFinite = true := by
  rw [round_eq]
  apply isFinite_roundWithAccuracy
  rw [shift, log2_mul_two_pow hm.ne']
  omega

theorem ofScientific_eq (n : Nat) : Float.ofScientific n false 0 =
    if n < 2 ^ 53 ∧ 0 ≤ 22 then n.toUInt64.toFloat * 1.0 else ⟨Float.Model.ofScientific n 0⟩ := rfl

theorem isFinite_toFloat (n : UInt64) : n.toFloat.isFinite = true := by
  have hunpack : n.toFloat.toModel.unpack = (Float.Model.pack
      (UnpackedFloat.normalize .binary64 (n.toNat : Int) 0 .positive)).unpack := rfl
  rw [isFinite_eq, hunpack]
  by_cases hzero : n.toNat = 0
  · rw [hzero]
    exact isFinite_unpack_pack_zero .positive
  · have hpos : 0 < n.toNat := Nat.pos_of_ne_zero hzero
    rw [UnpackedFloat.normalize, compare_gt_iff_gt.mpr (Int.natCast_pos.mpr hpos)]
    have hlog : n.toNat.log2 < 64 := (Nat.log2_lt hzero).mpr n.toNat_lt
    exact isFinite_round _ hpos (by rw [Int.toNat_natCast]; omega)

/-- An integer beyond the exact ones is rounded once. -/
theorem ofScientific_large {n : Nat} (hn : n ≠ 0) : UnpackedFloat.ofScientific .binary64 n 0 =
    roundWithAccuracy .binary64 .positive (n * 2 ^ 53 * 10 ^ 0) (-53 + 0) .exact := by
  have hbits : Format.binary64.exponentBits = 11 := rfl
  have hnarrow : ¬ (0 : Int) < -(2 ^ 11 + n.log2) := by omega
  rw [UnpackedFloat.ofScientific, dif_neg hn, hbits, if_neg (by decide), if_neg hnarrow,
    if_pos (Int.le_refl 0), mul_finite, Nat.shiftLeft_eq]
  rfl

theorem isFinite_ofScientific {n : Nat} (h : n < 2 ^ 64) :
    (Float.ofScientific n false 0).isFinite = true := by
  rw [ofScientific_eq]
  split
  · rw [mul_one]
    exact isFinite_toFloat _
  · next hlarge =>
      have hn : n ≠ 0 := by omega
      have hunpack : ((⟨Float.Model.ofScientific n 0⟩ : Float)).toModel.unpack =
        (Float.Model.pack (UnpackedFloat.ofScientific .binary64 n 0)).unpack := rfl
      have hlog : n.log2 < 64 := (Nat.log2_lt hn).mpr h
      rw [isFinite_eq, hunpack, ofScientific_large hn, Nat.pow_zero, Nat.mul_one]
      apply isFinite_roundWithAccuracy
      rw [shift, log2_mul_two_pow hn]
      omega

theorem isFinite_neg {x : Float} (h : x.isFinite = true) : (-x).isFinite = true := by
  have hunpack : (-x).toModel.unpack =
      (Float.Model.pack (UnpackedFloat.neg x.toModel.unpack)).unpack := rfl
  rw [isFinite_eq] at h
  rw [isFinite_eq, hunpack]
  cases hu : x.toModel.unpack with
  | notANumber => rw [hu] at h; cases h
  | infinity s => rw [hu] at h; cases h
  | zero s => exact isFinite_unpack_pack_zero _
  | finite s m e hm =>
      obtain ⟨-, -, hhigh, -⟩ := canonical_of_unpack hu
      exact isFinite_unpack_pack_finite _ _ _ hhigh

/-- An integer of a machine word is finite. -/
theorem isFinite_ofInt {n : Int} (h : n.natAbs < 2 ^ 64) : (Decimal.ofInt n).isFinite = true := by
  rw [Decimal.ofInt]
  split
  · exact isFinite_neg (isFinite_ofScientific h)
  · exact isFinite_ofScientific h

end FederatedMetrics.Binary64
