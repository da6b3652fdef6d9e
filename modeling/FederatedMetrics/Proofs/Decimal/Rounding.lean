import Mathlib.Algebra.Order.Group.Nat

/-!
# Rounding of binary values

A binary value has a mantissa of 53 bits and an exponent. An exact mantissa is shifted until 53 bits are
left and rounded to one of the two neighbours; a carry moves the exponent once more. A value is finite
unless its exponent goes beyond the range. It consists of its sign, its exponent and its mantissa, so what
has been unpacked is packed again without loss.
-/

namespace FederatedMetrics.Binary64

open Float.Model Float.Model.UnpackedFloat

/-! ## Mantissas -/

theorem log2_mul_two_pow {m : Nat} (hm : m ≠ 0) (k : Nat) : (m * 2 ^ k).log2 = m.log2 + k := by
  have hpos : 0 < 2 ^ k := Nat.two_pow_pos k
  rw [Nat.log2_eq_iff (Nat.mul_ne_zero hm hpos.ne'), Nat.pow_add, Nat.add_right_comm, Nat.pow_add]
  exact ⟨Nat.mul_le_mul_right _ (Nat.log2_self_le hm),
    Nat.mul_lt_mul_of_pos_right Nat.lt_log2_self hpos⟩

theorem log2_le_of_lt {m : Nat} (h : m < 2 ^ 53) : m.log2 ≤ 52 := by
  by_cases hm : m = 0
  · simp [hm]
  · exact Nat.le_of_lt_succ ((Nat.log2_lt hm).mpr h)

theorem log2_eq_of_full {m : Nat} (hlow : 2 ^ 52 ≤ m) (hhigh : m < 2 ^ 53) : m.log2 = 52 :=
  (Nat.log2_eq_iff (by omega)).mpr ⟨hlow, hhigh⟩

theorem mantissa_shiftRight (em : ExtendedMantissa) (k : Nat) :
    (em >>> k).mantissa = em.mantissa / 2 ^ k := by
  induction k with
  | zero => exact (Nat.div_one _).symm
  | succ k ih =>
      have hstep : (em >>> (k + 1)).mantissa = (em >>> k).mantissa / 2 := rfl
      rw [hstep, ih, Nat.div_div_eq_div_mul, Nat.pow_succ]

theorem mantissa_ofMantissaAndAccuracy (m : Nat) (a : Accuracy) :
    (ExtendedMantissa.ofMantissaAndAccuracy m a).mantissa = m := by
  cases a with
  | exact => rfl
  | inexact order => cases order <;> rfl

/-- Rounding goes to one of the two neighbours. -/
theorem roundedMantissa_bounds (em : ExtendedMantissa) :
    em.mantissa ≤ em.roundedMantissa ∧ em.roundedMantissa ≤ em.mantissa + 1 := by
  rw [ExtendedMantissa.roundedMantissa]
  cases em.accuracy with
  | exact => simp [Accuracy.roundToNearestEven]
  | inexact order =>
      cases order with
      | eq =>
          simp only [Accuracy.roundToNearestEven]
          omega
      | _ => simp [Accuracy.roundToNearestEven]

/-- Where the bits that are cut off are zero, a mantissa stays exact. -/
theorem shiftRight_exact {m k : Nat} (h : 2 ^ k ∣ m) :
    ExtendedMantissa.ofMantissaAndAccuracy m .exact >>> k =
      ExtendedMantissa.ofMantissaAndAccuracy (m / 2 ^ k) .exact := by
  induction k with
  | zero =>
      rw [Nat.pow_zero, Nat.div_one]
      rfl
  | succ k ih =>
      have hk : 2 ^ k ∣ m := Nat.dvd_trans (Nat.pow_dvd_pow 2 k.le_succ) h
      have heven : m / 2 ^ k % 2 = 0 := by
        rw [Nat.pow_succ] at h
        exact Nat.mod_eq_zero_of_dvd (Nat.dvd_div_of_mul_dvd h)
      have hstep : ExtendedMantissa.ofMantissaAndAccuracy m .exact >>> (k + 1) =
          (ExtendedMantissa.ofMantissaAndAccuracy m .exact >>> k).shiftRightOne := rfl
      rw [hstep, ih hk, Nat.pow_succ, ← Nat.div_div_eq_div_mul]
      simp [ExtendedMantissa.shiftRightOne, ExtendedMantissa.ofMantissaAndAccuracy, heven]

/-! ## Rounding -/

/-- By how many bits a mantissa is shifted. -/
def shift (m : Nat) (e : Int) : Nat := (max (m.log2 + e - 52) (-1074) - e).toNat

theorem targetExponent_eq (m : Nat) (e : Int) :
    Format.binary64.targetExponent (totalExponent m e) = max (m.log2 + e - 52) (-1074) := by
  have hmin : Format.binary64.minExponent = -1074 := rfl
  have hbits : Format.binary64.mantissaBits = 53 := rfl
  rw [Format.targetExponent, totalExponent, hmin, hbits]
  omega

theorem shiftToTargetExponent_eq (m : Nat) (e : Int) (a : Accuracy) :
    shiftToTargetExponent .binary64 m e a =
      (ExtendedMantissa.ofMantissaAndAccuracy m a >>> shift m e, e + shift m e) := by
  rw [shiftToTargetExponent, targetExponent_eq]
  rfl

/-- No more than 53 bits are left. -/
theorem div_shift_lt (m : Nat) (e : Int) : m / 2 ^ shift m e < 2 ^ 53 := by
  rw [Nat.div_lt_iff_lt_mul (Nat.two_pow_pos _), ← Nat.pow_add]
  refine Nat.lt_of_lt_of_le Nat.lt_log2_self (Nat.pow_le_pow_right (by decide) ?_)
  rw [shift]
  omega

theorem shift_eq_zero {m : Nat} {e : Int} (h : m < 2 ^ 53) (he : -1074 ≤ e) : shift m e = 0 := by
  have hlog := log2_le_of_lt h
  rw [shift]
  omega

theorem shift_carry {e : Int} (he : -1074 ≤ e) : shift (2 ^ 53) e = 1 := by
  have hlog : (2 ^ 53).log2 = 53 := Nat.log2_two_pow
  rw [shift, hlog]
  omega

/-- A value is rounded to the rounded mantissa, or to the next power of two if that has a bit too many.
Where nothing is cut off, nothing is rounded. -/
theorem roundWithAccuracy_eq (s : Sign) (m : Nat) (e : Int) (a : Accuracy) :
    ∃ r, m / 2 ^ shift m e ≤ r ∧ r ≤ m / 2 ^ shift m e + 1 ∧
      (a = .exact → 2 ^ shift m e ∣ m → r = m / 2 ^ shift m e) ∧
      roundWithAccuracy .binary64 s m e a =
        if h : r = 0 then .zero s
        else if r < 2 ^ 53 then .finite s r (e + shift m e) (Nat.pos_of_ne_zero h)
        else .finite s (2 ^ 52) (e + shift m e + 1) (Nat.two_pow_pos 52) := by
  have hbounds := roundedMantissa_bounds (ExtendedMantissa.ofMantissaAndAccuracy m a >>> shift m e)
  rw [mantissa_shiftRight, mantissa_ofMantissaAndAccuracy] at hbounds
  have hexact : a = .exact → 2 ^ shift m e ∣ m →
      (ExtendedMantissa.ofMantissaAndAccuracy m a >>> shift m e).roundedMantissa =
        m / 2 ^ shift m e := by
    rintro rfl hdvd
    rw [shiftRight_exact hdvd]
    rfl
  have hlow : -1074 ≤ e + shift m e := by
    rw [shift]
    omega
  have hlt := div_shift_lt m e
  rw [roundWithAccuracy, shiftToTargetExponent_eq]
  dsimp only
  generalize (ExtendedMantissa.ofMantissaAndAccuracy m a >>> shift m e).roundedMantissa = r
    at hbounds hexact ⊢
  refine ⟨r, hbounds.1, hbounds.2, hexact, ?_⟩
  rw [shiftToTargetExponent_eq]
  by_cases hr : r < 2 ^ 53
  · rw [shift_eq_zero hr hlow]
    by_cases hzero : r = 0
    · subst hzero
      rfl
    · have hplace : e + (shift m e : Int) + (0 : Nat) = e + shift m e := Int.add_zero _
      rw [dif_neg hzero, if_pos hr]
      exact (dif_neg hzero).trans (congrArg (UnpackedFloat.finite s r · _) hplace)
  · obtain rfl : r = 2 ^ 53 := by omega
    rw [shift_carry hlow, shiftRight_exact (Nat.pow_dvd_pow 2 (by decide))]
    rfl

/-- A mantissa of 53 bits with zeros behind it is what is left of it. -/
theorem roundWithAccuracy_exact (s : Sign) {m n k : Nat} {e : Int} (hshift : shift m e = k)
    (hm : m = n * 2 ^ k) (hn : 0 < n) (hlt : n < 2 ^ 53) :
    roundWithAccuracy .binary64 s m e .exact = .finite s n (e + k) hn := by
  obtain ⟨r, -, -, hexact, hr⟩ := roundWithAccuracy_eq s m e .exact
  rw [hshift] at hexact hr
  have hleft : m / 2 ^ k = n := by rw [hm, Nat.mul_div_cancel _ (Nat.two_pow_pos k)]
  obtain rfl : r = n := (hexact rfl (hm ▸ Nat.dvd_mul_left _ _)).trans hleft
  rw [hr, dif_neg hn.ne', if_pos hlt]

/-! ## Finite values -/

/-- The leading bit of a full mantissa is not stored. -/
theorem toNat_one_append (b : BitVec Format.binary64.mantissaBitsWithoutImplicit) :
    (1#1 ++ b).toNat = 2 ^ 52 + b.toNat := by
  rw [BitVec.toNat_append, ← Nat.shiftLeft_add_eq_or_of_lt b.isLt]
  rfl

/-- The value of some bits. A mantissa has a leading bit unless the exponent is the least one. -/
inductive Unpacked (b : BitVec Format.binary64.numBits) : UnpackedFloat → Prop
  | infinity (hlast : unpackExponent b = -1#_) (hzero : unpackMantissa b = 0#_) :
      Unpacked b (.infinity (Sign.ofBitVec (unpackSign b)))
  | notANumber (hlast : unpackExponent b = -1#_) (hpayload : unpackMantissa b ≠ 0#_) :
      Unpacked b .notANumber
  | zero (hfirst : unpackExponent b = 0#_) (hzero : unpackMantissa b = 0#_) :
      Unpacked b (.zero (Sign.ofBitVec (unpackSign b)))
  | subnormal {e : Int} (hfirst : unpackExponent b = 0#_) (he : e = -1074)
      (hm : 0 < (unpackMantissa b).toNat) :
      Unpacked b (.finite (Sign.ofBitVec (unpackSign b)) (unpackMantissa b).toNat e hm)
  | normal {e : Int} (hfirst : unpackExponent b ≠ 0#_) (hlast : unpackExponent b ≠ -1#_)
      (he : e = (unpackExponent b).toNat - 1075) (hm : 0 < (1#1 ++ unpackMantissa b).toNat) :
      Unpacked b (.finite (Sign.ofBitVec (unpackSign b)) (1#1 ++ unpackMantissa b).toNat e hm)

theorem unpacked_unpack (b : BitVec Format.binary64.numBits) :
    Unpacked b (UnpackedFloat.unpack .binary64 b) := by
  have hunpack : UnpackedFloat.unpack .binary64 b =
      if unpackExponent b = -1#_ then
        if unpackMantissa b = 0#_ then .infinity (Sign.ofBitVec (unpackSign b)) else .notANumber
      else if unpackExponent b = 0#_ then
        if h : unpackMantissa b = 0#_ then .zero (Sign.ofBitVec (unpackSign b))
        else .finite (Sign.ofBitVec (unpackSign b)) (unpackMantissa b).toNat
          ((unpackExponent b).toNat - 1075 + 1) (BitVec.toNat_pos_of_ne_zero h)
      else .finite (Sign.ofBitVec (unpackSign b)) (1#1 ++ unpackMantissa b).toNat
        ((unpackExponent b).toNat - 1075) (by rw [toNat_one_append]; omega) := rfl
  rw [hunpack]
  by_cases hlast : unpackExponent b = -1#_
  · rw [if_pos hlast]
    by_cases hzero : unpackMantissa b = 0#_
    · rw [if_pos hzero]
      exact .infinity hlast hzero
    · rw [if_neg hzero]
      exact .notANumber hlast hzero
  · rw [if_neg hlast]
    by_cases hfirst : unpackExponent b = 0#_
    · rw [if_pos hfirst]
      by_cases hzero : unpackMantissa b = 0#_
      · rw [dif_pos hzero]
        exact .zero hfirst hzero
      · rw [dif_neg hzero]
        exact .subnormal hfirst (by rw [hfirst]; rfl) _
    · rw [if_neg hfirst]
      exact .normal hfirst hlast rfl _

/-- The bits of a value. -/
theorem pack_finite (s : Sign) (m : Nat) (e : Int) (hm : 0 < m) :
    UnpackedFloat.pack .binary64 (.finite s m e hm) =
      if 2 ^ Format.binary64.exponentBits ≤ (e + 1075).toNat + 1 then packedInfinity .binary64 s
      else if m.log2 + 1 = Format.binary64.mantissaBits then
        packComponents .binary64 s (BitVec.ofNat _ (e + 1075).toNat) (BitVec.ofNat _ m)
      else packComponents .binary64 s 0#_ (BitVec.ofNat _ m) := by
  have hbiased : (e + Format.binary64.exponentBias +
      Format.binary64.mantissaBitsWithoutImplicit).toNat = (e + 1075).toNat := by
    change (e + 1023 + 52).toNat = (e + 1075).toNat
    omega
  rw [← hbiased]
  rfl

/-- A value is finite unless all bits of its exponent are set. -/
theorem isFinite_unpack_iff (b : BitVec Format.binary64.numBits) :
    (UnpackedFloat.unpack .binary64 b).isFinite = true ↔
      unpackExponent b ≠ -1#(Format.binary64.exponentBits) := by
  have hvalue := unpacked_unpack b
  generalize UnpackedFloat.unpack .binary64 b = value at hvalue ⊢
  cases hvalue with
  | infinity hlast _ => exact iff_of_false Bool.false_ne_true (not_not_intro hlast)
  | notANumber hlast _ => exact iff_of_false Bool.false_ne_true (not_not_intro hlast)
  | zero hfirst _ => exact iff_of_true rfl (by rw [hfirst]; decide)
  | subnormal hfirst _ _ => exact iff_of_true rfl (by rw [hfirst]; decide)
  | normal _ hlast _ _ => exact iff_of_true rfl hlast

theorem isFinite_unpack_pack_infinity (s : Sign) :
    (Float.Model.pack (.infinity s)).unpack.isFinite = false := by
  cases s <;> rfl

theorem isFinite_unpack_pack_notANumber :
    (Float.Model.pack .notANumber).unpack.isFinite = false := rfl

theorem isFinite_unpack_pack_zero (s : Sign) :
    (Float.Model.pack (.zero s)).unpack.isFinite = true := by
  cases s <;> rfl

theorem isFinite_unpack_pack_finite (s : Sign) (m : Nat) {e : Int} (hm : 0 < m) (he : e ≤ 971) :
    (Float.Model.pack (.finite s m e hm)).unpack.isFinite = true := by
  refine (isFinite_unpack_iff (UnpackedFloat.pack .binary64 (.finite s m e hm))).mpr ?_
  have hrange : ¬ 2 ^ Format.binary64.exponentBits ≤ (e + 1075).toNat + 1 := by
    change ¬ 2 ^ 11 ≤ (e + 1075).toNat + 1
    omega
  rw [pack_finite]
  simp only [hrange, if_false]
  split
  · rw [unpackExponent_packComponents]
    intro h
    have hbits : (e + 1075).toNat % 2 ^ 11 = 2047 := congrArg BitVec.toNat h
    omega
  · rw [unpackExponent_packComponents]
    decide

/-- A value is rounded to something finite if its exponent leaves room for a carry. -/
theorem isFinite_roundWithAccuracy (s : Sign) (m : Nat) {e : Int} (a : Accuracy)
    (he : e + shift m e < 971) :
    (Float.Model.pack (roundWithAccuracy .binary64 s m e a)).unpack.isFinite = true := by
  obtain ⟨r, -, -, -, hr⟩ := roundWithAccuracy_eq s m e a
  rw [hr]
  by_cases hzero : r = 0
  · rw [dif_pos hzero]
    exact isFinite_unpack_pack_zero s
  · rw [dif_neg hzero]
    by_cases hlt : r < 2 ^ 53
    · rw [if_pos hlt]
      exact isFinite_unpack_pack_finite _ _ _ (Int.le_of_lt he)
    · rw [if_neg hlt]
      exact isFinite_unpack_pack_finite _ _ _ he

/-- A finite value has a full mantissa or the least exponent. -/
theorem canonical_of_unpack {v : Float.Model} {s : Sign} {m : Nat} {e : Int} {hm : 0 < m}
    (h : v.unpack = .finite s m e hm) :
    m < 2 ^ 53 ∧ -1074 ≤ e ∧ e ≤ 971 ∧ (2 ^ 52 ≤ m ∨ e = -1074) := by
  have hmantissa : (@unpackMantissa .binary64 v.toBits.toBitVec).toNat < 2 ^ 52 :=
    (@unpackMantissa .binary64 v.toBits.toBitVec).isLt
  have hexponent : (@unpackExponent .binary64 v.toBits.toBitVec).toNat < 2 ^ 11 :=
    (@unpackExponent .binary64 v.toBits.toBitVec).isLt
  have hvalue : Unpacked v.toBits.toBitVec (.finite s m e hm) := h ▸ unpacked_unpack v.toBits.toBitVec
  cases hvalue with
  | subnormal => exact ⟨by omega, by omega, by omega, .inr (by omega)⟩
  | normal hfirst hlast =>
      have hfirst : (@unpackExponent .binary64 v.toBits.toBitVec).toNat ≠ 0 :=
        fun heq => hfirst (BitVec.eq_of_toNat_eq heq)
      have hlast : (@unpackExponent .binary64 v.toBits.toBitVec).toNat ≠ 2047 :=
        fun heq => hlast (BitVec.eq_of_toNat_eq heq)
      rw [toNat_one_append]
      exact ⟨by omega, by omega, by omega, .inl (by omega)⟩

/-- A value with a full mantissa is packed without its leading bit. -/
theorem pack_normal (s : Sign) {m : BitVec Format.binary64.mantissaBitsWithoutImplicit}
    {exponent : BitVec Format.binary64.exponentBits} (hm : 0 < (1#1 ++ m).toNat) {e : Int}
    (he : e = exponent.toNat - 1075) (hlast : exponent ≠ -1#_) :
    UnpackedFloat.pack .binary64 (.finite s (1#1 ++ m).toNat e hm) =
      packComponents .binary64 s exponent m := by
  have hlt : m.toNat < 2 ^ 52 := m.isLt
  have hbound : exponent.toNat < 2 ^ 11 := exponent.isLt
  have hinside : exponent.toNat ≠ 2047 := fun h => hlast (BitVec.eq_of_toNat_eq h)
  have hfull := toNat_one_append m
  have hplace : (e + 1075).toNat = exponent.toNat := by omega
  have hrange : ¬ 2 ^ Format.binary64.exponentBits ≤ exponent.toNat + 1 := by
    change ¬ 2 ^ 11 ≤ exponent.toNat + 1
    omega
  have hlog : (1#1 ++ m).toNat.log2 + 1 = Format.binary64.mantissaBits := by
    rw [log2_eq_of_full (by omega) (by omega)]
    rfl
  have hmantissa : BitVec.ofNat Format.binary64.mantissaBitsWithoutImplicit (1#1 ++ m).toNat = m := by
    apply BitVec.eq_of_toNat_eq
    rw [BitVec.toNat_ofNat, hfull]
    change (2 ^ 52 + m.toNat) % 2 ^ 52 = m.toNat
    omega
  rw [pack_finite, hplace]
  simp only [if_neg hrange, if_pos hlog]
  rw [hmantissa, BitVec.ofNat_toNat, BitVec.setWidth_eq]

/-- The sign of some bits is the last one. -/
theorem getLsbD_unpackSign (b : BitVec Format.binary64.numBits) :
    (unpackSign b).getLsbD 0 = b.getLsbD 63 := BitVec.getLsbD_extractLsb

/-- The sign that was packed is read back. -/
theorem sign_packComponents (s : Sign) (exponent : BitVec Format.binary64.exponentBits)
    (fraction : BitVec Format.binary64.mantissaBitsWithoutImplicit) :
    Sign.ofBitVec (unpackSign (packComponents .binary64 s exponent fraction)) = s := by
  have hlast : (packComponents .binary64 s exponent fraction).getLsbD 63 = s.toBitVec.getLsbD 0 :=
    BitVec.getLsbD_append.trans BitVec.getLsbD_append
  have hbit : unpackSign (packComponents .binary64 s exponent fraction) = s.toBitVec := by
    apply BitVec.eq_of_getLsbD_eq
    intro i hi
    obtain rfl : i = 0 := by omega
    exact (getLsbD_unpackSign _).trans hlast
  rw [hbit]
  cases s <;> rfl

/-- A value with a full mantissa and an exponent in the range is packed without loss. -/
theorem unpack_pack_full (s : Sign) {m : Nat} {e : Int} (hm : 0 < m) (hfull : 2 ^ 52 ≤ m)
    (hlt : m < 2 ^ 53) (hlow : -1074 ≤ e) (hhigh : e ≤ 971) :
    (Float.Model.pack (.finite s m e hm)).unpack = .finite s m e hm := by
  obtain ⟨fraction, rfl⟩ : ∃ fraction : BitVec Format.binary64.mantissaBitsWithoutImplicit,
      (1#1 ++ fraction).toNat = m := by
    have hbits : (BitVec.ofNat Format.binary64.mantissaBitsWithoutImplicit m).toNat = m % 2 ^ 52 :=
      BitVec.toNat_ofNat _ _
    exact ⟨BitVec.ofNat _ m, by rw [toNat_one_append, hbits]; omega⟩
  obtain ⟨exponent, rfl⟩ : ∃ exponent : BitVec Format.binary64.exponentBits,
      (exponent.toNat : Int) - 1075 = e := by
    have hbits : (BitVec.ofNat Format.binary64.exponentBits (e + 1075).toNat).toNat =
        (e + 1075).toNat := by
      apply (BitVec.toNat_ofNat _ _).trans (Nat.mod_eq_of_lt _)
      change (e + 1075).toNat < 2 ^ 11
      omega
    exact ⟨BitVec.ofNat _ (e + 1075).toNat, by rw [hbits]; omega⟩
  have hlast : exponent ≠ -1#_ := by
    intro h
    have hbits : exponent.toNat = 2047 := congrArg BitVec.toNat h
    omega
  have hfirst : exponent ≠ 0#_ := by
    intro h
    have hbits : exponent.toNat = 0 := congrArg BitVec.toNat h
    omega
  change UnpackedFloat.unpack .binary64 (UnpackedFloat.pack .binary64 _) = _
  rw [pack_normal s hm rfl hlast]
  have hexponent : unpackExponent (packComponents .binary64 s exponent fraction) = exponent :=
    unpackExponent_packComponents
  have hvalue := unpacked_unpack (packComponents .binary64 s exponent fraction)
  generalize UnpackedFloat.unpack .binary64 (packComponents .binary64 s exponent fraction) = value
    at hvalue ⊢
  cases hvalue with
  | infinity h _ => exact absurd (hexponent.symm.trans h) hlast
  | notANumber h _ => exact absurd (hexponent.symm.trans h) hlast
  | zero h _ => exact absurd (hexponent.symm.trans h) hfirst
  | subnormal h _ _ => exact absurd (hexponent.symm.trans h) hfirst
  | normal _ _ he _ =>
      rw [hexponent] at he
      subst he
      congr 1
      · exact sign_packComponents s exponent fraction
      · rw [unpackMantissa_packComponents]

/-! ## Packing again -/

/-- The bits of a value are those of its sign, its exponent and its mantissa. -/
theorem packComponents_eq (b : BitVec Format.binary64.numBits) :
    packComponents .binary64 (Sign.ofBitVec (unpackSign b)) (unpackExponent b) (unpackMantissa b) =
      b := by
  have hsign : ∀ s : BitVec 1, (Sign.ofBitVec s).toBitVec = s := by decide
  rw [packComponents, hsign]
  apply BitVec.eq_of_getLsbD_eq
  intro i hi
  have hwidth : i < 64 := hi
  simp only [BitVec.getLsbD_append, unpackExponent, unpackMantissa, BitVec.getLsbD_cast,
    BitVec.getLsbD_extractLsb]
  by_cases hmantissa : i < 52
  · simp [hmantissa]
  · by_cases hexponent : i - 52 < 11
    · simp [hmantissa, hexponent, Nat.add_sub_of_le (Nat.not_lt.mp hmantissa)]
    · obtain rfl : i = 63 := by omega
      exact getLsbD_unpackSign b

/-- A value below the least full mantissa is packed without an implicit bit. -/
theorem pack_subnormal (s : Sign) {m : BitVec Format.binary64.mantissaBitsWithoutImplicit}
    (hm : 0 < m.toNat) {e : Int} (he : e = -1074) :
    UnpackedFloat.pack .binary64 (.finite s m.toNat e hm) = packComponents .binary64 s 0#_ m := by
  have hlt : m.toNat < 2 ^ 52 := m.isLt
  have hlog : m.toNat.log2 < 52 := (Nat.log2_lt hm.ne').mpr hlt
  have hplace : (e + 1075).toNat = 1 := by omega
  have hbits : Format.binary64.mantissaBits = 53 := rfl
  have hshort : ¬ m.toNat.log2 + 1 = Format.binary64.mantissaBits := by omega
  rw [pack_finite, hplace]
  simp only [if_neg hshort]
  rw [if_neg (by decide), BitVec.ofNat_toNat, BitVec.setWidth_eq]

/-- A value is given by its bits. -/
theorem eq_of_toBits {v other : Float.Model} (h : v.toBits = other.toBits) : v = other := by
  cases v
  cases other
  cases h
  rfl

/-- What has been unpacked is packed again without loss. -/
theorem pack_unpack (v : Float.Model) : Float.Model.pack v.unpack = v := by
  have hbits := packComponents_eq v.toBits.toBitVec
  suffices h : UnpackedFloat.pack .binary64 v.unpack = v.toBits.toBitVec from
    eq_of_toBits (congrArg UInt64.ofBitVec h)
  have hvalue : Unpacked v.toBits.toBitVec v.unpack := unpacked_unpack v.toBits.toBitVec
  generalize v.unpack = value at hvalue ⊢
  cases hvalue with
  | infinity hlast hzero =>
      rw [hlast, hzero] at hbits
      exact hbits
  | notANumber hlast hpayload => exact (v.valid.eq_packedNaN hlast hpayload).symm
  | zero hfirst hzero =>
      rw [hfirst, hzero] at hbits
      exact hbits
  | subnormal hfirst he hm =>
      rw [hfirst] at hbits
      exact (pack_subnormal _ hm he).trans hbits
  | normal _ hlast he hm => exact (pack_normal _ hm he hlast).trans hbits

end FederatedMetrics.Binary64
