import Mathlib.Algebra.Order.Field.Basic
import Mathlib.Data.Nat.Cast.Order.Field
import Mathlib.Data.Rat.Defs
import Mathlib.Tactic.Linarith
import Mathlib.Tactic.Ring
import Mathlib.Tactic.NormNum
import Mathlib.Tactic.FieldSimp

/-!
# Quotients of natural numbers

The floating-point quotient of two natural numbers, rounded as it is, still
tells which of two fractions with the same denominator is greater, as long as
the denominator is not too large; and a number goes into itself exactly once.
-/

set_option autoImplicit false

namespace Cardwalk.Decimal

open Float.Model Float.Model.UnpackedFloat

theorem log2_mantissa {m : Nat} (hl : 2 ^ 52 ≤ m) (hu : m < 2 ^ 53) : m.log2 = 52 :=
  (Nat.log2_eq_iff (by omega)).mpr ⟨hl, hu⟩

theorem log2_shiftLeft {n : Nat} (hn : 0 < n) (k : Nat) : (n <<< k).log2 = n.log2 + k := by
  have hl := Nat.log2_self_le (Nat.ne_of_gt hn)
  have hu := Nat.lt_log2_self (n := n)
  rw [Nat.shiftLeft_eq, Nat.log2_eq_iff (by positivity)]
  constructor
  · rw [Nat.pow_add]
    exact Nat.mul_le_mul_right _ hl
  · rw [Nat.add_right_comm, Nat.pow_add]
    exact Nat.mul_lt_mul_of_pos_right hu (by positivity)

theorem targetExponent_eq (t : Int) : Format.binary64.targetExponent t = max (t - 53) (-1074) := rfl

theorem unpackSign_packComponents (format : Format) (s : Sign) (b : BitVec format.exponentBits)
    (f : BitVec format.mantissaBitsWithoutImplicit) :
    unpackSign (packComponents format s b f) = s.toBitVec := by
  show BitVec.cast _ (BitVec.extractLsb _ _ (s.toBitVec ++ b ++ f)) = _
  ext i hi
  have h0 : i = 0 := by omega
  subst h0
  simp [BitVec.getLsbD_append, BitVec.getElem_append]

theorem finite_congr {m m' : Nat} {e e' : Int} {h : 0 < m} {h' : 0 < m'} (hm : m = m')
    (he : e = e') : UnpackedFloat.finite .positive m e h = .finite .positive m' e' h' := by
  subst hm
  subst he
  rfl

theorem toNat_implicit {m : Nat} (hl : 2 ^ 52 ≤ m) (hu : m < 2 ^ 53) :
    (1#1 ++ BitVec.ofNat 52 m).toNat = m := by
  rw [BitVec.toNat_append, ← Nat.shiftLeft_add_eq_or_of_lt (BitVec.isLt _), BitVec.toNat_ofNat,
    Nat.shiftLeft_eq, BitVec.toNat_ofNat]
  omega

theorem unpack_packComponents {b : BitVec 11} {m : Nat} (hm : 0 < m) (hl : 2 ^ 52 ≤ m)
    (hu : m < 2 ^ 53) (h0 : b ≠ 0#11) (h1 : b ≠ -1#11) :
    UnpackedFloat.unpack Format.binary64
        (packComponents Format.binary64 .positive b (BitVec.ofNat 52 m)) =
      .finite .positive m ((b.toNat : Int) - 1075) hm := by
  obtain ⟨p, hp⟩ : ∃ p, p = packComponents Format.binary64 .positive b (BitVec.ofNat 52 m) :=
    ⟨_, rfl⟩
  have hsign : Sign.ofBitVec (unpackSign p) = .positive := by
    rw [hp, unpackSign_packComponents]
    rfl
  have hexponent : unpackExponent p = b := by rw [hp, unpackExponent_packComponents]
  have hmantissa : unpackMantissa p = BitVec.ofNat 52 m := by
    rw [hp, unpackMantissa_packComponents]
  rw [← hp]
  unfold UnpackedFloat.unpack
  rw [if_neg (hexponent ▸ h1), if_neg (hexponent ▸ h0), hsign]
  apply finite_congr
  · rw [hmantissa]
    exact toNat_implicit hl hu
  · rw [hexponent]
    rfl

theorem unpack_pack {m : Nat} {e : Int} (hm : 0 < m) (hl : 2 ^ 52 ≤ m) (hu : m < 2 ^ 53)
    (he : -1074 ≤ e) (he' : e ≤ 971) :
    (Float.Model.pack (.finite .positive m e hm)).unpack = .finite .positive m e hm := by
  have hb : (e + 1075).toNat + 1 < 2048 := by omega
  have hlog : m.log2 + 1 = Format.binary64.mantissaBits := by
    rw [log2_mantissa hl hu]
    rfl
  have hcomponents : UnpackedFloat.pack Format.binary64 (.finite .positive m e hm) =
      packComponents Format.binary64 .positive (BitVec.ofNat 11 (e + 1075).toNat)
        (BitVec.ofNat 52 m) := by
    have hbias : (e + Format.binary64.exponentBias +
        Format.binary64.mantissaBitsWithoutImplicit).toNat = (e + 1075).toNat := by
      have h1 : (Format.binary64.exponentBias : Int) = 1023 := rfl
      have h2 : ((Format.binary64.mantissaBitsWithoutImplicit : Nat) : Int) = 52 := rfl
      rw [h1, h2]
      omega
    unfold UnpackedFloat.pack
    rw [hbias]
    exact (if_neg (Nat.not_le.mpr hb)).trans (if_pos hlog)
  have hnat : (BitVec.ofNat 11 (e + 1075).toNat).toNat = (e + 1075).toNat := by
    rw [BitVec.toNat_ofNat]
    omega
  have h0 : BitVec.ofNat 11 (e + 1075).toNat ≠ 0#11 := by
    intro h
    have hz := congrArg BitVec.toNat h
    rw [hnat] at hz
    simp only [BitVec.toNat_ofNat, Nat.zero_mod] at hz
    omega
  have h1 : BitVec.ofNat 11 (e + 1075).toNat ≠ -1#11 := by
    intro h
    have hz := congrArg BitVec.toNat h
    have hall : (-1#11).toNat = 2047 := by decide
    rw [hnat, hall] at hz
    omega
  show UnpackedFloat.unpack Format.binary64
    (UnpackedFloat.pack Format.binary64 (.finite .positive m e hm)) = _
  rw [hcomponents, unpack_packComponents hm hl hu h0 h1]
  apply finite_congr rfl
  omega

theorem ofMantissa_mantissa (q : Nat) (acc : Accuracy) :
    (ExtendedMantissa.ofMantissaAndAccuracy q acc).mantissa = q := by
  cases acc with
  | exact => rfl
  | inexact o =>
    cases o with
    | lt => rfl
    | eq => rfl
    | gt => rfl

theorem roundToNearestEven_bounds (q : Nat) (acc : Accuracy) :
    q ≤ acc.roundToNearestEven q ∧ acc.roundToNearestEven q ≤ q + 1 := by
  cases acc with
  | exact => exact ⟨Nat.le_refl q, Nat.le_succ q⟩
  | inexact o =>
    cases o with
    | lt => exact ⟨Nat.le_refl q, Nat.le_succ q⟩
    | eq =>
      show q ≤ q + q % 2 ∧ q + q % 2 ≤ q + 1
      omega
    | gt => exact ⟨Nat.le_succ q, Nat.le_refl (q + 1)⟩

theorem shiftRight_one (em : ExtendedMantissa) : (em >>> 1).mantissa = em.mantissa / 2 := rfl

theorem shiftToTargetExponent_eq {q : Nat} {e : Int} (acc : Accuracy) (hl : 2 ^ 52 ≤ q)
    (hu : q < 2 ^ 54) (he : -1074 ≤ e) :
    shiftToTargetExponent Format.binary64 q e acc =
      if q < 2 ^ 53 then (ExtendedMantissa.ofMantissaAndAccuracy q acc, e)
      else (ExtendedMantissa.ofMantissaAndAccuracy q acc >>> 1, e + 1) := by
  unfold shiftToTargetExponent shiftToExponent
  simp only [targetExponent_eq, totalExponent]
  by_cases hq : q < 2 ^ 53
  · have hshift : (max ((q.log2 : Int) + 1 + e - 53) (-1074) - e).toNat = 0 := by
      rw [log2_mantissa hl hq]
      omega
    rw [if_pos hq, hshift]
    simp only [Nat.cast_zero, add_zero]
    rfl
  · have hlog : q.log2 = 53 := (Nat.log2_eq_iff (by omega)).mpr ⟨by omega, hu⟩
    have hshift : (max ((q.log2 : Int) + 1 + e - 53) (-1074) - e).toNat = 1 := by
      rw [hlog]
      omega
    rw [if_neg hq, hshift]
    rfl

theorem shiftToTargetExponent_mantissa {q : Nat} {e : Int} (acc : Accuracy) (hl : 2 ^ 52 ≤ q)
    (hu : q < 2 ^ 54) (he : -1074 ≤ e) :
    ∃ em k, shiftToTargetExponent Format.binary64 q e acc = (em, e + (k : Nat)) ∧
      em.mantissa = q / 2 ^ k ∧ (k = 0 ∧ q < 2 ^ 53 ∨ k = 1 ∧ 2 ^ 53 ≤ q) := by
  rw [shiftToTargetExponent_eq acc hl hu he]
  by_cases hq : q < 2 ^ 53
  · refine ⟨_, 0, by rw [if_pos hq, Nat.cast_zero, add_zero], ?_, .inl ⟨rfl, hq⟩⟩
    rw [ofMantissa_mantissa, Nat.pow_zero, Nat.div_one]
  · refine ⟨_, 1, if_neg hq, ?_, .inr ⟨rfl, by omega⟩⟩
    rw [shiftRight_one, ofMantissa_mantissa, Nat.pow_one]

/-- What rounding gives is at most one unit in the last place away. -/
structure Rounds (q : Nat) (e : Int) (m : Nat) (e' : Int) : Prop where
  low : 2 ^ 52 ≤ m
  high : m < 2 ^ 53
  near : ∃ k : Nat, e' = e + k ∧ k ≤ 2 ∧ m * 2 ^ k ≤ q + 2 ^ k ∧ q + 1 ≤ m * 2 ^ k + 2 ^ k

theorem roundWithAccuracy_eq {q : Nat} {e e' f : Int} {acc : Accuracy} {em fm : ExtendedMantissa}
    (hshift : shiftToTargetExponent Format.binary64 q e acc = (em, e'))
    (hfinish : shiftToTargetExponent Format.binary64 em.roundedMantissa e' .exact = (fm, f))
    (hm : 0 < fm.mantissa) :
    roundWithAccuracy Format.binary64 .positive q e acc =
      .finite .positive fm.mantissa f hm := by
  unfold roundWithAccuracy
  rw [hshift]
  dsimp only
  rw [hfinish]
  exact dif_neg (Nat.ne_of_gt hm)

theorem roundWithAccuracy_rounds {q : Nat} {e : Int} (acc : Accuracy) (hl : 2 ^ 52 ≤ q)
    (hu : q < 2 ^ 54) (he : -1074 ≤ e) :
    ∃ m e' h, roundWithAccuracy Format.binary64 .positive q e acc = .finite .positive m e' h ∧
      Rounds q e m e' := by
  obtain ⟨em, j, hshift, hem, hj⟩ := shiftToTargetExponent_mantissa acc hl hu he
  have hround : em.mantissa ≤ em.roundedMantissa ∧ em.roundedMantissa ≤ em.mantissa + 1 :=
    roundToNearestEven_bounds em.mantissa em.accuracy
  -- Rounding up may bring a power of two, which is shifted once more.
  have hr : 2 ^ 52 ≤ em.roundedMantissa ∧ em.roundedMantissa ≤ 2 ^ 53 := by
    rcases hj with ⟨rfl, hq⟩ | ⟨rfl, hq⟩
    · omega
    · omega
  obtain ⟨fm, k, hfinish, hfm, hk⟩ := shiftToTargetExponent_mantissa .exact hr.1
    (show em.roundedMantissa < 2 ^ 54 by omega) (show -1074 ≤ e + (j : Nat) by omega)
  have hf : 2 ^ 52 ≤ fm.mantissa ∧ fm.mantissa < 2 ^ 53 := by
    rcases hk with ⟨rfl, hq⟩ | ⟨rfl, hq⟩
    · omega
    · omega
  refine ⟨fm.mantissa, e + (j : Nat) + (k : Nat), by omega,
    roundWithAccuracy_eq hshift hfinish (by omega), hf.1, hf.2, j + k, by omega, by omega, ?_⟩
  rcases hj with ⟨rfl, hq⟩ | ⟨rfl, hq⟩
  · rcases hk with ⟨rfl, hq'⟩ | ⟨rfl, hq'⟩
    · omega
    · omega
  · rcases hk with ⟨rfl, hq'⟩ | ⟨rfl, hq'⟩
    · omega
    · omega

theorem shiftRight_shifted (m k : Nat) :
    (⟨m * 2 ^ k, false, false⟩ : ExtendedMantissa) >>> k = ⟨m, false, false⟩ := by
  induction k generalizing m with
  | zero => rw [Nat.pow_zero, Nat.mul_one]; rfl
  | succ k ih =>
    show ExtendedMantissa.shiftRightOne
      ((⟨m * 2 ^ (k + 1), false, false⟩ : ExtendedMantissa) >>> k) = _
    have hm : m * 2 ^ (k + 1) = (m * 2) * 2 ^ k := by
      rw [Nat.pow_succ]
      ring
    rw [hm, ih]
    simp [ExtendedMantissa.shiftRightOne]

theorem shiftToTargetExponent_shifted {m : Nat} {e : Int} (k : Nat) (hl : 2 ^ 52 ≤ m)
    (hu : m < 2 ^ 53) (he : -1074 ≤ e) :
    shiftToTargetExponent Format.binary64 (m * 2 ^ k) (e - k) .exact =
      (⟨m, false, false⟩, e) := by
  have hlog : (m * 2 ^ k).log2 = 52 + k := by
    rw [← Nat.shiftLeft_eq, log2_shiftLeft (by omega), log2_mantissa hl hu]
  have htarget : Format.binary64.targetExponent (totalExponent (m * 2 ^ k) (e - k)) = e := by
    rw [targetExponent_eq]
    unfold totalExponent
    omega
  have hshift : (e - (e - (k : Int))).toNat = k := by omega
  unfold shiftToTargetExponent shiftToExponent
  simp only [htarget, hshift]
  show ((⟨m * 2 ^ k, false, false⟩ : ExtendedMantissa) >>> k, e - k + k) = _
  rw [shiftRight_shifted, Int.sub_add_cancel]

theorem roundWithAccuracy_shifted {m : Nat} {e : Int} (k : Nat) (hm : 0 < m) (hl : 2 ^ 52 ≤ m)
    (hu : m < 2 ^ 53) (he : -1074 ≤ e) :
    roundWithAccuracy Format.binary64 .positive (m * 2 ^ k) (e - k) .exact =
      .finite .positive m e hm := by
  have hagain := shiftToTargetExponent_shifted 0 hl hu he
  rw [Nat.pow_zero, Nat.mul_one, Nat.cast_zero, sub_zero] at hagain
  exact roundWithAccuracy_eq (shiftToTargetExponent_shifted k hl hu he) hagain hm

/-- A positive number with a mantissa of 53 bits. -/
structure Reads (x : Float) (m : Nat) (e : Int) : Prop where
  low : 2 ^ 52 ≤ m
  high : m < 2 ^ 53
  unpacked : x.toModel.unpack =
    .finite .positive m e (Nat.lt_of_lt_of_le (Nat.two_pow_pos 52) low)

/-- What a mantissa stands for. -/
def worth (m : Nat) (e : Int) : ℚ := m * 2 ^ e

theorem Reads.ofModel_pack {m : Nat} {e : Int} {u : UnpackedFloat} {hm : 0 < m}
    (hl : 2 ^ 52 ≤ m) (hu : m < 2 ^ 53) (he : -1074 ≤ e) (he' : e ≤ 971)
    (h : u = .finite .positive m e hm) : Reads (.ofModel (Float.Model.pack u)) m e := by
  refine ⟨hl, hu, ?_⟩
  rw [h]
  exact unpack_pack hm hl hu he he'

theorem normalize_eq {n : Nat} (hn : 0 < n) (format : Format) :
    UnpackedFloat.normalize format (n : Int) 0 .positive =
      UnpackedFloat.round format .positive n 0 := by
  have hcompare : compare (n : Int) 0 = .gt := by
    rw [compare_gt_iff_gt]
    omega
  unfold UnpackedFloat.normalize
  rw [hcompare]
  rfl

theorem round_eq {n : Nat} (hn : n.log2 < 53) :
    UnpackedFloat.round Format.binary64 .positive n 0 =
      roundWithAccuracy Format.binary64 .positive (n * 2 ^ (52 - n.log2)) (n.log2 - 52) .exact := by
  have hshift : (0 - max ((n.log2 : Int) + 1 + 0 - 53) (-1074)).toNat = 52 - n.log2 := by omega
  have hexponent : (0 : Int) - ((52 - n.log2 : Nat) : Int) = (n.log2 : Int) - 52 := by omega
  unfold UnpackedFloat.round decreaseExponent totalExponent
  simp only [targetExponent_eq, hshift, hexponent, Nat.shiftLeft_eq]

theorem reads_toFloat {n : Nat} (hn : 0 < n) (hn' : n < 2 ^ 53) :
    Reads n.toUInt64.toFloat (n * 2 ^ (52 - n.log2)) (n.log2 - 52) := by
  have hlog : n.log2 < 53 := (Nat.log2_lt (Nat.ne_of_gt hn)).mpr hn'
  have hm : (n * 2 ^ (52 - n.log2)).log2 = 52 := by
    rw [← Nat.shiftLeft_eq, log2_shiftLeft hn]
    omega
  obtain ⟨hl, hu⟩ := (Nat.log2_eq_iff (Nat.ne_of_gt (by positivity))).mp hm
  have hnat : n.toUInt64.toNat = n := by
    rw [Nat.toUInt64_eq, UInt64.toNat_ofNat']
    omega
  apply Reads.ofModel_pack hl hu (by omega) (by omega)
  show UnpackedFloat.normalize Format.binary64 (n.toUInt64.toNat : Int) 0 .positive = _
  rw [hnat, normalize_eq hn, round_eq hlog]
  have hexact := roundWithAccuracy_shifted 0 (by omega) hl hu
    (show -1074 ≤ (n.log2 : Int) - 52 by omega)
  rw [Nat.pow_zero, Nat.mul_one, Nat.cast_zero, sub_zero] at hexact
  exact hexact

theorem unpack_one : (Float.ofBits 0x3FF0000000000000).toModel.unpack =
    .finite .positive (2 ^ 52) (-52) (Nat.two_pow_pos 52) := rfl

theorem Reads.mul_one {x : Float} {m : Nat} {e : Int} (hx : Reads x m e) (he : -1074 ≤ e)
    (he' : e ≤ 971) : Reads (x * Float.ofBits 0x3FF0000000000000) m e := by
  have hm : 0 < m := Nat.lt_of_lt_of_le (Nat.two_pow_pos 52) hx.low
  apply Reads.ofModel_pack hx.low hx.high he he'
  rw [hx.unpacked, unpack_one]
  exact roundWithAccuracy_shifted 52 hm hx.low hx.high he

theorem ofNat_eq_mul {n : Nat} (hn : n < 2 ^ 53) :
    Float.ofNat n = n.toUInt64.toFloat * Float.ofBits 0x3FF0000000000000 := by
  show Float.ofScientific n false 0 = _
  unfold Float.ofScientific
  rw [dif_pos ⟨hn, by decide⟩]
  rfl

theorem reads_ofNat {n : Nat} (hn : 0 < n) (hn' : n < 2 ^ 53) :
    ∃ m e, Reads (Float.ofNat n) m e ∧ -52 ≤ e ∧ e ≤ 0 ∧ worth m e = n := by
  have hlog : n.log2 < 53 := (Nat.log2_lt (Nat.ne_of_gt hn)).mpr hn'
  refine ⟨n * 2 ^ (52 - n.log2), n.log2 - 52, ?_, by omega, by omega, ?_⟩
  · rw [ofNat_eq_mul hn']
    exact (reads_toFloat hn hn').mul_one (by omega) (by omega)
  · have he : (n.log2 : Int) - 52 = -((52 - n.log2 : Nat) : Int) := by omega
    unfold worth
    rw [he, zpow_neg, zpow_natCast, Nat.cast_mul, Nat.cast_pow, Nat.cast_ofNat]
    exact mul_inv_cancel_right₀ (by positivity) _

theorem divCore_eq {m m' : Nat} {e e' : Int} (hm : m.log2 = 52) (hm' : m'.log2 = 52)
    (he : -1000 ≤ e - e') :
    divCore Format.binary64 m e m' e' =
      (m * 2 ^ 53 / m', e - e' - (53 : Nat), accuracyOfFraction (m * 2 ^ 53 % m') m') := by
  have htarget : min (e - e')
      (Format.binary64.targetExponent (totalExponent m e - totalExponent m' e')) =
        e - e' - (53 : Nat) := by
    rw [targetExponent_eq]
    unfold totalExponent
    omega
  have hshift : (e - e' - (e - e' - ((53 : Nat) : Int))).toNat = 53 := by omega
  unfold divCore
  simp only [htarget, hshift, Nat.shiftLeft_eq]

theorem div_finite (m m' : Nat) (e e' : Int) (h : 0 < m) (h' : 0 < m') :
    UnpackedFloat.div Format.binary64 (.finite .positive m e h) (.finite .positive m' e' h') =
      roundWithAccuracy Format.binary64 .positive (divCore Format.binary64 m e m' e').1
        (divCore Format.binary64 m e m' e').2.1 (divCore Format.binary64 m e m' e').2.2 := rfl

theorem Reads.div_self {x : Float} {m : Nat} {e : Int} (hx : Reads x m e) : x / x = 1 := by
  have hlog := log2_mantissa hx.low hx.high
  have hm : 0 < m := Nat.lt_of_lt_of_le (Nat.two_pow_pos 52) hx.low
  have hexponent : e - e - ((53 : Nat) : Int) = -52 - ((1 : Nat) : Int) := by omega
  have hone := roundWithAccuracy_shifted 1 (Nat.two_pow_pos 52) (Nat.le_refl _)
    (show 2 ^ 52 < 2 ^ 53 by decide) (show -1074 ≤ (-52 : Int) by decide)
  show Float.ofModel (Float.Model.pack (UnpackedFloat.div Format.binary64 _ _)) = _
  rw [hx.unpacked, div_finite, divCore_eq hlog hlog (by omega), Nat.mul_mod_right,
    Nat.mul_div_cancel_left _ hm, hexponent]
  exact congrArg (fun u => Float.ofModel (Float.Model.pack u)) hone

theorem worth_div {m m' : Nat} (e e' : Int) (hm' : 0 < m') :
    worth m e / worth m' e' = (m * 2 ^ 53 / m' : ℚ) * 2 ^ (e - e' - (53 : Nat)) := by
  have hm0 : (m' : ℚ) ≠ 0 := Nat.cast_ne_zero.mpr (Nat.ne_of_gt hm')
  have h2 : (2 : ℚ) ≠ 0 := two_ne_zero
  unfold worth
  rw [zpow_sub₀ h2, zpow_sub₀ h2, zpow_natCast]
  field_simp

theorem quotient_bounds {m m' : Nat} (hl : 2 ^ 52 ≤ m) (hu : m < 2 ^ 53) (hl' : 2 ^ 52 ≤ m')
    (hu' : m' < 2 ^ 53) : 2 ^ 52 ≤ m * 2 ^ 53 / m' ∧ m * 2 ^ 53 / m' < 2 ^ 54 := by
  have hm' : 0 < m' := Nat.lt_of_lt_of_le (Nat.two_pow_pos 52) hl'
  constructor
  · rw [Nat.le_div_iff_mul_le hm']
    omega
  · rw [Nat.div_lt_iff_lt_mul hm']
    omega

theorem quotient_near (a : Nat) {b : Nat} (hb : 0 < b) :
    ((a / b : Nat) : ℚ) ≤ a / b ∧ (a / b : ℚ) ≤ (a / b : Nat) + 1 := by
  have hb0 : (0 : ℚ) < b := by exact_mod_cast hb
  constructor
  · exact Nat.cast_div_le
  · rw [div_le_iff₀ hb0]
    have h : a < (a / b + 1) * b := by
      rw [← Nat.div_lt_iff_lt_mul hb]
      exact Nat.lt_succ_self _
    exact_mod_cast h.le

/-- What is rounded was cut off before, so it lies between `q` and `q + 1`. -/
theorem Rounds.worth_near {q m : Nat} {e e' : Int} (h : Rounds q e m e') {r : ℚ}
    (hq : (q : ℚ) ≤ r) (hr : r ≤ q + 1) :
    worth m e' ≤ r * 2 ^ e + 2 ^ e' ∧ r * 2 ^ e ≤ worth m e' + 2 ^ e' := by
  obtain ⟨k, he, -, hlow, hhigh⟩ := h.near
  have hpos : (0 : ℚ) ≤ 2 ^ e := (zpow_pos two_pos _).le
  have hunit : (2 : ℚ) ^ e' = 2 ^ k * 2 ^ e := by
    rw [he, zpow_add₀ two_ne_zero, zpow_natCast, mul_comm]
  have hlow' : (m : ℚ) * 2 ^ k ≤ q + 2 ^ k := by exact_mod_cast hlow
  have hhigh' : (q : ℚ) + 1 ≤ m * 2 ^ k + 2 ^ k := by exact_mod_cast hhigh
  constructor
  · calc worth m e' = m * 2 ^ k * 2 ^ e := by rw [worth, hunit, mul_assoc]
      _ ≤ (r + 2 ^ k) * 2 ^ e := by
        apply mul_le_mul_of_nonneg_right _ hpos
        linarith
      _ = r * 2 ^ e + 2 ^ e' := by rw [hunit, add_mul]
  · calc r * 2 ^ e ≤ (m * 2 ^ k + 2 ^ k) * 2 ^ e := by
          apply mul_le_mul_of_nonneg_right _ hpos
          linarith
      _ = worth m e' + 2 ^ e' := by rw [worth, hunit, add_mul, mul_assoc]

/-- The quotient differs by less than a unit in the last place. -/
theorem Reads.div {x y : Float} {m m' : Nat} {e e' : Int} (hx : Reads x m e)
    (hy : Reads y m' e') (he : -900 ≤ e - e') (he' : e - e' ≤ 900) :
    ∃ n f, Reads (x / y) n f ∧ worth n f ≤ worth m e / worth m' e' + 2 ^ f ∧
      worth m e / worth m' e' ≤ worth n f + 2 ^ f := by
  have hm' : 0 < m' := Nat.lt_of_lt_of_le (Nat.two_pow_pos 52) hy.low
  have hq := quotient_bounds hx.low hx.high hy.low hy.high
  obtain ⟨n, f, hn, hround, hrounds⟩ := roundWithAccuracy_rounds
    (accuracyOfFraction (m * 2 ^ 53 % m') m') hq.1 hq.2
      (show -1074 ≤ e - e' - ((53 : Nat) : Int) by omega)
  obtain ⟨k, hf, hk, -⟩ := hrounds.near
  refine ⟨n, f, ?_, ?_⟩
  · apply Reads.ofModel_pack hrounds.low hrounds.high (by omega) (by omega)
    rw [hx.unpacked, hy.unpacked, div_finite,
      divCore_eq (log2_mantissa hx.low hx.high) (log2_mantissa hy.low hy.high) (by omega)]
    exact hround
  · have hnear := quotient_near (m * 2 ^ 53) hm'
    rw [Nat.cast_mul, Nat.cast_pow, Nat.cast_ofNat] at hnear
    rw [worth_div e e' hm']
    exact hrounds.worth_near hnear.1 hnear.2

theorem compare_of_worth_lt {m m' : Nat} {e e' : Int} (hl : 2 ^ 52 ≤ m) (hu : m' < 2 ^ 53)
    (h : worth m e < worth m' e') : (compare e e').then (compare m m') = .lt := by
  by_cases he : e < e'
  · rw [compare_lt_iff_lt.mpr he]
    rfl
  · have hle : e' ≤ e := not_lt.mp he
    obtain ⟨k, rfl⟩ : ∃ k : Nat, e = e' + k := ⟨(e - e').toNat, by omega⟩
    have hlt : m * 2 ^ k < m' := by
      have hpos : (0 : ℚ) < 2 ^ e' := zpow_pos two_pos _
      unfold worth at h
      rw [zpow_add₀ two_ne_zero, zpow_natCast, mul_left_comm, mul_comm _ ((2 : ℚ) ^ e'),
        mul_lt_mul_iff_right₀ hpos] at h
      exact_mod_cast h
    have hk : k = 0 := by
      by_contra hk
      have h2 : 2 ^ 1 ≤ 2 ^ k := Nat.pow_le_pow_right (by decide) (Nat.pos_of_ne_zero hk)
      have := Nat.mul_le_mul hl h2
      omega
    subst hk
    rw [Nat.cast_zero, add_zero, compare_eq_iff_eq.mpr rfl, compare_lt_iff_lt.mpr (by omega)]
    rfl

/-- How two numbers compare. -/
def comparison (x y : Float) : Option Ordering := x.toModel.unpack.compare y.toModel.unpack

theorem Reads.comparison_lt {x y : Float} {m m' : Nat} {e e' : Int} (hx : Reads x m e)
    (hy : Reads y m' e') (h : worth m e < worth m' e') : comparison x y = some .lt := by
  unfold comparison
  rw [hx.unpacked, hy.unpacked]
  exact congrArg some (compare_of_worth_lt hx.low hy.high h)

theorem Reads.comparison_gt {x y : Float} {m m' : Nat} {e e' : Int} (hx : Reads x m e)
    (hy : Reads y m' e') (h : worth m e < worth m' e') : comparison y x = some .gt := by
  have hlt := compare_of_worth_lt hx.low hy.high h
  unfold comparison
  rw [hx.unpacked, hy.unpacked]
  show some ((compare e' e).then (compare m' m)) = some .gt
  rw [Std.OrientedOrd.eq_swap (a := e'), Std.OrientedOrd.eq_swap (a := m'), ← Ordering.swap_then,
    hlt]
  rfl

theorem Reads.comparison_self {x : Float} {m : Nat} {e : Int} (hx : Reads x m e) :
    comparison x x = some .eq := by
  unfold comparison
  rw [hx.unpacked]
  show some ((compare e e).then (compare m m)) = some .eq
  rw [compare_eq_iff_eq.mpr rfl, compare_eq_iff_eq.mpr rfl]
  rfl

theorem fraction_reads {a t : Nat} (ha : 0 < a) (hat : a ≤ t) (ht : t ≤ 2 ^ 50) :
    ∃ n f, Reads (Float.ofNat a / Float.ofNat t) n f ∧ worth n f ≤ a / t + 2 ^ f ∧
      (a / t : ℚ) ≤ worth n f + 2 ^ f ∧ (2 : ℚ) ^ f < 1 / (2 * 2 ^ 50) := by
  obtain ⟨m, e, hm, hel, heu, hw⟩ := reads_ofNat ha (by omega)
  obtain ⟨m', e', hm', hel', heu', hw'⟩ := reads_ofNat (show 0 < t by omega) (by omega)
  obtain ⟨n, f, hn, hlow, hhigh⟩ := hm.div hm' (by omega) (by omega)
  rw [hw, hw'] at hlow hhigh
  refine ⟨n, f, hn, hlow, hhigh, ?_⟩
  -- The fraction is at most one, and the mantissa has 53 bits.
  have hone : (a / t : ℚ) ≤ 1 := by
    apply div_le_one_of_le₀ (by exact_mod_cast hat) (Nat.cast_nonneg t)
  have hmantissa : (2 ^ 52 : ℚ) * 2 ^ f ≤ worth n f := by
    apply mul_le_mul_of_nonneg_right _ (zpow_pos two_pos _).le
    exact_mod_cast hn.low
  have hbig : (2 ^ 52 - 1 : ℚ) * 2 ^ f ≤ 1 := by linarith
  rw [lt_div_iff₀ (by norm_num)]
  have hpos : (0 : ℚ) < 2 ^ f := zpow_pos two_pos _
  nlinarith

theorem fraction_zero {t : Nat} (h0 : 0 < t) (ht : t < 2 ^ 53) :
    (Float.ofNat 0 / Float.ofNat t).toModel.unpack = .zero .positive := by
  obtain ⟨m, e, hm, -⟩ := reads_ofNat h0 ht
  have hzero : (Float.ofNat 0).toModel.unpack = .zero .positive := rfl
  show (Float.Model.pack (UnpackedFloat.div Format.binary64 _ _)).unpack = _
  rw [hzero, hm.unpacked]
  show (Float.Model.pack (.zero .positive)).unpack = _
  rfl

theorem comparison_fractions_lt {a b t : Nat} (hab : a < b) (hb : b ≤ t) (ht : t ≤ 2 ^ 50) :
    comparison (Float.ofNat a / Float.ofNat t) (Float.ofNat b / Float.ofNat t) = some .lt ∧
      comparison (Float.ofNat b / Float.ofNat t) (Float.ofNat a / Float.ofNat t) = some .gt := by
  obtain ⟨n, f, hn, -, hbig, hf⟩ := fraction_reads (show 0 < b by omega) hb ht
  by_cases ha : a = 0
  · subst ha
    unfold comparison
    rw [hn.unpacked, fraction_zero (by omega) (by omega)]
    exact ⟨rfl, rfl⟩
  · obtain ⟨n', f', hn', hsmall, -, hf'⟩ := fraction_reads (show 0 < a by omega)
      (show a ≤ t by omega) ht
    -- The fractions are at least `1 / t` apart, and rounding moves each by less than half of that.
    have hgap : (a / t + 1 / 2 ^ 50 : ℚ) ≤ b / t := by
      have ht0 : (0 : ℚ) < t := by exact_mod_cast (show 0 < t by omega)
      have hinv : (1 / 2 ^ 50 : ℚ) ≤ 1 / t := by
        apply one_div_le_one_div_of_le ht0
        exact_mod_cast ht
      calc (a / t + 1 / 2 ^ 50 : ℚ) ≤ a / t + 1 / t := by linarith
        _ = (a + 1) / t := by rw [add_div]
        _ ≤ b / t := by
          apply div_le_div_of_nonneg_right _ ht0.le
          exact_mod_cast hab
    have hworth : worth n' f' < worth n f := by
      have hhalf : (1 / (2 * 2 ^ 50) + 1 / (2 * 2 ^ 50) : ℚ) = 1 / 2 ^ 50 := by norm_num
      linarith
    exact ⟨hn'.comparison_lt hn hworth, hn'.comparison_gt hn hworth⟩

theorem comparison_fractions_self {a t : Nat} (ha : a ≤ t) (h0 : 0 < t) (ht : t ≤ 2 ^ 50) :
    comparison (Float.ofNat a / Float.ofNat t) (Float.ofNat a / Float.ofNat t) = some .eq := by
  by_cases h : a = 0
  · subst h
    unfold comparison
    rw [fraction_zero h0 (by omega)]
    rfl
  · obtain ⟨n, f, hn, -⟩ := fraction_reads (show 0 < a by omega) ha ht
    exact hn.comparison_self

theorem comparison_fractions {a b t : Nat} (ha : a ≤ t) (hb : b ≤ t) (h0 : 0 < t)
    (ht : t ≤ 2 ^ 50) :
    comparison (Float.ofNat a / Float.ofNat t) (Float.ofNat b / Float.ofNat t) =
      some (compare a b) := by
  rcases lt_trichotomy a b with h | rfl | h
  · rw [(comparison_fractions_lt h hb ht).1, compare_lt_iff_lt.mpr h]
  · rw [comparison_fractions_self ha h0 ht, compare_eq_iff_eq.mpr rfl]
  · rw [(comparison_fractions_lt h ha ht).2, compare_gt_iff_gt.mpr h]

theorem fraction_le_iff {a b t : Nat} (ha : a ≤ t) (hb : b ≤ t) (h0 : 0 < t) (ht : t ≤ 2 ^ 50) :
    Float.ofNat a / Float.ofNat t ≤ Float.ofNat b / Float.ofNat t ↔ a ≤ b := by
  show decide ((comparison _ _).any (·.isLE) = true) = true ↔ _
  rw [comparison_fractions ha hb h0 ht, decide_eq_true_iff, Option.any_some, ← compare_le_iff_le,
    Ordering.isLE_iff_ne_gt]

theorem fraction_lt_iff {a b t : Nat} (ha : a ≤ t) (hb : b ≤ t) (h0 : 0 < t) (ht : t ≤ 2 ^ 50) :
    Float.ofNat a / Float.ofNat t < Float.ofNat b / Float.ofNat t ↔ a < b := by
  show decide ((comparison _ _ == some .lt) = true) = true ↔ _
  rw [comparison_fractions ha hb h0 ht, decide_eq_true_iff, beq_iff_eq, Option.some_inj,
    compare_lt_iff_lt]

theorem fraction_pos_iff {a t : Nat} (ha : a ≤ t) (h0 : 0 < t) (ht : t ≤ 2 ^ 50) :
    0 < Float.ofNat a / Float.ofNat t ↔ 0 < a := by
  have hzero : (0 : Float).toModel.unpack = (Float.ofNat 0 / Float.ofNat t).toModel.unpack := by
    rw [fraction_zero h0 (by omega)]
    rfl
  rw [← fraction_lt_iff (Nat.zero_le t) ha h0 ht]
  show decide ((UnpackedFloat.compare _ _ == some .lt) = true) = true ↔ _
  rw [hzero]
  rfl

theorem fraction_self {t : Nat} (h0 : 0 < t) (ht : t < 2 ^ 53) :
    Float.ofNat t / Float.ofNat t = 1 := by
  obtain ⟨m, e, hm, -⟩ := reads_ofNat h0 ht
  exact hm.div_self

end Cardwalk.Decimal
