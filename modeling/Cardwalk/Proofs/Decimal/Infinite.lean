/-!
# Numbers that are not finite

A number that is not finite is infinite or no number at all. It stays so
through every operation, except that a finite number divided by an infinite
one is zero. A number divided by zero is never finite.
-/

set_option autoImplicit false

namespace Cardwalk.Decimal

open Float.Model Float.Model.UnpackedFloat

variable {x y : Float} {u v : UnpackedFloat}

theorem unpack_pack_infinity (s : Sign) :
    (Float.Model.pack (.infinity s)).unpack = .infinity s := by
  cases s with
  | positive => rfl
  | negative => rfl

theorem unpack_pack_notANumber : (Float.Model.pack .notANumber).unpack = .notANumber := rfl

theorem unpack_pack_zero (s : Sign) : (Float.Model.pack (.zero s)).unpack = .zero s := by
  cases s with
  | positive => rfl
  | negative => rfl

theorem isFinite_pack (h : u.isFinite = false) :
    (Float.Model.pack u).unpack.isFinite = false := by
  cases u with
  | infinity s => rw [unpack_pack_infinity]; rfl
  | notANumber => rw [unpack_pack_notANumber]; rfl
  | zero s => cases h
  | finite s m e hm => cases h

theorem unpack_of_eq_zero (h : (x == 0) = true) : ∃ s, x.toModel.unpack = .zero s := by
  have hzero : (0 : Float).toModel.unpack = .zero .positive := rfl
  change (x.toModel.unpack.compare (0 : Float).toModel.unpack == some .eq) = true at h
  rw [hzero] at h
  cases hx : x.toModel.unpack with
  | zero s => exact ⟨s, rfl⟩
  | infinity s => rw [hx] at h; cases s <;> cases h
  | notANumber => rw [hx] at h; cases h
  | finite s m e hm => rw [hx] at h; cases s <;> cases h

theorem eq_zero_of_unpack {s : Sign} (h : x.toModel.unpack = .zero s) : (x == 0) = true := by
  change (x.toModel.unpack.compare (0 : Float).toModel.unpack == some .eq) = true
  rw [h]
  rfl

theorem neg_infinite (h : u.isFinite = false) : u.neg.isFinite = false := by
  cases u with
  | infinity s => rfl
  | notANumber => rfl
  | zero s => cases h
  | finite s m e hm => cases h

def EitherInfinite (u v : UnpackedFloat) : Prop := u.isFinite = false ∨ v.isFinite = false

theorem not_eitherInfinite (hu : u.isFinite = true) (hv : v.isFinite = true) :
    ¬ EitherInfinite u v := by
  simp [EitherInfinite, hu, hv]

theorem add_infinite (format : Format) (h : EitherInfinite u v) :
    (UnpackedFloat.add format u v).isFinite = false := by
  cases u with
  | notANumber => rfl
  | infinity s =>
    cases v with
    | infinity t => cases s <;> cases t <;> rfl
    | notANumber | zero | finite => rfl
  | zero | finite =>
    cases v with
    | notANumber | infinity => rfl
    | zero | finite => exact absurd h (not_eitherInfinite rfl rfl)

theorem sub_infinite (format : Format) (h : EitherInfinite u v) :
    (UnpackedFloat.sub format u v).isFinite = false := by
  cases u with
  | notANumber => rfl
  | infinity s =>
    cases v with
    | infinity t => cases s <;> cases t <;> rfl
    | notANumber | zero | finite => rfl
  | zero | finite =>
    cases v with
    | notANumber | infinity => rfl
    | zero | finite => exact absurd h (not_eitherInfinite rfl rfl)

theorem mul_infinite (format : Format) (h : EitherInfinite u v) :
    (UnpackedFloat.mul format u v).isFinite = false := by
  cases u with
  | notANumber => rfl
  | infinity s => cases v <;> rfl
  | zero | finite =>
    cases v with
    | notANumber | infinity => rfl
    | zero | finite => exact absurd h (not_eitherInfinite rfl rfl)

theorem div_infinite_left (format : Format) (h : u.isFinite = false) :
    (UnpackedFloat.div format u v).isFinite = false := by
  cases u with
  | notANumber => rfl
  | infinity s => cases v <;> rfl
  | zero s => cases h
  | finite s m e hm => cases h

/-- Only an infinite divisor can be absorbed. -/
theorem div_infinite_right (format : Format) (h : v.isFinite = false)
    (hv : u.isFinite = true → v.isInf = false) :
    (UnpackedFloat.div format u v).isFinite = false := by
  cases v with
  | notANumber => cases u <;> rfl
  | infinity t =>
    cases u with
    | infinity s => rfl
    | notANumber => rfl
    | zero s => cases hv rfl
    | finite s m e hm => cases hv rfl
  | zero s => cases h
  | finite s m e hm => cases h

theorem div_absorbed (format : Format) (h : u.isFinite = true) (hv : v.isInf = true) :
    ∃ s, UnpackedFloat.div format u v = .zero s := by
  cases v with
  | infinity t =>
    cases u with
    | infinity s => cases h
    | notANumber => cases h
    | zero s => exact ⟨s / t, rfl⟩
    | finite s m e hm => exact ⟨s / t, rfl⟩
  | notANumber | zero | finite => cases hv

theorem div_zero (format : Format) (s : Sign) :
    (UnpackedFloat.div format u (.zero s)).isFinite = false := by
  cases u <;> rfl

theorem isFinite_neg (h : x.isFinite = false) : (-x).isFinite = false :=
  isFinite_pack (neg_infinite h)

theorem isFinite_add (h : x.isFinite = false ∨ y.isFinite = false) :
    (x + y).isFinite = false :=
  isFinite_pack (add_infinite _ h)

theorem isFinite_sub (h : x.isFinite = false ∨ y.isFinite = false) :
    (x - y).isFinite = false :=
  isFinite_pack (sub_infinite _ h)

theorem isFinite_mul (h : x.isFinite = false ∨ y.isFinite = false) :
    (x * y).isFinite = false :=
  isFinite_pack (mul_infinite _ h)

theorem isFinite_div_left (h : x.isFinite = false) : (x / y).isFinite = false :=
  isFinite_pack (div_infinite_left _ h)

theorem isFinite_div_right (h : y.isFinite = false) (hy : x.isFinite = true → y.isInf = false) :
    (x / y).isFinite = false :=
  isFinite_pack (div_infinite_right _ h hy)

theorem isFinite_div_zero (h : (y == 0) = true) : (x / y).isFinite = false := by
  obtain ⟨s, hs⟩ := unpack_of_eq_zero h
  apply isFinite_pack
  rw [hs]
  exact div_zero _ s

theorem div_infinite_eq_zero (h : x.isFinite = true) (hy : y.isInf = true) :
    (x / y == 0) = true := by
  obtain ⟨s, hs⟩ := div_absorbed Format.binary64 h hy
  apply eq_zero_of_unpack (s := s)
  change (Float.Model.pack (UnpackedFloat.div Format.binary64 _ _)).unpack = _
  rw [hs, unpack_pack_zero]

end Cardwalk.Decimal
