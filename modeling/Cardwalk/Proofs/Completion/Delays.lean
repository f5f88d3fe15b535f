import Mathlib.Algebra.Order.Field.Basic
import Mathlib.Tactic.GCongr
import Mathlib.Tactic.Linarith
import Mathlib.Tactic.Positivity
import Mathlib.Tactic.Ring
import Cardwalk.Completion.Retry

/-!
# Growing delays

Delays are worked out in an arithmetic. The one of a policy is that of floats;
in an exact arithmetic the power is a power, so that the delays grow up to their
limit and no further.
-/

set_option autoImplicit false

namespace Cardwalk

structure Arithmetic (K : Type) where
  one : K
  quarter : K
  add : K → K → K
  mul : K → K → K
  div : K → K → K
  least : K → K → K
  seconds : Duration → K

namespace Arithmetic

section Delay

variable {K : Type} (a : Arithmetic K)

def powerFrom (x r : K) : Nat → Nat → K
  | _, 0 => r
  | n, bits + 1 =>
    let r := if n % 2 = 1 then a.mul r x else r
    if n / 2 = 0 then r else powerFrom (a.mul x x) r (n / 2) bits

def power (x : K) (e : Int) : K :=
  let r := a.powerFrom x a.one e.natAbs 33
  if e < 0 then a.div a.one r else r

def base (p : RetryPolicy) (factor : K) (attempt : Nat) : K :=
  a.least (a.mul (a.seconds p.initial) (a.power factor (RetryPolicy.exponent attempt)))
    (a.seconds p.max)

def delay (p : RetryPolicy) (factor draw : K) (attempt : Nat) : K :=
  let x := a.base p factor attempt
  if p.jitter then a.add x (a.mul (a.mul draw a.quarter) x) else x

def wait (p : RetryPolicy) (factor draw : K) (attempt : Nat) (e : CompletionError) : K :=
  match e.retryAfter with
  | some d => a.seconds (d.min p.max)
  | none => a.delay p factor draw attempt

end Delay

def floats : Arithmetic Float where
  one := 1
  quarter := 0.25
  add := (· + ·)
  mul := (· * ·)
  div := (· / ·)
  least := RetryPolicy.least
  seconds := Duration.toFloat

theorem floats_powerFrom (x r : Float) (n bits : Nat) :
    floats.powerFrom x r n bits = RetryPolicy.powerFrom x r n bits := by
  induction bits generalizing x r n with
  | zero => rfl
  | succ bits ih =>
    rw [powerFrom, RetryPolicy.powerFrom, ih]
    rfl

/-- The delay of a policy is the one of floats as a duration. -/
theorem delay_floats (p : RetryPolicy) (draw : Float) (attempt : Nat) :
    p.delay draw attempt = Duration.ofFloat? (floats.delay p p.factor draw attempt) := by
  have hbase : floats.base p p.factor attempt = p.base attempt := by
    rw [base, power, floats_powerFrom]
    rfl
  rw [delay, hbase]
  rfl

section Exact

variable (K : Type) [Field K] [LinearOrder K]

def exact : Arithmetic K where
  one := 1
  quarter := 1 / 4
  add := (· + ·)
  mul := (· * ·)
  div := (· / ·)
  least := min
  seconds d := d.nanos / Duration.perSecond

variable {K}

theorem exact_powerFrom (x r : K) {n bits : Nat} (h : n < 2 ^ bits) :
    (exact K).powerFrom x r n bits = r * x ^ n := by
  induction bits generalizing x r n with
  | zero =>
    obtain rfl : n = 0 := by omega
    simp [powerFrom]
  | succ bits ih =>
    have hhalf : n / 2 < 2 ^ bits := by omega
    have hodd : (if n % 2 = 1 then (exact K).mul r x else r) = r * x ^ (n % 2) := by
      rcases Nat.mod_two_eq_zero_or_one n with h0 | h1
      · simp [h0]
      · simp [h1, exact]
    have hsquare : (exact K).mul x x = x ^ 2 := (sq x).symm
    rw [powerFrom, hodd, hsquare, ih _ _ hhalf]
    split
    · rename_i hzero
      rw [show n % 2 = n by omega]
    · rw [mul_assoc, ← pow_mul, ← pow_add, Nat.mod_add_div]

theorem exponent_of_lt {n : Nat} (h : n < 2 ^ 31) : RetryPolicy.exponent n = n := by
  have hword : Decimal.twoTo 32 = 2 ^ 32 := rfl
  rw [RetryPolicy.exponent, hword]
  exact Int.bmod_eq_of_le (by omega) (by omega)

theorem exact_power (x : K) {n : Nat} (h : n < 2 ^ 31) :
    (exact K).power x (RetryPolicy.exponent n) = x ^ n := by
  have hpower : (exact K).powerFrom x 1 n 33 = x ^ n := by
    rw [exact_powerFrom x 1 (show n < 2 ^ 33 by omega), one_mul]
  rw [power, exponent_of_lt h, if_neg (by omega)]
  exact hpower

theorem exact_base (p : RetryPolicy) (factor : K) {i : Nat} (h : i < 2 ^ 31) :
    (exact K).base p factor i =
      min ((exact K).seconds p.initial * factor ^ i) ((exact K).seconds p.max) := by
  rw [base, exact_power factor h]
  rfl

variable [IsStrictOrderedRing K]

theorem seconds_nonneg (d : Duration) : 0 ≤ (exact K).seconds d :=
  div_nonneg (Nat.cast_nonneg _) (Nat.cast_nonneg _)

theorem seconds_mono {d d' : Duration} (h : d.nanos ≤ d'.nanos) :
    (exact K).seconds d ≤ (exact K).seconds d' :=
  div_le_div_of_nonneg_right (Nat.cast_le.mpr h) (Nat.cast_nonneg _)

section Policy

variable (p : RetryPolicy) {factor : K} (hf : 1 ≤ factor)

include hf

theorem base_nonneg {i : Nat} (hi : i < 2 ^ 31) : 0 ≤ (exact K).base p factor i := by
  rw [exact_base p factor hi]
  have hpower : 0 ≤ factor ^ i := by positivity
  exact le_min (mul_nonneg (seconds_nonneg _) hpower) (seconds_nonneg _)

theorem base_mono {i j : Nat} (hij : i ≤ j) (hj : j < 2 ^ 31) :
    (exact K).base p factor i ≤ (exact K).base p factor j := by
  rw [exact_base p factor hj, exact_base p factor (hij.trans_lt hj)]
  have hpower : factor ^ i ≤ factor ^ j := pow_le_pow_right₀ hf hij
  exact min_le_min_right _ (mul_le_mul_of_nonneg_left hpower (seconds_nonneg _))

def limit (K : Type) [Field K] [LinearOrder K] (p : RetryPolicy) : K :=
  (if p.jitter then 5 / 4 else 1) * (exact K).seconds p.max

omit hf in
theorem seconds_le_limit : (exact K).seconds p.max ≤ limit K p := by
  have hmax := seconds_nonneg (K := K) p.max
  unfold limit
  split <;> linarith

theorem wait_le_limit {draw : K} (hdraw : draw ≤ 1) {i : Nat} (hi : i < 2 ^ 31)
    (e : CompletionError) : (exact K).wait p factor draw i e ≤ limit K p := by
  unfold wait
  split
  · rename_i d hd
    have hmin : (d.min p.max).nanos ≤ p.max.nanos := by
      rw [Duration.min_nanos]
      exact Nat.min_le_right _ _
    exact (seconds_mono hmin).trans (seconds_le_limit p)
  · have hbase := base_nonneg p hf hi
    have hmax : (exact K).base p factor i ≤ (exact K).seconds p.max := by
      rw [exact_base p factor hi]
      exact min_le_right _ _
    have hdrawn : draw * (1 / 4) * (exact K).base p factor i ≤
        1 * (1 / 4) * (exact K).seconds p.max := by gcongr
    unfold delay limit
    split
    · change (exact K).base p factor i + draw * (1 / 4) * (exact K).base p factor i ≤ _
      linarith
    · linarith

theorem wait_mono (hjitter : p.jitter = false) (draw draw' : K) {i j : Nat} (hij : i ≤ j)
    (hj : j < 2 ^ 31) {e e' : CompletionError} (he : e.retryAfter = none)
    (he' : e'.retryAfter = none) :
    (exact K).wait p factor draw i e ≤ (exact K).wait p factor draw' j e' := by
  simp only [wait, he, he', delay, hjitter]
  exact base_mono p hf hij hj

end Policy

end Exact

end Arithmetic

end Cardwalk
