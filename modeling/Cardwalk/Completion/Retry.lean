import Cardwalk.Completion.Basic
/-!
# Repeating requests

A request that failed in a way that may pass is repeated after a delay.
The delay grows by a factor from one attempt to the next, up to a limit; a
delay that the server asks for goes first, up to the same limit.
-/

set_option autoImplicit false

namespace Cardwalk

structure RetryPolicy where
  maxRetries : Nat := 3
  initial : Duration := .ofSeconds 1
  max : Duration := .ofSeconds 60
  factor : Float := 2
  /-- Delays vary by up to a quarter. -/
  jitter : Bool := true
deriving Repr

namespace RetryPolicy

/-- The number of an attempt as a signed exponent of 32 bits. -/
def exponent (attempt : Nat) : Int := Int.bmod attempt (Decimal.twoTo 32)

/-- A power by squaring; the second number counts the bits left. -/
def powerFrom (x r : Float) : Nat → Nat → Float
  | _, 0 => r
  | n, bits + 1 =>
    let r := if n % 2 = 1 then r * x else r
    if n / 2 = 0 then r else powerFrom (x * x) r (n / 2) bits

def power (x : Float) (e : Int) : Float :=
  let r := powerFrom x 1 e.natAbs 33
  if e < 0 then 1 / r else r

/-- The smaller number; a number that is none is passed over. -/
def least (x y : Float) : Float :=
  if x.isNaN then y else if y.isNaN then x else if y < x then y else x

def base (p : RetryPolicy) (attempt : Nat) : Float :=
  least (p.initial.toFloat * power p.factor (exponent attempt)) p.max.toFloat

/-- The delay before the next attempt.  The draw is a number from zero to
one and says how much of the jitter is used.  There is none if the delay
cannot be expressed. -/
def delay (p : RetryPolicy) (draw : Float) (attempt : Nat) : Option Duration :=
  let x := p.base attempt
  Duration.ofFloat? (if p.jitter then x + draw * 0.25 * x else x)

def wait (p : RetryPolicy) (draw : Float) (attempt : Nat) (e : CompletionError) :
    Option Duration :=
  match e.retryAfter with
  | some d => some (d.min p.max)
  | none => p.delay draw attempt

end RetryPolicy

inductive RetryEnd where
  | finished (r : Except CompletionError Completion)
  /-- A delay could not be expressed. -/
  | noDelay

namespace Retry

/-- Attempts, given how many retries are left and the number of the
attempt.  The request and the sleep act on a state. -/
def attempts {σ : Type} (p : RetryPolicy) (draw : σ → Float)
    (request : σ → Except CompletionError Completion × σ) (sleep : Duration → σ → σ) :
    Nat → Nat → σ → RetryEnd × σ
  | left, attempt, s =>
    match request s with
    | (.ok c, s) => (.finished (.ok c), s)
    | (.error e, s) =>
      match left with
      | 0 => (.finished (.error e), s)
      | left + 1 =>
        if e.isRetryable then
          match p.wait (draw s) attempt e with
          | none => (.noDelay, s)
          | some d => attempts p draw request sleep left (attempt + 1) (sleep d s)
        else (.finished (.error e), s)

def run {σ : Type} (p : RetryPolicy) (draw : σ → Float)
    (request : σ → Except CompletionError Completion × σ) (sleep : Duration → σ → σ)
    (s : σ) : RetryEnd × σ :=
  attempts p draw request sleep p.maxRetries 0 s

end Retry

end Cardwalk
