import Cardwalk.Proofs.Completion.Delays

/-!
# Calls and sleeps of a repeated request

A request is repeated until there is a result that no retry would change, or
until the retries are used up. Between two calls there is one sleep, as long as
the policy says; a delay that no duration expresses ends the request.
-/

set_option autoImplicit false

namespace Cardwalk.Retry

/-- What is done for a request: the service is asked, or time passes. -/
inductive Deed (δ : Type) where
  | asked (prompt model : String)
  | slept (d : δ)
deriving DecidableEq

namespace Deed

variable {δ : Type}

def isCall : Deed δ → Bool
  | .asked _ _ => true
  | .slept _ => false

end Deed

section Journal

variable {δ : Type}

/-- A service whose results are given by the number of calls before; the calls
are written down. -/
def ask (r : ℕ → Except CompletionError Completion) (prompt model : String)
    (done : List (Deed δ)) : Except CompletionError Completion × List (Deed δ) :=
  (r (done.countP Deed.isCall), done ++ [.asked prompt model])

def sleep (d : δ) (done : List (Deed δ)) : List (Deed δ) := done ++ [.slept d]

def before (prompt model : String) (delays : List δ) : List (Deed δ) :=
  delays.flatMap fun d => [.asked prompt model, .slept d]

def journal (prompt model : String) (delays : List δ) : List (Deed δ) :=
  before prompt model delays ++ [.asked prompt model]

theorem calls_before (prompt model : String) (delays : List δ) :
    (before prompt model delays).countP Deed.isCall = delays.length := by
  induction delays with
  | nil => rfl
  | cons d delays ih =>
    rw [before, List.flatMap_cons, List.countP_append]
    change 1 + (before prompt model delays).countP Deed.isCall = _
    rw [ih, List.length_cons, Nat.add_comm]

theorem ask_before (r : ℕ → Except CompletionError Completion) (prompt model : String)
    (delays : List δ) : ask r prompt model (before prompt model delays) =
      (r delays.length, journal prompt model delays) := by
  rw [ask, calls_before]
  rfl

theorem sleep_journal (prompt model : String) (delays : List δ) (d : δ) :
    sleep d (journal prompt model delays) = before prompt model (delays ++ [d]) := by
  simp [sleep, journal, before]

end Journal

def loop {σ δ : Type} (wait : σ → ℕ → CompletionError → Option δ)
    (request : σ → Except CompletionError Completion × σ) (sleep : δ → σ → σ) :
    ℕ → ℕ → σ → RetryEnd × σ
  | left, attempt, s =>
    match request s with
    | (.ok c, s) => (.finished (.ok c), s)
    | (.error e, s) =>
      match left with
      | 0 => (.finished (.error e), s)
      | left + 1 =>
        if e.isRetryable then
          match wait s attempt e with
          | none => (.noDelay, s)
          | some d => loop wait request sleep left (attempt + 1) (sleep d s)
        else (.finished (.error e), s)

theorem attempts_eq_loop {σ : Type} (p : RetryPolicy) (draw : σ → Float)
    (request : σ → Except CompletionError Completion × σ) (sleep : Duration → σ → σ)
    (left attempt : ℕ) (s : σ) : attempts p draw request sleep left attempt s =
      loop (fun s => p.wait (draw s)) request sleep left attempt s := by
  induction left generalizing attempt s with
  | zero =>
    unfold attempts loop
    rcases request s with ⟨_ | _, s'⟩ <;> rfl
  | succ left ih =>
    unfold attempts loop
    rcases request s with ⟨e | c, s'⟩
    · cases hw : p.wait (draw s') attempt e <;> simp [hw, ih]
    · rfl

def Retryable (a : Except CompletionError Completion) : Prop :=
  ∃ e, a = .error e ∧ e.isRetryable = true

inductive LastCall (maxRetries : ℕ) (r : ℕ → Except CompletionError Completion) : ℕ → Prop
  | settled {k : ℕ} (hk : k ≤ maxRetries) (hfirst : ∀ i < k, Retryable (r i))
      (hfinal : ¬ Retryable (r k)) : LastCall maxRetries r k
  | exhausted (h : ∀ i ≤ maxRetries, Retryable (r i)) : LastCall maxRetries r maxRetries

namespace LastCall

variable {maxRetries n : ℕ} {r : ℕ → Except CompletionError Completion}
  (h : LastCall maxRetries r n)

include h

theorem le : n ≤ maxRetries := by
  cases h with
  | settled hk _ _ => exact hk
  | exhausted _ => exact le_rfl

theorem retryable {i : ℕ} (hi : i < n) : Retryable (r i) := by
  cases h with
  | settled _ hfirst _ => exact hfirst i hi
  | exhausted h => exact h i hi.le

theorem eq_of_retryable (hn : Retryable (r n)) : n = maxRetries := by
  cases h with
  | settled _ _ hfinal => exact absurd hn hfinal
  | exhausted _ => rfl

theorem eq_of_final {i : ℕ} (hi : i ≤ n) (hfinal : ¬ Retryable (r i)) : i = n :=
  hi.antisymm (Nat.le_of_not_lt fun hlt => hfinal (h.retryable hlt))

theorem eq {m : ℕ} (hm : LastCall maxRetries r m) : n = m := by
  rcases Nat.lt_trichotomy n m with hlt | heq | hgt
  · have := h.eq_of_retryable (hm.retryable hlt)
    have := hm.le
    omega
  · exact heq
  · have := hm.eq_of_retryable (h.retryable hgt)
    have := h.le
    omega

end LastCall

theorem exists_lastCall (maxRetries : ℕ) (r : ℕ → Except CompletionError Completion) :
    ∃ n, LastCall maxRetries r n := by
  classical
  by_cases h : ∃ k, k ≤ maxRetries ∧ ¬ Retryable (r k)
  · obtain ⟨hk, hfinal⟩ := Nat.find_spec h
    refine ⟨Nat.find h, .settled hk (fun i hi => ?_) hfinal⟩
    by_contra hr
    exact Nat.find_min h hi ⟨hi.le.trans hk, hr⟩
  · push Not at h
    exact ⟨maxRetries, .exhausted h⟩

section Loop

variable {δ : Type} {wait : List (Deed δ) → ℕ → CompletionError → Option δ}
  {r : ℕ → Except CompletionError Completion} {prompt model : String} {maxRetries n : ℕ}

/-- Each sleep is the delay that answers the failure before it. -/
def Waited (wait : List (Deed δ) → ℕ → CompletionError → Option δ)
    (r : ℕ → Except CompletionError Completion) (prompt model : String)
    (delays : List δ) : Prop :=
  ∀ i (hi : i < delays.length), ∃ e, r i = .error e ∧
    wait (journal prompt model (delays.take i)) i e = some delays[i]

/-- The request has come to the result of its last call, or to a failure that no
delay answers. -/
def Carried (wait : List (Deed δ) → ℕ → CompletionError → Option δ)
    (r : ℕ → Except CompletionError Completion) (prompt model : String) (n : ℕ)
    (a : RetryEnd × List (Deed δ)) : Prop :=
  ∃ delays, Waited wait r prompt model delays ∧
    (delays.length = n ∧ a = (.finished (r n), journal prompt model delays) ∨
      delays.length < n ∧ (∃ e, r delays.length = .error e ∧
        wait (journal prompt model delays) delays.length e = none) ∧
        a = (.noDelay, journal prompt model delays))

theorem Waited.snoc {delays : List δ} (h : Waited wait r prompt model delays)
    {e : CompletionError} (he : r delays.length = .error e) {d : δ}
    (hd : wait (journal prompt model delays) delays.length e = some d) :
    Waited wait r prompt model (delays ++ [d]) := by
  intro i hi
  rcases Nat.lt_or_ge i delays.length with hlt | hge
  · obtain ⟨e', he', hd'⟩ := h i hlt
    refine ⟨e', he', ?_⟩
    rw [List.take_append_of_le_length hlt.le, hd', List.getElem_append_left hlt]
  · obtain rfl : i = delays.length := by
      rw [List.length_append, List.length_singleton] at hi
      omega
    refine ⟨e, he, ?_⟩
    rw [List.take_left, hd]
    simp

theorem loop_carried {delays : List δ} (h : Waited wait r prompt model delays) {left : ℕ}
    (hleft : delays.length + left = maxRetries) (hn : LastCall maxRetries r n)
    (hle : delays.length ≤ n) :
    Carried wait r prompt model n (loop wait (ask r prompt model) sleep left delays.length
      (before prompt model delays)) := by
  -- A sleep leads to the next call with one retry less; the number of calls is
  -- read off the journal, so the attempt and the result stay in step.
  induction left generalizing delays with
  | zero =>
    have hlast : delays.length = n := by
      have := hn.le
      omega
    refine ⟨delays, h, .inl ⟨hlast, ?_⟩⟩
    rw [loop, ask_before, hlast]
    rcases r n with e | c <;> rfl
  | succ left ih =>
    rw [loop, ask_before]
    cases hr : r delays.length with
    | ok c =>
      have hlast := hn.eq_of_final hle (by simp [Retryable, hr])
      exact ⟨delays, h, .inl ⟨hlast, by rw [← hlast, hr]⟩⟩
    | error e =>
      by_cases he : e.isRetryable = true
      · have hretryable : Retryable (r delays.length) := ⟨e, hr, he⟩
        have hlt : delays.length < n := by
          refine hle.lt_of_ne fun hlast => ?_
          have := hn.eq_of_retryable (hlast ▸ hretryable)
          omega
        simp only [he, if_true]
        cases hd : wait (journal prompt model delays) delays.length e with
        | none => exact ⟨delays, h, .inr ⟨hlt, ⟨e, hr, hd⟩, rfl⟩⟩
        | some d =>
          have hlength : (delays ++ [d]).length = delays.length + 1 := List.length_append
          have hnext := ih (h.snoc hr hd) (by omega) (by omega)
          simpa [sleep_journal] using hnext
      · have hlast := hn.eq_of_final hle (by simp [Retryable, hr, he])
        simp only [he]
        exact ⟨delays, h, .inl ⟨hlast, by rw [← hlast, hr]; rfl⟩⟩

theorem loop_start (hn : LastCall maxRetries r n) : Carried wait r prompt model n
    (loop wait (ask r prompt model) sleep maxRetries 0 []) := by
  have hnone : Waited wait r prompt model [] := nofun
  exact loop_carried hnone (Nat.zero_add maxRetries) hn (Nat.zero_le n)

end Loop

def due (p : RetryPolicy) (own : Option Duration) : CompletionError → Option Duration
  | .rateLimit (some asked) => some ⟨min asked.nanos p.max.nanos⟩
  | _ => own

theorem wait_eq_due (p : RetryPolicy) (draw : Float) (attempt : ℕ) (e : CompletionError) :
    p.wait draw attempt e = due p (p.delay draw attempt) e := by
  unfold RetryPolicy.wait due
  rcases e with _ | (_ | asked) | _ | _ | _ | _ | _
  case rateLimit.some =>
    exact congrArg (fun nanos => some (Duration.mk nanos)) (Duration.min_nanos asked p.max)
  all_goals rfl

def exactWait {K : Type} [Field K] [LinearOrder K] (p : RetryPolicy) (factor : K)
    (draw : List (Deed K) → K) (done : List (Deed K)) (attempt : ℕ) (e : CompletionError) :
    Option K :=
  some ((Arithmetic.exact K).wait p factor (draw done) attempt e)

def runExact {K : Type} [Field K] [LinearOrder K] (p : RetryPolicy) (factor : K)
    (draw : List (Deed K) → K) (request : List (Deed K) → Except CompletionError Completion ×
      List (Deed K)) : RetryEnd × List (Deed K) :=
  loop (exactWait p factor draw) request sleep p.maxRetries 0 []

def Unasked (a : Except CompletionError Completion) : Prop :=
  ∀ e, a = .error e → e.retryAfter = none

/-- The delays keep to the limit and, without jitter, grow where the server asks
for none. -/
structure Gradual {K : Type} [Field K] [LinearOrder K] (p : RetryPolicy)
    (r : ℕ → Except CompletionError Completion) (delays : List K) : Prop where
  limit : ∀ d ∈ delays, d ≤ Arithmetic.limit K p
  grow : p.jitter = false → ∀ i j (hij : i ≤ j) (hj : j < delays.length),
    Unasked (r i) → Unasked (r j) → delays[i] ≤ delays[j]

section Policy

variable {K : Type} [Field K] [LinearOrder K]

theorem gradual_of_waited [IsStrictOrderedRing K] {p : RetryPolicy} {factor : K}
    (hf : 1 ≤ factor) {draw : List (Deed K) → K} (hdraw : ∀ s, draw s ≤ 1)
    (hmax : p.maxRetries < 2 ^ 31) {r : ℕ → Except CompletionError Completion}
    {prompt model : String} {delays : List K} (hlength : delays.length ≤ p.maxRetries)
    (h : Waited (exactWait p factor draw) r prompt model delays) : Gradual p r delays where
  limit := by
    intro d hd
    obtain ⟨i, hi, rfl⟩ := List.getElem_of_mem hd
    obtain ⟨e, -, hwait⟩ := h i hi
    rw [← Option.some.inj hwait]
    exact Arithmetic.wait_le_limit p hf (hdraw _) (by omega) e
  grow := by
    intro hjitter i j hij hj hi' hj'
    obtain ⟨e, he, hwait⟩ := h i (hij.trans_lt hj)
    obtain ⟨e', he', hwait'⟩ := h j hj
    rw [← Option.some.inj hwait, ← Option.some.inj hwait']
    exact Arithmetic.wait_mono p hf hjitter _ _ hij (by omega) (hi' e he) (hj' e' he')

/-- A request makes the calls that are due, all with the same prompt and the same
model, with one sleep between two of them, and ends with the result of the last;
only a delay that no duration expresses ends it before, right behind the call
that failed. Where the delays are worked out in exact arithmetic and not in that
of floats, nothing ends it before, and the delays keep to the limit and grow. -/
theorem run_retries [IsStrictOrderedRing K] (p : RetryPolicy)
    (r : ℕ → Except CompletionError Completion) (draw : List (Deed Duration) → Float)
    (prompt model : String) (factor : K) (drawExact : List (Deed K) → K) :
    ∃ n, LastCall p.maxRetries r n ∧
      Carried (fun s i => due p (p.delay (draw s) i)) r prompt model n
        (run p draw (ask r prompt model) sleep []) ∧
      (∀ x i, p.delay x i = Duration.ofFloat? (Arithmetic.floats.delay p p.factor x i)) ∧
      ∃ delays : List K, delays.length = n ∧
        runExact p factor drawExact (ask r prompt model) =
          (.finished (r n), journal prompt model delays) ∧
        (1 ≤ factor → (∀ s, drawExact s ≤ 1) → p.maxRetries < 2 ^ 31 →
          Gradual p r delays) := by
  obtain ⟨n, hn⟩ := exists_lastCall p.maxRetries r
  refine ⟨n, hn, ?_, Arithmetic.delay_floats p, ?_⟩
  · have hwait : (fun s => p.wait (draw s)) = fun s i => due p (p.delay (draw s) i) := by
      funext s i e
      exact wait_eq_due p (draw s) i e
    rw [run, attempts_eq_loop, hwait]
    exact loop_start hn
  · obtain ⟨delays, hwaited, ⟨hlength, hend⟩ | ⟨-, ⟨e, -, hnone⟩, -⟩⟩ : Carried
        (exactWait p factor drawExact) r prompt model n
        (runExact p factor drawExact (ask r prompt model)) := loop_start hn
    · exact ⟨delays, hlength, hend, fun hf hdraw hmax =>
        gradual_of_waited hf hdraw hmax (hlength ▸ hn.le) hwaited⟩
    · cases hnone

end Policy

def recovering (failures i : ℕ) : Except CompletionError Completion :=
  if i < failures then .error (.network "reset") else .ok ⟨"ok", "m"⟩

theorem recovering_lastCall {failures maxRetries : ℕ} (h : failures ≤ maxRetries) :
    LastCall maxRetries (recovering failures) failures := by
  refine .settled h (fun i hi => ⟨.network "reset", if_pos hi, rfl⟩) ?_
  simp [Retryable, recovering]

theorem recovering_retries : ∃ delays : List ℚ, delays.length = 2 ∧
    runExact {} 2 (fun _ => 1 / 2) (ask (recovering 2) "p" "m") =
      (.finished (.ok ⟨"ok", "m"⟩), journal "p" "m" delays) ∧
    ∀ d ∈ delays, d ≤ Arithmetic.limit ℚ {} := by
  obtain ⟨n, hn, -, -, delays, hlength, hend, hgradual⟩ :=
    run_retries {} (recovering 2) (fun _ => 0.5) "p" "m" (2 : ℚ) fun _ => 1 / 2
  obtain rfl := hn.eq (recovering_lastCall (by decide))
  exact ⟨delays, hlength, hend,
    (hgradual (by norm_num) (fun _ => by norm_num) (by decide)).limit⟩

def swinging : RetryPolicy := { maxRetries := 2, factor := -2, jitter := false }

theorem swinging_gives_up : LastCall swinging.maxRetries (recovering 2) 2 ∧
    run swinging (fun _ => 0) (ask (recovering 2) "p" "m") sleep [] =
      (.noDelay, journal "p" "m" [.ofSeconds 1]) ∧
    ∀ delays, run swinging (fun _ => 0) (ask (recovering 2) "p" "m") sleep [] ≠
      (.finished (recovering 2 2), journal "p" "m" delays) := by
  have hfirst : swinging.delay 0 0 = some (.ofSeconds 1) := by decide +kernel
  have hsecond : swinging.delay 0 1 = none := by decide +kernel
  have hwait : ∀ i, swinging.wait 0 i (.network "reset") = swinging.delay 0 i := fun _ => rfl
  have hend : run swinging (fun _ => 0) (ask (recovering 2) "p" "m") sleep [] =
      (.noDelay, journal "p" "m" [.ofSeconds 1]) := by
    have hask : ∀ delays : List Duration, delays.length < 2 →
        ask (recovering 2) "p" "m" (before "p" "m" delays) =
          (.error (.network "reset"), journal "p" "m" delays) := by
      intro delays hlength
      rw [ask_before, recovering, if_pos hlength]
    change attempts swinging _ _ _ 2 0 (before "p" "m" []) = _
    rw [attempts, hask [] (by decide)]
    simp only [CompletionError.isRetryable, if_true, hwait, hfirst, sleep_journal]
    rw [attempts, hask _ (by decide)]
    simp only [CompletionError.isRetryable, if_true, hwait, hsecond, List.nil_append]
  exact ⟨recovering_lastCall le_rfl, hend, by simp [hend]⟩

end Cardwalk.Retry
