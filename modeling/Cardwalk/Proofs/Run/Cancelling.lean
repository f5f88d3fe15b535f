import Mathlib.Data.Nat.Find
import Cardwalk.Proofs.Run.Calls
import Cardwalk.Proofs.Run.Loops
import Cardwalk.Proofs.Run.Seen
import Cardwalk.Proofs.Run.Token

/-!
# Cancelled runs

A cancelled run is compared with the run in which the token is never set. Up
to the check that finds the token set the two stand side by side, each turn
leading both to the same card; there the cancelled run ends, and the other
goes on.
-/

set_option autoImplicit false

namespace Cardwalk

variable {ω σ : Type}

namespace Progress

/-- The cards that were carried out, with their outputs. -/
def deeds (p : Progress σ) : List (String × CardKind × Envelope) :=
  p.book.steps.map fun s => (s.card, s.kind, s.output)

end Progress

namespace Runner

section Turns

variable {r : Runner σ} {g : Graph} {c : Card} {p : Progress σ}

theorem settle_deeds (c : Card) (t : Turn) (p : Progress σ) :
    (settle c t p).deeds = p.deeds := by
  rcases t with (e | e) | ⟨d, given⟩
  · cases e <;> rfl
  · rfl
  · rfl

theorem failedAt_deeds (index : Nat) (c : Card) (cause : ExecutionError) (world : σ)
    (p : Progress σ) : (failedAt index c cause world p).deeds = p.deeds := rfl

theorem visited_deeds (r : Runner σ) (index : Nat) (v : Visit σ) (p : Progress σ) :
    (r.visited index v p).deeds = p.deeds ++ [(v.card.id, v.card.kind, v.output)] := by
  simp [Progress.deeds, visited, RunState.markSuccess, RunState.markRunning, stepOf]

theorem conclude_deeds (r : Runner σ) (began : Nat) (result : Except RunError Envelope)
    (p : Progress σ) : (r.conclude began result p).deeds = p.deeds := by
  rw [Progress.deeds, conclude_steps, Progress.deeds]

theorem turn_deeds (r : Runner σ) (g : Graph) (index : Nat) (c : Card)
    (previous : Option Envelope) (p : Progress σ) :
    p.deeds <+: (r.turn g index c previous p).2.deeds := by
  cases hc : r.isCancelled p.world with
  | true => simp [turn_cancelled hc]
  | false =>
    rw [turn_executed hc]
    rcases r.execute c previous (r.pause p.world) with ⟨cause | output, s'⟩
    · simp [failedAt_deeds]
    · simp [settle_deeds, visited_deeds]

theorem standing_deeds (r : Runner σ) (g : Graph) (world : σ) {m n : Nat} (hmn : m ≤ n) :
    (r.standing g world m).progress.deeds <+: (r.standing g world n).progress.deeds :=
  standing_grows (· <+: ·) Progress.deeds r g world (turn_deeds r g) hmn

end Turns

/-- A record kept in the world outside, to which cards only add. -/
structure Keeps (r : Runner σ) {τ : Type} (log : σ → List τ) : Prop where
  pause : ∀ s, log s <+: log (r.pause s)
  execute : ∀ c previous s, log s <+: log (r.execute c previous s).2

theorem Keeps.standing {r : Runner σ} {τ : Type} {log : σ → List τ} (h : r.Keeps log)
    (g : Graph) (world : σ) {m n : Nat} (hmn : m ≤ n) :
    log (r.standing g world m).progress.world <+: log (r.standing g world n).progress.world := by
  refine standing_grows (· <+: ·) (fun p => log p.world) r g world ?_ hmn
  intro index c previous p
  rw [turn_world]
  split
  · exact List.prefix_refl _
  · exact (h.pause p.world).trans (h.execute c previous _)

/-- `b` is the runner `r` without its token: it has whatever `see` keeps of
the world, what cards do is told by that alone, and it is never cancelled. -/
structure Uncancelled (see : ω → σ) (r : Runner ω) (b : Runner σ) : Prop where
  pause : ∀ w, see (r.pause w) = b.pause (see w)
  execute : ∀ c previous w,
    Prod.map id see (r.execute c previous w) = b.execute c previous (see w)
  never : ∀ s, b.isCancelled s = false

end Runner

/-- Two runs that have come equally far: the same cards with the same outputs
lie behind them and the same card, or the same result, ahead. -/
inductive Abreast (see : ω → σ) : Standing ω → Standing σ → Prop
  | ahead {index : Nat} {c : Card} {previous : Option Envelope} {p : Progress ω}
      {q : Progress σ} (world : see p.world = q.world) (deeds : p.deeds = q.deeds) :
      Abreast see (.ahead index c previous p) (.ahead index c previous q)
  | ended {result : Except RunError Envelope} {p : Progress ω} {q : Progress σ}
      (world : see p.world = q.world) (deeds : p.deeds = q.deeds) :
      Abreast see (.ended result p) (.ended result q)

namespace Runner

section Abreast

variable {see : ω → σ} {r : Runner ω} {b : Runner σ} {g : Graph} {world : ω}

theorem outset_abreast (see : ω → σ) (g : Graph) (world : ω) :
    Abreast see (outset g world) (outset g (see world)) := by
  cases hs : g.start? with
  | none =>
    rw [outset_none hs, outset_none hs]
    exact .ended rfl rfl
  | some start =>
    rw [outset_start hs, outset_start hs]
    exact .ahead rfl rfl

theorem abreast_further (hu : Uncancelled see r b) {s : Standing ω} {t : Standing σ}
    (h : Abreast see s t) (hc : ¬ r.Caught s) :
    Abreast see (r.further g s) (b.further g t) := by
  cases h with
  | ended hw hd => exact .ended hw hd
  | @ahead index c previous p q hw hd =>
    have hr : r.isCancelled p.world = false := by simpa [Caught] using hc
    have hb := hu.never q.world
    have he := hu.execute c previous (r.pause p.world)
    rw [hu.pause, hw] at he
    rcases hx : r.execute c previous (r.pause p.world) with ⟨cause | output, s'⟩
    · rw [hx] at he
      rw [further_failed hr hx, further_failed hb he.symm]
      exact .ended rfl hd
    · rw [hx] at he
      rw [further_visited hr hx, further_visited hb he.symm]
      cases follow g c output with
      | halt result =>
        refine .ended ?_ ?_
        · simp [settle_world, visited]
        · simp [settle_deeds, visited_deeds, hd]
      | next d given => exact .ahead rfl (by simp [visited_deeds, hd])

theorem standing_abreast (hu : Uncancelled see r b) {n : Nat}
    (h : ∀ m < n, ¬ r.Caught (r.standing g world m)) :
    Abreast see (r.standing g world n) (b.standing g (see world) n) := by
  induction n with
  | zero => exact outset_abreast see g world
  | succ n ih =>
    rw [standing_succ, standing_succ]
    exact abreast_further hu (ih fun m hm => h m (by omega)) (h n (by omega))

/-- A run that has ended was abreast of the uncancelled one to its end, or to
the check that found the token set. -/
theorem ended_cases (hu : Uncancelled see r b) {turns : Nat}
    {result : Except RunError Envelope} {p : Progress ω}
    (h : r.standing g world turns = .ended result p) :
    (∃ q, b.standing g (see world) turns = .ended result q ∧ see p.world = q.world ∧
      p.deeds = q.deeds) ∨
    ∃ k index c previous q, k < turns ∧ r.standing g world k = .ahead index c previous p ∧
      b.standing g (see world) k = .ahead index c previous q ∧ see p.world = q.world ∧
      p.deeds = q.deeds ∧ r.isCancelled p.world = true ∧
      result = .error (.cancelled c.id) := by
  classical
  by_cases hk : ∃ k, r.Caught (r.standing g world k)
  · -- The first check that finds the token set.
    obtain ⟨index, c, previous, p', hst, hset, hnext⟩ := further_caught (Nat.find_spec hk)
    rw [← standing_succ] at hnext
    obtain ⟨rfl, rfl⟩ := ended_unique h hnext
    have hside := standing_abreast hu (fun m hm => Nat.find_min hk hm)
    rw [hst] at hside
    cases hq : b.standing g (see world) (Nat.find hk) with
    | ended result' q =>
      rw [hq] at hside
      cases hside
    | ahead index' c' previous' q =>
      rw [hq] at hside
      cases hside with
      | ahead hw hd =>
        refine .inr ⟨Nat.find hk, index, c, previous, q, ?_, hst, hq, hw, hd, hset, rfl⟩
        by_contra hle
        obtain ⟨more, hmore⟩ := Nat.exists_eq_add_of_le (Nat.not_lt.mp hle)
        rw [hmore, standing_ended h] at hst
        cases hst
  · have hside : Abreast see (r.standing g world turns) (b.standing g (see world) turns) :=
      standing_abreast hu fun m _ hm => hk ⟨m, hm⟩
    rw [h] at hside
    cases hq : b.standing g (see world) turns with
    | ended result' q =>
      rw [hq] at hside
      cases hside with
      | ended hw hd => exact .inl ⟨q, rfl, hw, hd⟩
    | ahead index c previous q =>
      rw [hq] at hside
      cases hside

theorem abreast_behind (hu : Uncancelled see r b) {n index : Nat} {c : Card}
    {previous : Option Envelope} {p : Progress ω}
    (h : r.standing g world n = .ahead index c previous p)
    (hc : r.isCancelled p.world = false) :
    Abreast see (r.standing g world (n + 1)) (b.standing g (see world) (n + 1)) := by
  refine standing_abreast hu fun m hm hcaught => ?_
  have hstays := cancelled_stays r g world (Nat.le_of_lt_succ hm) hcaught.isCancelled
  rw [h] at hstays
  exact Bool.false_ne_true (hc.symm.trans hstays)

end Abreast

section Builtin

variable {see : ω → σ} {r : Runner ω} {b : Runner σ}

theorem builtin_uncancelled (hr : r.registry = .builtin) (hb : b.registry = .builtin)
    (hc : r.context.Seen see b.context) (hp : ∀ w, see (r.pause w) = b.pause (see w))
    (hn : ∀ s, b.isCancelled s = false) : Uncancelled see r b where
  pause := hp
  execute c previous w := by
    simp only [execute, hr, hb, Registry.builtin]
    exact builtin_sees hc c.kind c previous w
  never := hn

theorem builtin_sticky (hr : r.registry = .builtin)
    (hc : r.context.Preserve fun w => r.isCancelled w = true)
    (hp : ∀ w, r.isCancelled w = true → r.isCancelled (r.pause w) = true) : r.Sticky where
  pause := hp
  execute c previous w hw := by
    simp only [execute, hr, Registry.builtin]
    exact builtin_preserves hc c.kind c previous hw

theorem builtin_keeps {τ : Type} {log : σ → List τ} (hb : b.registry = .builtin)
    (hc : ∀ s, b.context.Preserve fun s' => log s <+: log s')
    (hp : ∀ s, log s <+: log (b.pause s)) : b.Keeps log where
  pause := hp
  execute c previous s := by
    simp only [execute, hb, Registry.builtin]
    exact builtin_preserves (hc s) c.kind c previous (List.prefix_refl _)

end Builtin

theorem logged_preserve (ctx : Context σ) (before : List Call) :
    ctx.logged.Preserve fun s => before <+: s.2 where
  complete _ _ _ h := h.trans (List.prefix_append _ _)
  retrieve _ _ _ h := h.trans (List.prefix_append _ _)
  callTool _ _ _ h := h.trans (List.prefix_append _ _)

/-- The outcome `o` of a run that the token may have cut short, against the
run that `b` makes without a token. -/
structure CutShort (see : ω → σ) (r : Runner ω) (b : Runner σ) (g : Graph) (world : ω)
    (turns : Nat) (o : Outcome ω) : Prop where
  /-- The cards and their outputs. -/
  executed : ∀ n, turns ≤ n →
    o.progress.deeds <+: (b.standing g (see world) n).progress.deeds
  /-- The calls of the services, or any other record. -/
  calls : ∀ {τ : Type} (log : σ → List τ), b.Keeps log → ∀ n, turns ≤ n →
    log (see o.progress.world) <+: log (b.standing g (see world) n).progress.world
  unstarted : ∀ q, Passes r g world q → r.isCancelled q.world = true →
    started o.progress.events = started q.events
  result :
    (∃ o', b.run g turns (see world) = some o' ∧ o'.result = o.result ∧
      o'.progress.deeds = o.progress.deeds) ∨
    ∃ index c previous q,
      b.standing g (see world) o.progress.book.steps.length = .ahead index c previous q ∧
      q.deeds = o.progress.deeds ∧ o.result = .error (.cancelled c.id) ∧
      r.isCancelled o.progress.world = true
  /-- Once the check before the last card has passed, the result is that of
  the uncancelled run. -/
  late : ∀ n index c previous p result q,
    r.standing g world n = .ahead index c previous p → r.isCancelled p.world = false →
    b.standing g (see world) (n + 1) = .ended result q → o.result = result

section CutShort

variable {see : ω → σ} {r : Runner ω} {b : Runner σ} {g : Graph} {world : ω} {turns : Nat}

theorem run_ends_if_uncancelled (hu : Uncancelled see r b) {o' : Outcome σ}
    (h : b.run g turns (see world) = some o') : ∃ o, r.run g turns world = some o := by
  obtain ⟨q, hq, -⟩ := run_eq_some.mp h
  cases ho : r.run g turns world with
  | some o => exact ⟨o, rfl⟩
  | none =>
    obtain ⟨index, c, previous, p, hst⟩ := run_eq_none.mp ho
    have hside : Abreast see (r.standing g world turns) (b.standing g (see world) turns) := by
      refine standing_abreast hu fun m hm hcaught => ?_
      obtain ⟨index', c', previous', p', hm', -, hend⟩ := further_caught (g := g) hcaught
      rw [← standing_succ] at hend
      obtain ⟨more, rfl⟩ := Nat.exists_eq_add_of_lt hm
      have hstay := standing_ended hend more
      rw [show m + 1 + more = m + more + 1 by omega, hst] at hstay
      cases hstay
    rw [hst, hq] at hside
    cases hside

theorem outcome_cut_short (hu : Uncancelled see r b) (hs : r.Sticky) {o : Outcome ω}
    (h : r.run g turns world = some o) : CutShort see r b g world turns o := by
  obtain ⟨p, hp, ho⟩ := run_eq_some.mp h
  have hworld : o.progress.world = p.world := by rw [ho, conclude_world]
  have hdeeds : o.progress.deeds = p.deeds := by rw [ho, conclude_deeds]
  have hsteps : o.progress.book.steps = p.book.steps := by rw [ho, conclude_steps]
  -- Some turn of the uncancelled run stands where this run ended.
  have hcommon : ∃ k, k ≤ turns ∧ see p.world = (b.standing g (see world) k).progress.world ∧
      p.deeds = (b.standing g (see world) k).progress.deeds := by
    obtain ⟨q, hq, hw, hd⟩ | ⟨k, index, c, previous, q, hk, -, hq, hw, hd, -⟩ :=
      ended_cases hu hp
    · exact ⟨turns, Nat.le_refl _, by rw [hq]; exact hw, by rw [hq]; exact hd⟩
    · exact ⟨k, hk.le, by rw [hq]; exact hw, by rw [hq]; exact hd⟩
  obtain ⟨k, hk, hw, hd⟩ := hcommon
  refine ⟨?_, ?_, fun q => unstarted hs h, ?_, ?_⟩
  · intro n hn
    rw [hdeeds, hd]
    exact standing_deeds b g (see world) (hk.trans hn)
  · intro τ log hlog n hn
    rw [hworld, hw]
    exact hlog.standing g (see world) (hk.trans hn)
  · obtain ⟨q, hq, -, hd⟩ | ⟨k, index, c, previous, q, -, hst, hq, -, hd, hset, hres⟩ :=
      ended_cases hu hp
    · refine .inl ⟨⟨o.result, b.conclude (b.clock (see world)) o.result q⟩,
        run_eq_some.mpr ⟨q, hq, rfl⟩, rfl, ?_⟩
      rw [conclude_deeds, hdeeds, hd]
    · refine .inr ⟨index, c, previous, q, ?_, ?_, hres, ?_⟩
      · rw [hsteps, (standing_ahead hst).2.2, hq]
      · rw [hdeeds, hd]
      · rwa [hworld]
  · intro n index c previous p' result q hst hc hq
    have hside := abreast_behind hu hst hc
    rw [hq] at hside
    cases hn : r.standing g world (n + 1) with
    | ahead index' c' previous' p'' =>
      rw [hn] at hside
      cases hside
    | ended result' p'' =>
      rw [hn] at hside
      cases hside
      exact (ended_unique hp hn).1

end CutShort

/-- Cancelling only cuts a run short. It ends if the uncancelled run does and
once the token is set, and what it leaves is a beginning of what the uncancelled
run does. -/
theorem cancelling_cuts_short {see : ω → σ} {r : Runner ω} {b : Runner σ}
    (hu : Uncancelled see r b) (hs : r.Sticky) (g : Graph) (world : ω) :
    (∀ turns o', b.run g turns (see world) = some o' → ∃ o, r.run g turns world = some o) ∧
    (∀ n, r.isCancelled (r.standing g world n).progress.world = true →
      ∃ o, r.run g (n + 1) world = some o) ∧
    ∀ turns o, r.run g turns world = some o → CutShort see r b g world turns o :=
  ⟨fun _ _ => run_ends_if_uncancelled hu, fun _ => run_ends_if_set,
    fun _ _ => outcome_cut_short hu hs⟩

def asking : Graph where
  cards := [.new "s" .start, .new "m" .llmCall, .new "e" .finish]
  connections := [.new "ask" "s" "m", .new "answer" "m" "e"]

def answering : Context Unit where
  complete _ model s := (.ok ⟨"fine", model⟩, s)
  retrieve _ _ s := (.error .uninitialized, s)
  callTool name _ s := (.error ⟨name, ""⟩, s)

def calm : Runner (Unit × List Call) where
  context := answering.logged

def ringing : Runner ((Unit × List Call) × Bool) where
  context :=
    { complete := fun prompt model w =>
        ((calm.context.complete prompt model w.1).1,
          (calm.context.complete prompt model w.1).2, true)
      retrieve := fun query count w =>
        ((calm.context.retrieve query count w.1).1,
          (calm.context.retrieve query count w.1).2, w.2)
      callTool := fun name args w =>
        ((calm.context.callTool name args w.1).1,
          (calm.context.callTool name args w.1).2, w.2)
      clauses := calm.context.clauses }
  isCancelled := Prod.snd

theorem ringing_seen : ringing.context.Seen Prod.fst calm.context where
  complete _ _ _ := rfl
  retrieve _ _ _ := rfl
  callTool _ _ _ := rfl
  clauses := by simp only [ringing]
  model := rfl

theorem ringing_uncancelled : Uncancelled Prod.fst ringing calm :=
  builtin_uncancelled rfl rfl ringing_seen (fun _ => rfl) fun _ => rfl

theorem ringing_sticky : ringing.Sticky :=
  builtin_sticky rfl ⟨fun _ _ _ _ => rfl, fun _ _ _ h => h, fun _ _ _ h => h⟩ fun _ h => h

theorem calm_keeps : calm.Keeps Prod.snd :=
  builtin_keeps rfl (fun s => logged_preserve answering s.2) fun _ => List.prefix_refl _

theorem ringing_cut_short :
    calm.Keeps Prod.snd ∧ ∃ o, ringing.run asking 3 (((), []), false) = some o ∧
      o.result = .error (.cancelled "e") ∧
      CutShort Prod.fst ringing calm asking (((), []), false) 3 o :=
  ⟨calm_keeps, _, rfl, rfl,
    (cancelling_cuts_short ringing_uncancelled ringing_sticky asking _).2.2 3 _ rfl⟩

end Runner

end Cardwalk
