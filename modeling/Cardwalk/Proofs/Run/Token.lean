import Mathlib.Data.Bool.Basic
import Mathlib.Data.List.Infix
import Mathlib.Order.Monotone.Basic
import Cardwalk.Proofs.Run.Validated

/-!
# The token of a run

The token is looked at before every card. A check that finds it set ends the
run where it stands, and a token set while a card is carried out lets that
card be the last.
-/

set_option autoImplicit false

namespace Cardwalk

variable {σ : Type}

namespace Runner

section Turns

variable {r : Runner σ} {g : Graph} {world : σ}

theorem settle_world (c : Card) (t : Turn) (p : Progress σ) :
    (settle c t p).world = p.world := by
  rcases t with (e | e) | ⟨d, given⟩
  · cases e <;> rfl
  · rfl
  · rfl

theorem turn_world (r : Runner σ) (g : Graph) (index : Nat) (c : Card)
    (previous : Option Envelope) (p : Progress σ) :
    (r.turn g index c previous p).2.world =
      if r.isCancelled p.world then p.world
      else (r.execute c previous (r.pause p.world)).2 := by
  cases hc : r.isCancelled p.world with
  | true => simp [turn_cancelled hc]
  | false =>
    rw [turn_executed hc]
    rcases r.execute c previous (r.pause p.world) with ⟨cause | output, s'⟩
    · simp [failedAt]
    · simp [settle_world, visited]

theorem standing_grows {α : Type} (R : α → α → Prop) [Std.Refl R] [IsTrans α R]
    (f : Progress σ → α) (r : Runner σ) (g : Graph) (world : σ)
    (hf : ∀ index c previous p, R (f p) (f (r.turn g index c previous p).2)) {m n : Nat}
    (hmn : m ≤ n) :
    R (f (r.standing g world m).progress) (f (r.standing g world n).progress) := by
  refine Nat.rel_of_forall_rel_succ_of_le R
    (f := fun k => f (r.standing g world k).progress) (fun k => ?_) hmn
  rw [standing_succ]
  cases r.standing g world k with
  | ahead index c previous p =>
    rw [further_progress]
    exact hf index c previous p
  | ended result p => exact refl_of R _

theorem ended_unique {m n : Nat} {result result' : Except RunError Envelope}
    {p p' : Progress σ} (hm : r.standing g world m = .ended result p)
    (hn : r.standing g world n = .ended result' p') : result = result' ∧ p = p' := by
  have hm' := standing_ended hm n
  have hn' := standing_ended hn m
  rw [Nat.add_comm, hn'] at hm'
  cases hm'
  exact ⟨rfl, rfl⟩

end Turns

/-- Nothing takes back a token that is set. -/
structure Sticky (r : Runner σ) : Prop where
  pause : ∀ s, r.isCancelled s = true → r.isCancelled (r.pause s) = true
  execute : ∀ c previous s, r.isCancelled s = true →
    r.isCancelled (r.execute c previous s).2 = true

theorem cancelled_stays (r : Runner σ) (g : Graph) (world : σ) {m n : Nat} (hmn : m ≤ n)
    (hm : r.isCancelled (r.standing g world m).progress.world = true) :
    r.isCancelled (r.standing g world n).progress.world = true := by
  refine standing_grows (· ≤ ·) (fun p => r.isCancelled p.world) r g world ?_ hmn hm
  intro index c previous p hp
  rwa [turn_world, if_pos hp]

def Caught (r : Runner σ) : Standing σ → Prop
  | .ahead _ _ _ p => r.isCancelled p.world = true
  | .ended _ _ => False

section Checks

variable {r : Runner σ} {g : Graph} {world : σ}

theorem Caught.isCancelled {s : Standing σ} (h : r.Caught s) :
    r.isCancelled s.progress.world = true := by
  cases s with
  | ahead index c previous p => exact h
  | ended result p => exact h.elim

theorem further_caught {s : Standing σ} (h : r.Caught s) :
    ∃ index c previous p, s = .ahead index c previous p ∧ r.isCancelled p.world = true ∧
      r.further g s = .ended (.error (.cancelled c.id)) p := by
  cases s with
  | ahead index c previous p => exact ⟨index, c, previous, p, rfl, h, further_cancelled h⟩
  | ended result p => exact h.elim

theorem ended_where_set {turns n : Nat} {result : Except RunError Envelope}
    {p : Progress σ} (h : r.standing g world turns = .ended result p)
    (hset : r.isCancelled (r.standing g world n).progress.world = true) :
    p = (r.standing g world n).progress := by
  cases hst : r.standing g world n with
  | ended result' q => exact (ended_unique h hst).2
  | ahead index c previous q =>
    rw [hst] at hset
    have hnext : r.standing g world (n + 1) = .ended (.error (.cancelled c.id)) q := by
      rw [standing_succ, hst]
      exact further_cancelled hset
    exact (ended_unique h hnext).2

theorem run_ends_if_set {n : Nat}
    (h : r.isCancelled (r.standing g world n).progress.world = true) :
    ∃ o, r.run g (n + 1) world = some o := by
  cases ho : r.run g (n + 1) world with
  | some o => exact ⟨o, rfl⟩
  | none =>
    obtain ⟨index, c, previous, p, hst⟩ := run_eq_none.mp ho
    rw [standing_succ] at hst
    cases hn : r.standing g world n with
    | ended result q =>
      rw [hn] at hst
      cases hst
    | ahead index' c' previous' q =>
      rw [hn] at hst h
      have hset : r.isCancelled q.world = true := h
      rw [further_cancelled hset] at hst
      cases hst

end Checks

end Runner

namespace Mark

def Late : Mark σ → Prop
  | .tell (.cardStart _ _ _ _) => False
  | .outside _ => False
  | _ => True

theorem late_writes {ms : List (Mark σ)} (h : ∀ m ∈ ms, m.Late) (p : Progress σ) :
    (ms.foldl Progress.write p).world = p.world ∧
      started (ms.foldl Progress.write p).events = started p.events := by
  induction ms generalizing p with
  | nil => exact ⟨rfl, rfl⟩
  | cons m ms ih =>
    obtain ⟨hw, hs⟩ := ih (fun m' hm' => h m' (.tail _ hm')) (p.write m)
    have hm := h m (.head _)
    rw [List.foldl_cons, hw, hs]
    cases m with
    | outside world => exact hm.elim
    | tell e =>
      refine ⟨rfl, ?_⟩
      cases e <;> first | exact hm.elim | simp [Progress.write, Progress.emit, started]
    | running | success | error | finish => exact ⟨rfl, rfl⟩

end Mark

namespace Runner

section Unstarted

variable {r : Runner σ} {g : Graph} {index : Nat} {c : Card} {previous : Option Envelope}

theorem closingMarks_late (ms steps : Nat) (result : Except RunError Envelope) :
    ∀ m ∈ closingMarks (σ := σ) ms steps result, m.Late := by
  cases result <;> simp [closingMarks, Mark.Late]

theorem marks_late (g : Graph) (index : Nat) (c : Card) (previous : Option Envelope) {s : σ}
    (hc : r.isCancelled s = false) :
    ∃ late, (∀ m ∈ late, Mark.Late m) ∧ r.marks g index c previous s =
      .tell (startEvent c index) :: .running c.id :: .outside (r.pause s) ::
        .outside (r.execute c previous (r.pause s)).2 :: late := by
  rw [marks, if_neg (by simp [hc])]
  rcases r.execute c previous (r.pause s) with ⟨cause | output, s'⟩
  · exact ⟨_, by simp [Mark.Late], rfl⟩
  · refine ⟨_, ?_, rfl⟩
    rcases strandedMarks_cases (σ := σ) c (follow g c output) with h | h <;>
      simp [h, Mark.Late]

theorem late_turn {late : List (Mark σ)} (hlate : ∀ m ∈ late, m.Late) (index : Nat) (c : Card)
    (w w' : σ) (p : Progress σ) :
    ((.tell (startEvent c index) :: .running c.id :: .outside w :: .outside w' :: late).foldl
        Progress.write p).world = w' ∧
      started ((.tell (startEvent c index) :: .running c.id :: .outside w :: .outside w' ::
        late).foldl Progress.write p).events = started p.events ++ [told c] := by
  simp only [List.foldl_cons]
  obtain ⟨hw, hs⟩ := Mark.late_writes hlate ((((p.write (.tell (startEvent c index))).write
    (.running c.id)).write (.outside w)).write (.outside w'))
  refine ⟨hw, hs.trans ?_⟩
  simp [Progress.write, Progress.emit, started, startEvent, told]

theorem turn_started {p : Progress σ} (hc : r.isCancelled p.world = false) :
    started (r.turn g index c previous p).2.events = started p.events ++ [told c] := by
  obtain ⟨late, hlate, hmarks⟩ := marks_late g index c previous hc
  rw [turn_marks, hmarks]
  exact (late_turn hlate index c _ _ p).2

/-- A beginning of the marks of a turn leaves the world as it was, or its card
has begun and the world is that behind the pause or that behind the executor. -/
theorem marks_reach {p : Progress σ} {before : List (Mark σ)}
    (hc : r.isCancelled p.world = false)
    (hb : before <+: r.marks g index c previous p.world) :
    (before.foldl Progress.write p).world = p.world ∨
      started (before.foldl Progress.write p).events = started p.events ++ [told c] ∧
        ((before.foldl Progress.write p).world = r.pause p.world ∨
          (before.foldl Progress.write p).world =
            (r.execute c previous (r.pause p.world)).2) := by
  obtain ⟨late, hlate, hmarks⟩ := marks_late g index c previous hc
  rw [hmarks] at hb
  simp only [List.prefix_cons_iff] at hb
  obtain rfl | ⟨_, rfl, rfl | ⟨_, rfl, rfl | ⟨_, rfl, rfl | ⟨more, rfl, hmore⟩⟩⟩⟩ := hb
  · exact .inl rfl
  · exact .inl rfl
  · exact .inl rfl
  · exact .inr ⟨by simp [Progress.write, Progress.emit, started, startEvent, told], .inl rfl⟩
  · obtain ⟨hw, hs⟩ := late_turn (fun m hm => hlate m (hmore.subset hm)) index c
      (r.pause p.world) (r.execute c previous (r.pause p.world)).2 p
    exact .inr ⟨hs, .inr hw⟩

/-- No card begins once the token is set, wherever in a run that is. -/
theorem unstarted (hs : r.Sticky) {world : σ} {turns : Nat} {o : Outcome σ}
    (h : r.run g turns world = some o) {q : Progress σ} (hq : Passes r g world q)
    (hset : r.isCancelled q.world = true) :
    started o.progress.events = started q.events := by
  obtain ⟨p, hp, ho⟩ := run_eq_some.mp h
  rw [ho, conclude_started]
  cases hq with
  | unwritten =>
    have hzero : (r.standing g world 0).progress.world = world := by
      cases hg : g.start? <;> simp [standing, outset, hg] <;> rfl
    rw [ended_where_set (n := 0) hp (by rwa [hzero])]
    cases hg : g.start? <;> simp [standing, outset, hg] <;> rfl
  | @within n index c previous p' before hst hb =>
    cases hc : r.isCancelled p'.world with
    | true =>
      have hnil : before = [] := by simpa [marks, hc] using hb
      rw [hnil, ended_where_set (n := n) hp (by rwa [hst]), hst]
      rfl
    | false =>
      obtain hw | ⟨hstart, hw⟩ := marks_reach hc hb
      · rw [hw, hc] at hset
        cases hset
      · have hprogress : (r.standing g world (n + 1)).progress =
            (r.turn g index c previous p').2 := by
          rw [standing_succ, hst, further_progress]
        have hbehind : r.isCancelled (r.standing g world (n + 1)).progress.world = true := by
          rw [hprogress, turn_world, hc]
          obtain hw | hw := hw
          · exact hs.execute c previous _ (hw ▸ hset)
          · exact hw ▸ hset
        rw [ended_where_set hp hbehind, hprogress, turn_started hc, hstart]
  | closing hst hb =>
    obtain ⟨-, rfl⟩ := ended_unique hp hst
    exact (Mark.late_writes (fun m hm => closingMarks_late _ _ _ m (hb.subset hm)) p).2.symm

end Unstarted

end Runner

end Cardwalk
