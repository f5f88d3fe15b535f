import Mathlib.Data.List.Nodup
import Cardwalk.Proofs.Run.Standing

/-!
# The statuses of the cards

Every card has one status. A turn marks its card as running and as done again
before it ends, so that never more than one card is running.
-/

set_option autoImplicit false

namespace Cardwalk

namespace StatusMap

def keys (m : StatusMap) : List String := m.map (·.1)

/-- Exactly this card is running, or none is. -/
def Busy (m : StatusMap) (who : Option String) : Prop :=
  ∀ id, m.get? id = some .running ↔ who = some id

theorem get?_eq_none_iff {id : String} {m : StatusMap} : m.get? id = none ↔ id ∉ m.keys := by
  induction m with
  | nil => simp [get?, keys]
  | cons e m ih =>
    obtain ⟨k, s⟩ := e
    by_cases hk : k = id
    · simp [get?, keys, hk]
    · have hk' : ¬ id = k := Ne.symm hk
      rw [get?, if_neg hk, ih]
      simp [keys, hk']

theorem keys_set_of_mem {id : String} {m : StatusMap} (h : id ∈ m.keys) (s : CardStatus) :
    (set id s m).keys = m.keys := by
  induction m with
  | nil => simp [keys] at h
  | cons e m ih =>
    obtain ⟨k, t⟩ := e
    by_cases hk : k = id
    · simp [set, keys, hk]
    · have hm : id ∈ keys m := by
        have hk' : ¬ id = k := Ne.symm hk
        simpa [keys, hk'] using h
      have := ih hm
      simpa [set, keys, hk] using this

theorem keys_set_of_not_mem {id : String} {m : StatusMap} (h : id ∉ m.keys) (s : CardStatus) :
    (set id s m).keys = m.keys ++ [id] := by
  induction m with
  | nil => rfl
  | cons e m ih =>
    obtain ⟨k, t⟩ := e
    have hk : ¬ k = id := by
      rintro rfl
      simp [keys] at h
    have hm : id ∉ keys m := fun hm => h (List.mem_cons_of_mem _ hm)
    have := ih hm
    simpa [set, keys, hk] using this

theorem nodup_keys_set {m : StatusMap} (h : m.keys.Nodup) (id : String) (s : CardStatus) :
    (set id s m).keys.Nodup := by
  by_cases hm : id ∈ m.keys
  · rw [keys_set_of_mem hm]
    exact h
  · rw [keys_set_of_not_mem hm]
    simpa using h.concat hm

theorem busy_running {m : StatusMap} (h : m.Busy none) (id : String) :
    (set id .running m).Busy (some id) := by
  intro id'
  rw [get?_set]
  by_cases hid : id = id'
  · simp [hid]
  · simpa [hid] using h id'

theorem busy_done {m : StatusMap} {who : Option String} (h : m.Busy who) {id : String}
    (hw : who = none ∨ who = some id) {s : CardStatus} (hs : s ≠ .running) :
    (set id s m).Busy none := by
  intro id'
  rw [get?_set]
  by_cases hid : id = id'
  · simp [hid, hs]
  · have hne : who ≠ some id' := by
      rcases hw with rfl | rfl
      · simp
      · simpa using hid
    simpa [hid, hne] using h id'

end StatusMap

theorem pending_get? (cards : List Card) (m : StatusMap) (id : String) :
    (cards.foldl (fun m c => StatusMap.set c.id .pending m) m).get? id =
      if id ∈ cards.map (·.id) then some .pending else m.get? id := by
  induction cards generalizing m with
  | nil => simp
  | cons c cards ih =>
    rw [List.foldl_cons, ih, StatusMap.get?_set]
    by_cases hm : id ∈ cards.map (·.id)
    · simp only [List.map_cons, List.mem_cons, hm, or_true, if_true]
    · simp only [List.map_cons, List.mem_cons, hm, or_false, if_false, eq_comm]

theorem pending_nodup (cards : List Card) {m : StatusMap} (h : m.keys.Nodup) :
    (cards.foldl (fun m c => StatusMap.set c.id .pending m) m).keys.Nodup := by
  induction cards generalizing m with
  | nil => exact h
  | cons c cards ih => exact ih (StatusMap.nodup_keys_set h c.id .pending)

theorem ofGraph_get? (g : Graph) (id : String) :
    (RunState.ofGraph g).statuses.get? id =
      if id ∈ g.cards.map (·.id) then some .pending else none :=
  pending_get? g.cards [] id

theorem ofGraph_keys (g : Graph) (id : String) :
    id ∈ (RunState.ofGraph g).statuses.keys ↔ id ∈ g.cards.map (·.id) := by
  rw [← not_iff_not, ← StatusMap.get?_eq_none_iff, ofGraph_get?]
  by_cases h : id ∈ g.cards.map (·.id) <;> simp [h]

theorem ofGraph_busy (g : Graph) : (RunState.ofGraph g).statuses.Busy none := by
  intro id
  rw [ofGraph_get?]
  by_cases h : id ∈ g.cards.map (·.id) <;> simp [h]

variable {σ : Type}

namespace Mark

def busy (who : Option String) : Mark σ → Option String
  | .running id => some id
  | .success _ | .error _ => none
  | .tell _ | .finish _ | .outside _ => who

def Fits (who : Option String) : Mark σ → Prop
  | .running _ => who = none
  | .success step => who = none ∨ who = some step.card
  | .error id => who = none ∨ who = some id
  | .tell _ | .finish _ | .outside _ => True

def Orderly : Option String → List (Mark σ) → Prop
  | _, [] => True
  | who, m :: ms => m.Fits who ∧ Orderly (m.busy who) ms

theorem busy_write {m : Mark σ} {who : Option String} {p : Progress σ} (hm : m.Fits who)
    (hp : p.book.statuses.Busy who) : (p.write m).book.statuses.Busy (m.busy who) := by
  cases m with
  | tell | finish | outside => exact hp
  | running id =>
    obtain rfl : who = none := hm
    exact StatusMap.busy_running hp id
  | success step => exact StatusMap.busy_done hp hm (by decide)
  | error id => exact StatusMap.busy_done hp hm (by decide)

theorem busy_writes {ms : List (Mark σ)} {who : Option String} {p : Progress σ}
    (hm : Orderly who ms) (hp : p.book.statuses.Busy who) :
    (ms.foldl Progress.write p).book.statuses.Busy (ms.foldl busy who) := by
  induction ms generalizing who p with
  | nil => exact hp
  | cons m ms ih => exact ih hm.2 (busy_write hm.1 hp)

theorem orderly_beginning {before ms : List (Mark σ)} {who : Option String} (hm : Orderly who ms)
    (hb : before <+: ms) : Orderly who before := by
  obtain ⟨rest, rfl⟩ := hb
  induction before generalizing who with
  | nil => trivial
  | cons m before ih => exact ⟨hm.1, ih hm.2⟩

end Mark

namespace Runner

theorem marks_orderly (r : Runner σ) (g : Graph) (index : Nat) (c : Card)
    (previous : Option Envelope) (s : σ) :
    Mark.Orderly none (r.marks g index c previous s) ∧
      (r.marks g index c previous s).foldl Mark.busy none = none := by
  unfold marks
  cases r.isCancelled s with
  | true => exact ⟨trivial, rfl⟩
  | false =>
    rcases r.execute c previous (r.pause s) with ⟨cause | output, s'⟩
    · simp [Mark.Orderly, Mark.Fits, Mark.busy]
    · rcases strandedMarks_cases (σ := σ) c (follow g c output) with h | h <;>
        simp [h, Mark.Orderly, Mark.Fits, Mark.busy, stepOf]

theorem closingMarks_orderly (ms steps : Nat) (result : Except RunError Envelope) :
    Mark.Orderly none (closingMarks (σ := σ) ms steps result) := by
  cases result <;> simp [closingMarks, Mark.Orderly, Mark.Fits]

theorem standing_quiet (r : Runner σ) (g : Graph) (world : σ) (turns : Nat) :
    (r.standing g world turns).progress.book.statuses.Busy none := by
  induction turns with
  | zero =>
    cases hs : g.start? with
    | none =>
      rw [standing, outset_none hs]
      exact ofGraph_busy g
    | some start =>
      rw [standing, outset_start hs]
      exact ofGraph_busy g
  | succ turns ih =>
    rw [standing_succ]
    cases hst : r.standing g world turns with
    | ended result p => rwa [hst] at ih
    | ahead index c previous p =>
      rw [hst] at ih
      obtain ⟨horderly, hnone⟩ := r.marks_orderly g index c previous p.world
      rw [further_progress, turn_marks, ← hnone]
      exact Mark.busy_writes horderly ih

theorem passes_busy {r : Runner σ} {g : Graph} {world : σ} {q : Progress σ}
    (h : Passes r g world q) : ∃ who, q.book.statuses.Busy who := by
  cases h with
  | unwritten => exact ⟨none, ofGraph_busy g⟩
  | @within turns index c previous p before hs hb =>
    have hq := r.standing_quiet g world turns
    rw [hs] at hq
    have hm := (r.marks_orderly g index c previous p.world).1
    exact ⟨_, Mark.busy_writes (Mark.orderly_beginning hm hb) hq⟩
  | @closing turns result p before hs hb =>
    have hq := r.standing_quiet g world turns
    rw [hs] at hq
    exact ⟨_, Mark.busy_writes (Mark.orderly_beginning (closingMarks_orderly _ _ _) hb) hq⟩

end Runner

end Cardwalk
