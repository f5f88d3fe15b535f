import Cardwalk.Run.Executor

/-!
# What cards can see

The executors act on the world only through their services. So a card does
the same in two worlds that its services cannot tell apart, and it keeps
whatever each of its services keeps.
-/

set_option autoImplicit false

namespace Cardwalk

variable {ω σ : Type}

/-- An action that sees no more of its world than `see` keeps, where it acts
like `b`. -/
def Sees {α : Type} (see : ω → σ) (a : ω → α × ω) (b : σ → α × σ) : Prop :=
  ∀ w, Prod.map id see (a w) = b (see w)

theorem Sees.eq {α : Type} {see : ω → σ} {a : ω → α × ω} {b : σ → α × σ} (h : Sees see a b)
    {w w' : ω} {x : α} (ha : a w = (x, w')) : b (see w) = (x, see w') := by
  rw [← h w, ha]
  rfl

structure Context.Seen (see : ω → σ) (c : Context ω) (d : Context σ) : Prop where
  complete : ∀ prompt model, Sees see (c.complete prompt model) (d.complete prompt model)
  retrieve : ∀ query count, Sees see (c.retrieve query count) (d.retrieve query count)
  callTool : ∀ name args, Sees see (c.callTool name args) (d.callTool name args)
  clauses : c.clauses = d.clauses
  model : c.model = d.model

section Seen

variable {see : ω → σ} {c : Context ω} {d : Context σ}

theorem answerCall_sees (h : c.Seen see d) (tools : List String) (call : ToolCall) :
    Sees see (Agent.answerCall c tools call) (Agent.answerCall d tools call) := by
  intro w
  unfold Agent.answerCall
  rw [h.clauses]
  split
  · rcases hc : c.callTool call.name call.args w with ⟨e | result, w'⟩
    · rw [(h.callTool call.name call.args).eq hc]
      rfl
    · rw [(h.callTool call.name call.args).eq hc]
      dsimp only
      split <;> rfl
  · split <;> rfl

theorem turns_sees (h : c.Seen see d) (tools : List String) (suffix : String)
    (left done : Nat) (prompt : String) (steps : List Envelope) (last : String) :
    Sees see (Agent.turns c tools suffix left done prompt steps last)
      (Agent.turns d tools suffix left done prompt steps last) := by
  induction left generalizing done prompt steps last with
  | zero => exact fun w => rfl
  | succ left ih =>
    intro w
    unfold Agent.turns
    rcases ha : c.complete (prompt ++ suffix) Agent.model w with ⟨e | answer, w'⟩
    · rw [(h.complete _ _).eq ha]
      rfl
    · rw [(h.complete _ _).eq ha]
      dsimp only
      split
      · rfl
      · rename_i call hcall
        rcases hr : Agent.answerCall c tools call w' with ⟨e | ⟨clause, step⟩, w''⟩
        · rw [(answerCall_sees h tools call).eq hr]
          rfl
        · rw [(answerCall_sees h tools call).eq hr]
          exact ih _ _ _ _ w''

theorem agent_sees (h : c.Seen see d) (card : Card) (previous : Option Envelope) :
    Sees see (Agent.run card previous c) (Agent.run card previous d) := by
  intro w
  have hs : Agent.suffix c (Agent.tools card) = Agent.suffix d (Agent.tools card) := by
    unfold Agent.suffix
    rw [h.clauses]
  unfold Agent.run
  rw [hs]
  split
  · rfl
  · exact turns_sees h _ _ _ _ _ _ _ w

theorem builtin_sees (h : c.Seen see d) (kind : CardKind) (card : Card)
    (previous : Option Envelope) :
    Sees see (Executor.builtin kind card previous c)
      (Executor.builtin kind card previous d) := by
  intro w
  cases kind with
  | start | textInput | formatOutput | finish => rfl
  | ragContent =>
    simp only [Executor.builtin, Executor.ragContent]
    rcases hr : c.retrieve (Executor.query card previous) (Executor.count card) w with
      ⟨e | chunks, w'⟩
    · rw [(h.retrieve _ _).eq hr]
      rfl
    · rw [(h.retrieve _ _).eq hr]
      rfl
  | llmCall =>
    simp only [Executor.builtin, Executor.llmCall, ← h.model]
    rcases ha : c.complete (Placeholder.resolvePrompt ((card.text "prompt").getD "") previous)
      (Executor.modelOf card c.model) w with ⟨e | answer, w'⟩
    · rw [(h.complete _ _).eq ha]
      rfl
    · rw [(h.complete _ _).eq ha]
      rfl
  | agent =>
    simp only [Executor.builtin, Executor.agent]
    rcases hr : Agent.run card previous c w with ⟨e | run, w'⟩
    · rw [(agent_sees h card previous).eq hr]
      rfl
    · rw [(agent_sees h card previous).eq hr]
      rfl

end Seen

/-- Services that keep a property of the world. -/
structure Services.Preserve (d : Services σ) (P : σ → Prop) : Prop where
  complete : ∀ prompt model s, P s → P (d.complete prompt model s).2
  retrieve : ∀ query count s, P s → P (d.retrieve query count s).2
  callTool : ∀ name args s, P s → P (d.callTool name args s).2

def within {α : Type} (P : σ → Prop) (act : σ → α × σ) (h : ∀ s, P s → P (act s).2)
    (w : {s // P s}) : α × {s // P s} :=
  ((act w.1).1, ⟨(act w.1).2, h w.1 w.2⟩)

theorem builtin_preserves {d : Context σ} {P : σ → Prop} (h : d.Preserve P) (kind : CardKind)
    (card : Card) (previous : Option Envelope) {s : σ} (hs : P s) :
    P (Executor.builtin kind card previous d s).2 := by
  -- The same card among the worlds with the property sees all of them.
  let c : Context {s // P s} :=
    { complete := fun prompt model => within P _ (h.complete prompt model)
      retrieve := fun query count => within P _ (h.retrieve query count)
      callTool := fun name args => within P _ (h.callTool name args)
      clauses := d.clauses
      model := d.model }
  have hc : c.Seen Subtype.val d :=
    ⟨fun _ _ _ => rfl, fun _ _ _ => rfl, fun _ _ _ => rfl, rfl, rfl⟩
  rw [← builtin_sees hc kind card previous ⟨s, hs⟩]
  exact (Executor.builtin kind card previous c ⟨s, hs⟩).2.2

end Cardwalk
