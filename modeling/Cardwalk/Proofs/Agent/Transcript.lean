import Cardwalk.Proofs.Run.Calls
import Cardwalk.Proofs.Run.Seen

/-!
# The transcript of an agent

Every prompt of an agent is the transcript of what came before it: the first
prompt, the clause that each earlier answer has led to, and behind them the
clauses that stand at the end of every prompt. This holds of the runs that
fail as well, up to the call that failed.
-/

set_option autoImplicit false

namespace Cardwalk.Agent

/-- What the model was asked, its answer, and the tool that was called for
it. -/
structure Exchange where
  prompt : String
  answer : Except CompletionError Completion
  use : Option (ToolCall × Except ToolError Json)

namespace Exchange

def calls (x : Exchange) : List Call :=
  .complete x.prompt model x.answer :: (x.use.map fun u => .callTool u.1 u.2).toList

def request (x : Exchange) : Option ToolCall :=
  match x.answer with
  | .ok answer => ToolCall.extract answer.text
  | .error _ => none

/-- A tool was called exactly if the answer asks for one that is available. -/
def Fits (tools : List String) (x : Exchange) : Prop :=
  x.use.map Prod.fst = x.request.filter fun call => tools.contains call.name

/-- What an exchange adds to the prompt: the result of the tool, or a warning
that there is no such tool. -/
inductive Adds (clauses : ClauseSet) (tools : List String) (x : Exchange) (clause : String) :
    Prop
  | result {call : ToolCall} {result : Json} (hr : x.request = some call)
      (ha : call.name ∈ tools) (hu : x.use = some (call, .ok result))
      (hc : clauses.toolResult call.name result.display = .ok clause)
  | warning {call : ToolCall} (hr : x.request = some call) (ha : call.name ∉ tools)
      (hu : x.use = none) (hc : clauses.unavailableTool call.name = .ok clause)

end Exchange

/-- The exchanges of an agent that stands at a prompt, and the clauses that
they have added. -/
inductive Asks (clauses : ClauseSet) (tools : List String) (trailing : String) :
    String → List Exchange → List String → Prop
  | silent (prompt : String) : Asks clauses tools trailing prompt [] []
  | last {prompt : String} {x : Exchange} (hp : x.prompt = prompt ++ trailing)
      (hf : x.Fits tools) : Asks clauses tools trailing prompt [x] []
  | onward {prompt clause : String} {x : Exchange} {xs : List Exchange} {added : List String}
      (hp : x.prompt = prompt ++ trailing) (hf : x.Fits tools)
      (hc : x.Adds clauses tools clause)
      (rest : Asks clauses tools trailing (prompt ++ clause) xs added) :
      Asks clauses tools trailing prompt (x :: xs) (clause :: added)

section Asks

variable {clauses : ClauseSet} {tools : List String} {trailing prompt : String}
  {xs : List Exchange} {added : List String}

theorem Asks.prompt_at (h : Asks clauses tools trailing prompt xs added) {n : Nat}
    {x : Exchange} (hx : xs[n]? = some x) :
    x.prompt = prompt ++ String.join (added.take n) ++ trailing := by
  induction h generalizing n with
  | silent => simp at hx
  | last hp hf =>
    cases n with
    | zero =>
      cases hx
      simpa using hp
    | succ n => simp at hx
  | onward hp hf hc rest ih =>
    cases n with
    | zero =>
      cases hx
      simpa using hp
    | succ n =>
      simp only [ih hx, List.take_succ_cons, String.join_cons, String.append_assoc]

theorem Asks.fits (h : Asks clauses tools trailing prompt xs added) :
    ∀ x ∈ xs, x.Fits tools := by
  induction h with
  | silent => simp
  | last hp hf => simpa using hf
  | onward hp hf hc rest ih => exact List.forall_mem_cons.mpr ⟨hf, ih⟩

theorem Asks.adds (h : Asks clauses tools trailing prompt xs added) {n : Nat}
    {clause : String} (hc : added[n]? = some clause) :
    ∃ x, xs[n]? = some x ∧ x.Adds clauses tools clause := by
  induction h generalizing n with
  | silent | last => simp at hc
  | onward hp hf hadd rest ih =>
    cases n with
    | zero =>
      cases hc
      exact ⟨_, rfl, hadd⟩
    | succ n => exact ih hc

theorem Asks.length_le (h : Asks clauses tools trailing prompt xs added) :
    xs.length ≤ added.length + 1 := by
  induction h with
  | silent | last => simp
  | onward hp hf hc rest ih => simpa using ih

end Asks

variable {σ : Type}

theorem fits_used {tools : List String} {prompt : String} {answer : Completion}
    {call : ToolCall} (h : ToolCall.extract answer.text = some call) (ha : call.name ∈ tools)
    (result : Except ToolError Json) :
    Exchange.Fits tools ⟨prompt, .ok answer, some (call, result)⟩ := by
  simp [Exchange.Fits, Exchange.request, h, Option.filter, ha]

theorem fits_unavailable {tools : List String} {prompt : String} {answer : Completion}
    {call : ToolCall} (h : ToolCall.extract answer.text = some call) (ha : call.name ∉ tools) :
    Exchange.Fits tools ⟨prompt, .ok answer, none⟩ := by
  simp [Exchange.Fits, Exchange.request, h, Option.filter, ha]

theorem fits_answered {tools : List String} {prompt : String} {answer : Completion}
    (h : ToolCall.extract answer.text = none) :
    Exchange.Fits tools ⟨prompt, .ok answer, none⟩ := by
  simp [Exchange.Fits, Exchange.request, h]

theorem answerCall_exchange (ctx : Context σ) (tools : List String) (prompt : String)
    {answer : Completion} {call : ToolCall} (h : ToolCall.extract answer.text = some call)
    (s : σ) (log : List Call) :
    ∃ x : Exchange, x.prompt = prompt ∧ x.Fits tools ∧
      ∃ reply s', answerCall ctx.logged tools call
          (s, log ++ [.complete prompt model (.ok answer)]) = (reply, s', log ++ x.calls) ∧
        ∀ clause step, reply = .ok (clause, step) → x.Adds ctx.clauses tools clause := by
  have hclauses : ctx.logged.clauses = ctx.clauses := rfl
  unfold answerCall
  by_cases ha : call.name ∈ tools
  · rcases hu : ctx.callTool call.name call.args s with ⟨result, s'⟩
    have hlog := ctx.logged_callTool hu (log ++ [.complete prompt model (.ok answer)])
    refine ⟨⟨prompt, .ok answer, some (call, result)⟩, rfl, fits_used h ha result, ?_⟩
    rw [if_pos (List.contains_iff_mem.mpr ha), hlog, hclauses, List.append_assoc]
    cases result with
    | error e => exact ⟨.error (.tool e), s', rfl, by simp⟩
    | ok result =>
      cases hc : ctx.clauses.toolResult call.name result.display with
      | error e => exact ⟨.error (.clause e), s', by simp only [hc]; rfl, by simp⟩
      | ok clause =>
        refine ⟨.ok (clause, toolStep call.name result), s', by simp only [hc]; rfl, ?_⟩
        rintro _ _ ⟨⟩
        exact .result h ha rfl hc
  · refine ⟨⟨prompt, .ok answer, none⟩, rfl, fits_unavailable h ha, ?_⟩
    rw [if_neg (by simpa using ha), hclauses]
    cases hc : ctx.clauses.unavailableTool call.name with
    | error e => exact ⟨.error (.clause e), s, rfl, by simp⟩
    | ok clause =>
      refine ⟨.ok (clause, unavailableStep call.name), s, rfl, ?_⟩
      rintro _ _ ⟨⟩
      exact .warning h ha rfl hc

theorem turns_asks (ctx : Context σ) (tools : List String) (trailing : String)
    (left done : Nat) (prompt : String) (steps : List Envelope) (last : String) (s : σ)
    (log : List Call) :
    ∃ xs added, Asks ctx.clauses tools trailing prompt xs added ∧ xs.length ≤ left ∧
      (0 < left → xs ≠ []) ∧
      (turns ctx.logged tools trailing left done prompt steps last (s, log)).2.2 =
        log ++ xs.flatMap Exchange.calls := by
  induction left generalizing done prompt steps last s log with
  | zero => exact ⟨[], [], .silent prompt, by simp, by simp, by simp [turns]⟩
  | succ left ih =>
    rcases ha : ctx.complete (prompt ++ trailing) model s with ⟨answer, t⟩
    have hask := ctx.logged_complete ha log
    rw [turns]
    simp only [hask]
    cases answer with
    | error e =>
      exact ⟨[⟨prompt ++ trailing, .error e, none⟩], [], .last rfl rfl, by simp, by simp,
        by simp [Exchange.calls]⟩
    | ok answer =>
      cases hx : ToolCall.extract answer.text with
      | none =>
        exact ⟨[⟨prompt ++ trailing, .ok answer, none⟩], [], .last rfl (fits_answered hx),
          by simp, by simp, by simp only [hx]; rfl⟩
      | some call =>
        obtain ⟨x, hp, hf, reply, t', hcall, hadds⟩ :=
          answerCall_exchange ctx tools (prompt ++ trailing) hx t log
        simp only [hx, hcall]
        cases reply with
        | error e => exact ⟨[x], [], .last hp hf, by simp, by simp, by simp⟩
        | ok reply =>
          obtain ⟨clause, step⟩ := reply
          obtain ⟨xs, added, hasks, hl, -, hlog⟩ := ih (done + 1) (prompt ++ clause)
            (steps ++ [step]) answer.text t' (log ++ x.calls)
          exact ⟨x :: xs, clause :: added, .onward hp hf (hadds clause step rfl) hasks,
            by simpa using hl, by simp, by rw [hlog]; simp⟩

structure Trailing (clauses : ClauseSet) (tools : List String)
    (toolClause answerClause : String) : Prop where
  tools : (if tools.isEmpty then clauses.noTools else clauses.tools tools) = .ok toolClause
  answer : clauses.answer = .ok answerClause

theorem suffix_eq_ok {ctx : Context σ} {tools : List String} {trailing : String}
    (h : suffix ctx tools = .ok trailing) :
    ∃ toolClause answerClause, Trailing ctx.clauses tools toolClause answerClause ∧
      trailing = toolClause ++ answerClause := by
  unfold suffix at h
  split at h
  · cases h
  · rename_i toolClause ht
    split at h
    · cases h
    · rename_i answerClause ha
      cases h
      exact ⟨toolClause, answerClause, ⟨ht, ha⟩, rfl⟩

theorem trailing_suffix {ctx : Context σ} {tools : List String}
    {toolClause answerClause : String} (h : Trailing ctx.clauses tools toolClause answerClause) :
    suffix ctx tools = .ok (toolClause ++ answerClause) := by
  simp only [suffix, h.tools, h.answer]

/-- What an agent asks: `xs` are its questions with what came of them, and
`added` the clauses that they have added to the prompt. -/
structure Transcribed (clauses : ClauseSet) (tools : List String) (base : String)
    (xs : List Exchange) (added : List String) : Prop where
  prompts : ∀ (n : Nat) (x : Exchange), xs[n]? = some x → ∃ toolClause answerClause,
    Trailing clauses tools toolClause answerClause ∧
      x.prompt = base ++ String.join (added.take n) ++ toolClause ++ answerClause
  adds : ∀ (n : Nat) (clause : String), added[n]? = some clause →
    ∃ x : Exchange, xs[n]? = some x ∧ x.Adds clauses tools clause
  complete : xs.length ≤ added.length + 1
  fits : ∀ x ∈ xs, x.Fits tools
  bounded : xs.length ≤ maxIterations
  silent : xs = [] ↔ ∀ toolClause answerClause,
    ¬ Trailing clauses tools toolClause answerClause

theorem asks_transcribed {clauses : ClauseSet} {tools : List String} {base : String}
    {toolClause answerClause : String} {xs : List Exchange} {added : List String}
    (ht : Trailing clauses tools toolClause answerClause)
    (h : Asks clauses tools (toolClause ++ answerClause) base xs added)
    (hl : xs.length ≤ maxIterations) (hne : xs ≠ []) :
    Transcribed clauses tools base xs added where
  prompts n x hx :=
    ⟨toolClause, answerClause, ht, by rw [h.prompt_at hx, ← String.append_assoc]⟩
  adds n clause := h.adds
  complete := h.length_le
  fits := h.fits
  bounded := hl
  silent := iff_of_false hne fun hno => hno toolClause answerClause ht

theorem nothing_transcribed {clauses : ClauseSet} {tools : List String} (base : String)
    (h : ∀ toolClause answerClause, ¬ Trailing clauses tools toolClause answerClause) :
    Transcribed clauses tools base [] [] where
  prompts := by simp
  adds := by simp
  complete := by simp
  fits := by simp
  bounded := by simp
  silent := iff_of_true rfl h

theorem run_exchanges (card : Card) (previous : Option Envelope) (ctx : Context σ) (s : σ) :
    ∃ xs added, Transcribed ctx.clauses (tools card) (prompt card previous) xs added ∧
      (Agent.run card previous ctx.logged (s, [])).2.2 = xs.flatMap Exchange.calls := by
  have hsuffix : suffix ctx.logged (tools card) = suffix ctx (tools card) := rfl
  rw [Agent.run, hsuffix]
  cases hs : suffix ctx (tools card) with
  | error e =>
    refine ⟨[], [], nothing_transcribed _ fun toolClause answerClause ht => ?_, rfl⟩
    rw [trailing_suffix ht] at hs
    cases hs
  | ok trailing =>
    obtain ⟨toolClause, answerClause, ht, rfl⟩ := suffix_eq_ok hs
    obtain ⟨xs, added, hasks, hl, hne, hlog⟩ := turns_asks ctx (tools card)
      (toolClause ++ answerClause) maxIterations 0 (prompt card previous) [] "" s []
    exact ⟨xs, added, asks_transcribed ht hasks hl (hne (by decide)), by simpa using hlog⟩

end Cardwalk.Agent
