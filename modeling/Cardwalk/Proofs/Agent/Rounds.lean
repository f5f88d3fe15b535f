import Cardwalk.Proofs.Run.Calls

/-!
# The rounds of an agent

An agent that comes to an output went through rounds. In each of them the
model asked for a tool, and the tool was called exactly if the card names it.
The services are called for nothing else, except that a last answer may ask
for no tool and is the output.
-/

set_option autoImplicit false

namespace Cardwalk.Agent

/-- One turn in which the model asked for a tool. -/
structure Round where
  prompt : String
  answer : Completion
  call : ToolCall
  /-- The result of the tool, if it was available. -/
  result : Option Json

namespace Round

def use (x : Round) : List Call :=
  match x.result with
  | some result => [.callTool x.call (.ok result)]
  | none => []

def calls (x : Round) : List Call := .complete x.prompt model (.ok x.answer) :: x.use

def step (x : Round) : Envelope :=
  match x.result with
  | some result => toolStep x.call.name result
  | none => unavailableStep x.call.name

/-- The answer asks for this call, and only available tools have results. -/
structure Fits (tools : List String) (x : Round) : Prop where
  directive : ToolCall.extract x.answer.text = some x.call
  available : x.result.isSome ↔ x.call.name ∈ tools

theorem step_toolResult (x : Round) : x.step.toolResult = x.result := by
  unfold step
  cases x.result <;> rfl

theorem calls_asked (x : Round) : x.calls.filterMap Call.asked = [(model, .ok x.answer)] := by
  unfold calls use
  cases x.result <;> rfl

theorem calls_used (x : Round) :
    x.calls.filterMap Call.used = (x.result.map fun result => (x.call, .ok result)).toList := by
  unfold calls use
  cases x.result <;> rfl

end Round

theorem rounds_asked (rounds : List Round) :
    (rounds.flatMap Round.calls).filterMap Call.asked =
      rounds.map fun x => (model, .ok x.answer) := by
  induction rounds with
  | nil => rfl
  | cons x rounds ih => simp [List.filterMap_append, Round.calls_asked, ih]

theorem rounds_used (rounds : List Round) :
    (rounds.flatMap Round.calls).filterMap Call.used =
      rounds.filterMap fun x => x.result.map fun result => (x.call, .ok result) := by
  induction rounds with
  | nil => rfl
  | cons x rounds ih =>
    rw [List.flatMap_cons, List.filterMap_append, Round.calls_used, ih, List.filterMap_cons]
    cases x.result <;> rfl

variable {σ : Type}

theorem answerCall_round {ctx : Context σ} {tools : List String} {call : ToolCall} {s s' : σ}
    {clause : String} {step : Envelope}
    (h : answerCall ctx tools call s = (.ok (clause, step), s')) (prompt : String)
    (answer : Completion) :
    ∃ x : Round, x.prompt = prompt ∧ x.answer = answer ∧ x.call = call ∧ x.step = step ∧
      (x.result.isSome ↔ call.name ∈ tools) ∧
      ∀ log, answerCall ctx.logged tools call (s, log) =
        (.ok (clause, step), s', log ++ x.use) := by
  unfold answerCall at h
  split at h
  · rename_i hm
    rcases ht : ctx.callTool call.name call.args s with ⟨result, t⟩
    simp only [ht] at h
    cases result with
    | error e => simp at h
    | ok result =>
      cases hc : ctx.clauses.toolResult call.name result.display with
      | error e => simp [hc] at h
      | ok text =>
        simp only [hc, Prod.mk.injEq, Except.ok.injEq] at h
        obtain ⟨⟨rfl, rfl⟩, rfl⟩ := h
        refine ⟨⟨prompt, answer, call, some result⟩, rfl, rfl, rfl, rfl, ?_, fun log => ?_⟩
        · simpa using hm
        · have hl := ctx.logged_callTool ht log
          simp only [answerCall, hm, if_true, hl]
          rw [show ctx.logged.clauses = ctx.clauses from rfl, hc]
          rfl
  · rename_i hm
    cases hc : ctx.clauses.unavailableTool call.name with
    | error e => simp [hc] at h
    | ok text =>
      simp only [hc, Prod.mk.injEq, Except.ok.injEq] at h
      obtain ⟨⟨rfl, rfl⟩, rfl⟩ := h
      refine ⟨⟨prompt, answer, call, none⟩, rfl, rfl, rfl, rfl, ?_, fun log => ?_⟩
      · simpa using hm
      · simp only [answerCall, hm]
        rw [show ctx.logged.clauses = ctx.clauses from rfl, hc]
        simp [Round.use]

def lastAnswer (last : String) (rounds : List Round) : String :=
  (rounds.getLast?.map (·.answer.text)).getD last

theorem lastAnswer_cons (last : String) (x : Round) (rounds : List Round) :
    lastAnswer last (x :: rounds) = lastAnswer x.answer.text rounds := by
  cases rounds <;> simp [lastAnswer, List.getLast?_cons]

def finished (done : Nat) (steps : List Envelope) (rounds : List Round) (answer : Completion) :
    Run :=
  ⟨.ofText answer.text, .done, done + rounds.length + 1, steps ++ rounds.map Round.step⟩

def givenUp (done : Nat) (steps : List Envelope) (last : String) (rounds : List Round) : Run :=
  ⟨exhaustedOutput (lastAnswer last rounds), .exhausted, done + rounds.length,
    steps ++ rounds.map Round.step⟩

theorem finished_cons (done : Nat) (steps : List Envelope) (x : Round) (rounds : List Round)
    (answer : Completion) :
    finished done steps (x :: rounds) answer =
      finished (done + 1) (steps ++ [x.step]) rounds answer := by
  simp [finished]
  omega

theorem givenUp_cons (done : Nat) (steps : List Envelope) (last : String) (x : Round)
    (rounds : List Round) :
    givenUp done steps last (x :: rounds) =
      givenUp (done + 1) (steps ++ [x.step]) x.answer.text rounds := by
  simp [givenUp, lastAnswer_cons]
  omega

/-- Turns that come to a run are rounds, and a final answer unless no turn
was left. -/
theorem turns_rounds {ctx : Context σ} {tools : List String} {suffix : String}
    {left done : Nat} {prompt last : String} {steps : List Envelope} {s s' : σ} {run : Run}
    (h : turns ctx tools suffix left done prompt steps last s = (.ok run, s')) :
    ∃ rounds : List Round, (∀ x ∈ rounds, x.Fits tools) ∧
      ((∃ asked answer, rounds.length < left ∧ ToolCall.extract answer.text = none ∧
          run = finished done steps rounds answer ∧
          ∀ log, turns ctx.logged tools suffix left done prompt steps last (s, log) =
            (.ok run, s', log ++ (rounds.flatMap Round.calls ++
              [.complete asked model (.ok answer)]))) ∨
        rounds.length = left ∧ run = givenUp done steps last rounds ∧
          ∀ log, turns ctx.logged tools suffix left done prompt steps last (s, log) =
            (.ok run, s', log ++ rounds.flatMap Round.calls)) := by
  -- Every round makes its answer the last one, so the last answer is general.
  induction left generalizing done prompt steps last s with
  | zero =>
    simp only [turns, Prod.mk.injEq, Except.ok.injEq] at h
    obtain ⟨rfl, rfl⟩ := h
    exact ⟨[], by simp, .inr ⟨rfl, by simp [givenUp, lastAnswer], fun log => by simp [turns]⟩⟩
  | succ left ih =>
    rw [turns] at h
    rcases ha : ctx.complete (prompt ++ suffix) model s with ⟨answer, t⟩
    simp only [ha] at h
    cases answer with
    | error e => simp at h
    | ok answer =>
      have hask := ctx.logged_complete ha
      cases hx : ToolCall.extract answer.text with
      | none =>
        simp only [hx, Prod.mk.injEq, Except.ok.injEq] at h
        obtain ⟨rfl, rfl⟩ := h
        refine ⟨[], by simp, .inl ⟨prompt ++ suffix, answer, by simp, hx, by simp [finished],
          fun log => ?_⟩⟩
        simp [turns, hask, hx]
      | some call =>
        rcases hc : answerCall ctx tools call t with ⟨reply, u⟩
        simp only [hx, hc] at h
        cases reply with
        | error e => simp at h
        | ok reply =>
          obtain ⟨clause, step⟩ := reply
          obtain ⟨x, hprompt, hanswer, hcall, rfl, hav, hlog⟩ :=
            answerCall_round hc (prompt ++ suffix) answer
          have hfit : x.Fits tools := ⟨by rw [hanswer, hcall, hx], by rw [hcall]; exact hav⟩
          have hturn : ∀ log, turns ctx.logged tools suffix (left + 1) done prompt steps last
              (s, log) = turns ctx.logged tools suffix left (done + 1) (prompt ++ clause)
              (steps ++ [x.step]) x.answer.text (u, log ++ x.calls) := by
            intro log
            rw [turns]
            simp only [hask, hx, hlog, hanswer, Round.calls, hprompt, List.append_assoc,
              List.cons_append, List.nil_append]
          rw [← hanswer] at h
          obtain ⟨rounds, hfits, hend⟩ := ih h
          refine ⟨x :: rounds, List.forall_mem_cons.mpr ⟨hfit, hfits⟩, ?_⟩
          rcases hend with ⟨asked, final, hl, hn, hrun, hall⟩ | ⟨hl, hrun, hall⟩
          · refine .inl ⟨asked, final, by simpa using hl, hn, by rw [hrun, finished_cons],
              fun log => ?_⟩
            rw [hturn, hall]
            simp
          · refine .inr ⟨by simp [hl], by rw [hrun, givenUp_cons], fun log => ?_⟩
            rw [hturn, hall]
            simp

/-- What a run of an agent with these tools may come to: `log` are the calls
of the services, `answers` what the model answered, and `rounds` the answers
that asked for a tool. -/
structure Account (tools : List String) (run : Run) (log : List Call)
    (answers : List Completion) (rounds : List Round) : Prop where
  asked : log.filterMap Call.asked = answers.map fun answer => (model, .ok answer)
  iterations : run.iterations = answers.length
  bounded : 1 ≤ run.iterations ∧ run.iterations ≤ maxIterations
  settled : run.state = .done ∨ run.state = .exhausted
  done : run.state = .done → run.steps.length + 1 = run.iterations ∧
    ∃ prompt last, answers = rounds.map (·.answer) ++ [last] ∧
      log = rounds.flatMap Round.calls ++ [.complete prompt model (.ok last)] ∧
      ToolCall.extract last.text = none ∧ run.output = { text := some last.text }
  exhausted : run.state = .exhausted →
    run.iterations = maxIterations ∧ run.steps.length = maxIterations ∧
    answers = rounds.map (·.answer) ∧ log = rounds.flatMap Round.calls ∧
    ∃ last, answers.getLast? = some last ∧
      run.output = { text := some exhaustedMessage, incompleteResponse := some last.text }
  directives : ∀ x ∈ rounds, ToolCall.extract x.answer.text = some x.call
  available : ∀ x ∈ rounds, x.result.isSome ↔ x.call.name ∈ tools
  used : log.filterMap Call.used =
    rounds.filterMap fun x => x.result.map fun result => (x.call, .ok result)
  steps : run.steps = rounds.map Round.step
  carried : run.steps.map (·.toolResult) = rounds.map (·.result)

theorem finished_account {tools : List String} {rounds : List Round} {answer : Completion}
    (hfits : ∀ x ∈ rounds, x.Fits tools) (hl : rounds.length < maxIterations)
    (hn : ToolCall.extract answer.text = none) (prompt : String) :
    Account tools (finished 0 [] rounds answer)
      (rounds.flatMap Round.calls ++ [.complete prompt model (.ok answer)])
      (rounds.map (·.answer) ++ [answer]) rounds where
  asked := by
    rw [List.filterMap_append, rounds_asked]
    simp [Call.asked]
  iterations := by simp [finished]
  bounded := by simp only [finished]; omega
  settled := .inl rfl
  done _ := ⟨by simp [finished], prompt, answer, rfl, rfl, hn, rfl⟩
  exhausted h := by cases h
  directives x hx := (hfits x hx).directive
  available x hx := (hfits x hx).available
  used := by
    rw [List.filterMap_append, rounds_used]
    simp [Call.used]
  steps := by simp [finished]
  carried := by simp [finished, Round.step_toolResult]

theorem givenUp_account {tools : List String} {rounds : List Round}
    (hfits : ∀ x ∈ rounds, x.Fits tools) (hl : rounds.length = maxIterations) :
    Account tools (givenUp 0 [] "" rounds) (rounds.flatMap Round.calls)
      (rounds.map (·.answer)) rounds where
  asked := by
    rw [rounds_asked]
    simp
  iterations := by simp [givenUp]
  bounded := by simp only [givenUp, hl]; decide
  settled := .inr rfl
  done h := by cases h
  exhausted _ := by
    refine ⟨by simp [givenUp, hl], by simp [givenUp, hl], rfl, rfl, ?_⟩
    cases hx : rounds.getLast? with
    | none => simp [List.getLast?_eq_none_iff.mp hx, maxIterations] at hl
    | some x =>
      refine ⟨x.answer, by simp [List.getLast?_map, hx], ?_⟩
      simp [givenUp, lastAnswer, hx, exhaustedOutput]
  directives x hx := (hfits x hx).directive
  available x hx := (hfits x hx).available
  used := rounds_used rounds
  steps := by simp [givenUp]
  carried := by simp [givenUp, Round.step_toolResult]

/-- Every run of an agent that comes to an output can be accounted for. -/
theorem run_accounted (card : Card) (previous : Option Envelope) (ctx : Context σ) (s s' : σ)
    (run : Run) (h : Agent.run card previous ctx s = (.ok run, s')) :
    ∃ log answers rounds,
      Agent.run card previous ctx.logged (s, []) = (.ok run, s', log) ∧
      Account (tools card) run log answers rounds := by
  unfold Agent.run at h
  cases hs : suffix ctx (tools card) with
  | error e => simp [hs] at h
  | ok behind =>
    have hrun : Agent.run card previous ctx.logged = turns ctx.logged (tools card) behind
        maxIterations 0 (prompt card previous) [] "" := by
      unfold Agent.run
      rw [show suffix ctx.logged (tools card) = suffix ctx (tools card) from rfl, hs]
    simp only [hs] at h
    obtain ⟨rounds, hfits, ⟨asked, answer, hl, hn, rfl, hlog⟩ | ⟨hl, rfl, hlog⟩⟩ :=
      turns_rounds h
    · exact ⟨_, _, rounds, by rw [hrun]; exact hlog [], finished_account hfits hl hn asked⟩
    · exact ⟨_, _, rounds, by rw [hrun]; exact hlog [], givenUp_account hfits hl⟩

def hesitant : Context Nat where
  complete _ _ n := (.ok ⟨["调用工具 f(1)", "调用工具 g(2)", "done"].getD n "", model⟩, n + 1)
  retrieve _ _ n := (.error .uninitialized, n)
  callTool _ _ n := (.ok .null, n)
  clauses := ⟨fun _ => []⟩

def asking : Card := (Card.new "a" .agent).set "tools" (.string "f")

theorem hesitant_accounted :
    ∃ run s', Agent.run asking none hesitant 0 = (.ok run, s') ∧ run.iterations = 3 ∧
      ∃ log answers rounds,
        Agent.run asking none hesitant.logged (0, []) = (.ok run, s', log) ∧
        Account (tools asking) run log answers rounds := by
  have hi : (Agent.run asking none hesitant 0).1.toOption.map (·.iterations) = some 3 := by
    decide +kernel
  rcases h : Agent.run asking none hesitant 0 with ⟨result, s'⟩
  cases result with
  | error e => simp [h, Except.toOption] at hi
  | ok run =>
    refine ⟨run, s', rfl, ?_, run_accounted asking none hesitant 0 s' run h⟩
    simpa [h, Except.toOption] using hi

end Cardwalk.Agent
