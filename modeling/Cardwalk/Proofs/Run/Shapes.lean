import Cardwalk.Proofs.Agent.Rounds
import Cardwalk.Proofs.Placeholder.Stripping
import Cardwalk.Proofs.Run.Underway

/-!
# Shapes of the envelopes along a run

The output of every card has the members of its kind and no others, whatever
the services answer. So no card is ever given a tool result or an error, the
placeholder of a tool result comes to nothing, and a run that is completed
gives what the card before the last gave.
-/

set_option autoImplicit false

namespace Cardwalk

/-- The members that are written. -/
def Envelope.members (e : Envelope) : List String :=
  match e.toJson with
  | .object members => members.map Prod.fst
  | _ => []

/-- The members that the output of a card may have. -/
def CardKind.members : CardKind → List (List String)
  | .start | .textInput => [["value"]]
  | .ragContent => [["content"]]
  | .llmCall => [["text"], ["text", "tool_call"]]
  | .agent => [["text"], ["text", "final_incomplete_response"]]
  | .formatOutput => [["formatted_text"]]
  | .finish => [["final_result"]]

/-- An envelope with neither a tool result nor an error, at any depth. -/
inductive Envelope.Plain : Envelope → Prop
  | flat {e : Envelope} (hr : e.toolResult = none) (he : e.error = none)
      (hf : e.finalResult = none) : Plain e
  | wrap {e : Envelope} (h : Plain e) : Plain (.wrap e)

theorem Envelope.Plain.toolResult {e : Envelope} (h : e.Plain) : e.toolResult = none := by
  cases h with
  | flat hr => exact hr
  | wrap => rfl

variable {σ : Type}

inductive Agent.Exits : Agent.Run → Prop
  | done {text : String} {iterations : Nat} {steps : List Envelope} :
      Exits ⟨.ofText text, .done, iterations, steps⟩
  | exhausted {last : String} {iterations : Nat} {steps : List Envelope} :
      Exits ⟨exhaustedOutput last, .exhausted, iterations, steps⟩

theorem Agent.run_exits {card : Card} {previous : Option Envelope} {ctx : Context σ} {s s' : σ}
    {run : Agent.Run} (h : Agent.run card previous ctx s = (.ok run, s')) : Exits run := by
  unfold Agent.run at h
  split at h
  · cases h
  · obtain ⟨rounds, -, ⟨asked, answer, -, -, rfl, -⟩ | ⟨-, rfl, -⟩⟩ := turns_rounds h
    · exact .done
    · exact .exhausted

/-- The output of a card of this kind, with the members of the kind. -/
inductive Shaped (ctx : Context σ) (v : Visit σ) : CardKind → Prop
  | start {value : String} (h : v.output = .ofValue value) : Shaped ctx v .start
  | textInput {value : String} (h : v.output = .ofValue value) : Shaped ctx v .textInput
  | ragContent {content : String} (h : v.output = .ofContent content) : Shaped ctx v .ragContent
  | llmCall {answer : Completion}
      (ha : ctx.complete (Placeholder.resolvePrompt ((v.card.text "prompt").getD "") v.previous)
        (Executor.modelOf v.card ctx.model) v.before = (.ok answer, v.after))
      (h : v.output =
        { Envelope.ofText answer.text with toolCall := ToolCall.extract answer.text }) :
      Shaped ctx v .llmCall
  | agent {run : Agent.Run}
      (hr : Agent.run v.card v.previous ctx v.before = (.ok run, v.after))
      (he : Agent.Exits run) (h : v.output = run.output) : Shaped ctx v .agent
  | formatOutput {text : String} (h : v.output = .ofFormatted text) : Shaped ctx v .formatOutput
  | finish (h : v.output = .wrap (v.previous.getD .empty)) : Shaped ctx v .finish

section Shaped

variable {ctx : Context σ} {v : Visit σ}

theorem ragContent_shaped
    (h : Executor.ragContent v.card v.previous ctx v.before = (.ok v.output, v.after)) :
    Shaped ctx v .ragContent := by
  unfold Executor.ragContent at h
  split at h
  · cases h
  · exact .ragContent (Except.ok.inj (Prod.mk.inj h).1).symm

theorem llmCall_shaped
    (h : Executor.llmCall v.card v.previous ctx v.before = (.ok v.output, v.after)) :
    Shaped ctx v .llmCall := by
  unfold Executor.llmCall at h
  dsimp only at h
  split at h
  · cases h
  · rename_i answer s ha
    obtain ⟨ho, rfl⟩ := Prod.mk.inj h
    exact .llmCall ha (Except.ok.inj ho).symm

theorem agent_shaped
    (h : Executor.agent v.card v.previous ctx v.before = (.ok v.output, v.after)) :
    Shaped ctx v .agent := by
  unfold Executor.agent at h
  split at h
  · cases h
  · rename_i run s hr
    obtain ⟨ho, rfl⟩ := Prod.mk.inj h
    exact .agent hr (Agent.run_exits hr) (Except.ok.inj ho).symm

theorem builtin_shaped
    (h : Executor.builtin v.card.kind v.card v.previous ctx v.before = (.ok v.output, v.after)) :
    Shaped ctx v v.card.kind := by
  have hdone : ∀ {e : Envelope}, Executor.done e v.before = (.ok v.output, v.after) →
      v.output = e := fun h => (Except.ok.inj (Prod.mk.inj h).1).symm
  generalize v.card.kind = kind at h
  cases kind with
  | start => exact .start (hdone h)
  | textInput => exact .textInput (hdone h)
  | ragContent => exact ragContent_shaped h
  | llmCall => exact llmCall_shaped h
  | agent => exact agent_shaped h
  | formatOutput => exact .formatOutput (hdone h)
  | finish => exact .finish (hdone h)

theorem Shaped.members {kind : CardKind} (h : Shaped ctx v kind) :
    v.output.members ∈ kind.members := by
  cases h with
  | start h | textInput h | ragContent h | formatOutput h | finish h =>
    rw [h]
    exact List.mem_singleton.mpr rfl
  | @llmCall answer ha h =>
    rw [h]
    cases ToolCall.extract answer.text with
    | none => exact List.mem_cons_self
    | some call => exact List.mem_cons_of_mem _ (List.mem_singleton.mpr rfl)
  | agent hr he h =>
    rw [h]
    cases he with
    | done => exact List.mem_cons_self
    | exhausted => exact List.mem_cons_of_mem _ (List.mem_singleton.mpr rfl)

/-- An end card wraps what it is given, and no other card takes anything over. -/
theorem Shaped.plain {kind : CardKind} (h : Shaped ctx v kind)
    (hp : ∀ e, v.previous = some e → e.Plain) : v.output.Plain := by
  cases h with
  | start h | textInput h | ragContent h | llmCall ha h | formatOutput h =>
    rw [h]
    exact .flat rfl rfl rfl
  | agent hr he h =>
    rw [h]
    cases he <;> exact .flat rfl rfl rfl
  | finish h =>
    rw [h]
    refine .wrap ?_
    cases hprev : v.previous with
    | none => exact .flat rfl rfl rfl
    | some e => exact hp e hprev

end Shaped

namespace Runner

section Carried

variable {r : Runner σ} {g : Graph} {world : σ} {visits : List (Visit σ)}

theorem Carried.builtin (h : Carried r g world visits) (hr : r.registry = Registry.builtin)
    {v : Visit σ} (hv : v ∈ visits) :
    Executor.builtin v.card.kind v.card v.previous r.context v.before =
      (.ok v.output, v.after) := by
  obtain ⟨i, hi⟩ := List.mem_iff_getElem?.mp hv
  obtain ⟨-, -, -, -, executor, hreg, he⟩ := h i v hi
  rw [hr] at hreg
  cases hreg
  exact he

theorem Carried.shaped (h : Carried r g world visits) (hr : r.registry = Registry.builtin)
    {v : Visit σ} (hv : v ∈ visits) : Shaped r.context v v.card.kind :=
  builtin_shaped (h.builtin hr hv)

theorem Carried.previous_succ (h : Carried r g world visits) {i : Nat} {v : Visit σ}
    (hv : visits[i + 1]? = some v) :
    ∃ w, visits[i]? = some w ∧ v.previous = some w.output := by
  obtain ⟨hi, -⟩ := List.getElem?_eq_some_iff.mp hv
  have hw := List.getElem?_eq_getElem (Nat.lt_of_succ_lt hi)
  exact ⟨_, hw, by rw [(h (i + 1) v hv).2.1, givenAfter_take hw]⟩

theorem Carried.plain (h : Carried r g world visits) (hr : r.registry = Registry.builtin) :
    ∀ v ∈ visits, v.output.Plain := by
  have hindex : ∀ (i : Nat) (v : Visit σ), visits[i]? = some v → v.output.Plain := by
    intro i
    induction i with
    | zero =>
      intro v hv
      have hnone : v.previous = none := (h 0 v hv).2.1
      exact (h.shaped hr (List.mem_of_getElem? hv)).plain (by simp [hnone])
    | succ i ih =>
      intro v hv
      obtain ⟨w, hw, hsome⟩ := h.previous_succ hv
      refine (h.shaped hr (List.mem_of_getElem? hv)).plain fun e he => ?_
      rw [hsome] at he
      cases he
      exact ih w hw
  intro v hv
  obtain ⟨i, hi⟩ := List.mem_iff_getElem?.mp hv
  exact hindex i v hi

theorem Carried.wrapped (h : Carried r g world visits) (hr : r.registry = Registry.builtin)
    {i : Nat} {v : Visit σ} (hv : visits[i]? = some v) (hk : v.card.kind = .finish) :
    ∃ j w, i = j + 1 ∧ visits[j]? = some w ∧ v.output = .wrap w.output := by
  have hshape := h.shaped hr (List.mem_of_getElem? hv)
  rw [hk] at hshape
  cases i with
  | zero =>
    have hstart := (h 0 v hv).1
    rw [g.station_zero] at hstart
    rw [(g.start_mem hstart).2] at hk
    cases hk
  | succ j =>
    obtain ⟨w, hw, hsome⟩ := h.previous_succ hv
    cases hshape with
    | finish ho => exact ⟨j, w, rfl, hw, by rw [ho, hsome]; rfl⟩

end Carried

theorem plain_givenAfter {visits : List (Visit σ)} (h : ∀ v ∈ visits, v.output.Plain)
    {e : Envelope} (he : givenAfter none visits = some e) : e.Plain := by
  unfold givenAfter at he
  cases hl : visits.getLast? with
  | none => simp [hl] at he
  | some v =>
    obtain rfl : v.output = e := by simpa [hl] using he
    exact h v (List.mem_of_getLast? hl)

theorem silent_givenAfter {visits : List (Visit σ)} (h : ∀ v ∈ visits, v.output.Plain)
    (i : Nat) : Placeholder.SilentToolResult (givenAfter none (visits.take i)) := by
  refine Placeholder.silent_toolResult ?_
  have htake : ∀ v ∈ visits.take i, v.output.Plain := fun v hv => h v (List.mem_of_mem_take hv)
  cases hg : givenAfter none (visits.take i) with
  | none => rfl
  | some e => simp [Envelope.field, (plain_givenAfter htake hg).toolResult]

/-- A run whose cards have kept to the shapes of their kinds as far as it has
come: `visits` are the cards that were carried out. -/
structure HasShapes (r : Runner σ) (p : Progress σ) (visits : List (Visit σ)) : Prop where
  steps : p.book.steps = visits.map r.stepOf
  given : ∀ i v, visits[i]? = some v → v.previous = givenAfter none (visits.take i)
  carried : ∀ v ∈ visits, Executor.builtin v.card.kind v.card v.previous r.context v.before =
    (.ok v.output, v.after)
  members : ∀ v ∈ visits, v.output.members ∈ v.card.kind.members
  shaped : ∀ v ∈ visits, Shaped r.context v v.card.kind
  wrapped : ∀ i v, visits[i]? = some v → v.card.kind = .finish →
    ∃ j w, i = j + 1 ∧ visits[j]? = some w ∧ v.output = .wrap w.output
  plain : ∀ v ∈ visits, v.output.Plain
  silent : ∀ i, Placeholder.SilentToolResult (givenAfter none (visits.take i))

structure KeepsShapes (r : Runner σ) (o : Outcome σ) (visits : List (Visit σ)) : Prop
    extends HasShapes r o.progress visits where
  final : ∀ e, o.result = .ok e → ∃ before w v,
    visits = before ++ [w, v] ∧ w.output = e ∧ v.output = .wrap e

theorem Carried.has_shapes {r : Runner σ} {g : Graph} {world : σ} {visits : List (Visit σ)}
    (h : Carried r g world visits) (hr : r.registry = Registry.builtin) {p : Progress σ}
    (hsteps : p.book.steps = visits.map r.stepOf) : HasShapes r p visits where
  steps := hsteps
  given i v hv := (h i v hv).2.1
  carried _ := h.builtin hr
  members _ hv := (h.shaped hr hv).members
  shaped _ := h.shaped hr
  wrapped _ _ := h.wrapped hr
  plain := h.plain hr
  silent := silent_givenAfter (h.plain hr)

theorem journey_final {r : Runner σ} {g : Graph} {start : Card} {world s' : σ}
    {visits : List (Visit σ)} {stop : Stop σ} (hs : g.start? = some start)
    (h : Journey r g start none world visits stop s') (hr : r.registry = Registry.builtin)
    {e : Envelope} (he : stop.result = .ok e) :
    ∃ before w v, visits = before ++ [w, v] ∧ w.output = e ∧ v.output = .wrap e := by
  obtain ⟨v, hv, hf⟩ : ∃ v, visits.getLast? = some v ∧
      follow g v.card v.output = .halt (.ok e) := by
    have hstands := h.stands
    cases stop with
    | cancelled | unregistered | failed => cases he
    | halted result =>
      cases he
      exact hstands.2
  obtain ⟨-, hk, hfinal⟩ := follow_completed.mp hf
  obtain ⟨init, rfl⟩ := List.getLast?_eq_some_iff.mp hv
  obtain ⟨j, w, hj, hw, ho⟩ := (h.carried hs).wrapped hr List.getElem?_concat_length hk
  rw [List.getElem?_append_left (by omega)] at hw
  have hlast : init.getLast? = some w := by
    rw [List.getLast?_eq_getElem?, hj]
    exact hw
  obtain ⟨before, rfl⟩ := List.getLast?_eq_some_iff.mp hlast
  obtain rfl : w.output = e := by rw [← hfinal, ho]; rfl
  exact ⟨before, w, v, by simp, rfl, ho⟩

theorem standing_has_shapes (r : Runner σ) (hr : r.registry = Registry.builtin) (g : Graph)
    (turns : Nat) (world : σ) :
    ∃ visits, HasShapes r (r.standing g world turns).progress visits := by
  cases hs : g.start? with
  | none =>
    rw [standing, outset_none hs, iterate_ended]
    exact ⟨[], (carried_nil r g world).has_shapes hr rfl⟩
  | some start =>
    cases hst : r.standing g world turns with
    | ahead index c previous p =>
      obtain ⟨visits, hcarried, -, -, rfl, -⟩ := standing_underway hs hst
      exact ⟨visits, hcarried.has_shapes hr (visitedAll_steps _ _ _ _)⟩
    | ended result p =>
      obtain ⟨visits, stop, hj, -, rfl, -⟩ := standing_journey hs hst
      exact ⟨visits, (hj.carried hs).has_shapes hr
        (by rw [Standing.progress, stopped_steps]; exact visitedAll_steps _ _ _ _)⟩

theorem outcome_keeps_shapes {r : Runner σ} (hr : r.registry = Registry.builtin) {g : Graph}
    {turns : Nat} {world : σ} {o : Outcome σ} (h : r.run g turns world = some o) :
    ∃ visits, KeepsShapes r o visits := by
  cases hs : g.start? with
  | some start =>
    obtain ⟨visits, stop, hj, -, rfl⟩ := run_journey hs h
    exact ⟨visits, (hj.carried hs).has_shapes hr (r.travelled_steps g start world visits stop),
      fun e he => journey_final hs hj hr he⟩
  | none =>
    rw [run_unstartable hs] at h
    cases h
    exact ⟨[], (carried_nil r g world).has_shapes hr (conclude_steps _ _ _ _), by simp⟩

/-- Every run keeps to the shapes, as far as one follows it and, where it
ends, to its end. -/
theorem run_keeps_shapes (r : Runner σ) (hr : r.registry = Registry.builtin) (g : Graph)
    (turns : Nat) (world : σ) :
    (∃ visits, HasShapes r (r.standing g world turns).progress visits) ∧
      ∀ o, r.run g turns world = some o → ∃ visits, KeepsShapes r o visits :=
  ⟨standing_has_shapes r hr g turns world, fun _ => outcome_keeps_shapes hr⟩

def answered : Graph where
  cards := [.new "s" .start, .new "m" .llmCall, .new "e" .finish, .new "f" .finish]
  connections := [.new "in" "s" "m", .new "out" "m" "e", .new "on" "e" "f"]

def requesting : Runner Nat where
  context :=
    { complete := fun _ _ n => (.ok ⟨"调用工具 f({})", defaultModel⟩, n)
      retrieve := fun _ _ n => (.error .uninitialized, n)
      callTool := fun name _ n => (.error ⟨name, ""⟩, n) }

theorem requesting_keeps_shapes :
    requesting.registry = Registry.builtin ∧
      (∃ visits, HasShapes requesting (requesting.standing answered 0 2).progress visits) ∧
      ∃ o, requesting.run answered 4 0 = some o ∧
        (o.result.toOption.bind (·.finalResult)).map (·.members) =
          some ["text", "tool_call"] ∧
        ∃ visits, KeepsShapes requesting o visits := by
  have hmembers : (requesting.run answered 4 0).bind (fun o =>
      (o.result.toOption.bind (·.finalResult)).map (·.members)) =
        some ["text", "tool_call"] := by
    decide +kernel
  cases h : requesting.run answered 4 0 with
  | none => simp [h] at hmembers
  | some o =>
    exact ⟨rfl, (run_keeps_shapes requesting rfl answered 2 0).1, o, rfl,
      by simpa [h] using hmembers, (run_keeps_shapes requesting rfl answered 4 0).2 o h⟩

end Runner

end Cardwalk
