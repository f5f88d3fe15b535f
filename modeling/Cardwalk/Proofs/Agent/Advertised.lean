import Cardwalk.Proofs.Agent.Transcript
import Cardwalk.Proofs.ToolCall.Names

/-!
# Tools that an agent lists

An agent lists the tools of its card in every prompt and tells the model how
to call them. What a card lists may be any text, but a directive is only read
with a name of letters, digits and underscores. So a listed tool is called
when the model asks for it exactly if its name is made of these.
-/

set_option autoImplicit false

namespace Cardwalk.Agent

theorem ne_empty_of_mem_parseTools {s name : String} (h : name ∈ parseTools s) : name ≠ "" := by
  rintro rfl
  obtain ⟨t, ht, he⟩ := List.mem_map.mp h
  have hne := (List.mem_filter.mp ht).2
  obtain rfl : t = [] := by simpa using congrArg String.toList he
  simp at hne

theorem exchange_at {xs : List Exchange} {i : Nat} {prompt asked : String}
    {answer : Except CompletionError Completion}
    (h : (xs.flatMap Exchange.calls)[i]? = some (.complete prompt asked answer)) :
    ∃ x ∈ xs, x.answer = answer ∧ ∀ call result,
      (xs.flatMap Exchange.calls)[i + 1]? = some (.callTool call result) ↔
        x.use = some (call, result) := by
  induction xs generalizing i with
  | nil => simp at h
  | cons x xs ih =>
    have hlater : ∀ {j : Nat}, (xs.flatMap Exchange.calls)[j]? =
          some (.complete prompt asked answer) →
        ∃ y ∈ x :: xs, y.answer = answer ∧ ∀ call result,
          (xs.flatMap Exchange.calls)[j + 1]? = some (.callTool call result) ↔
            y.use = some (call, result) := by
      intro j hj
      obtain ⟨y, hy, hrest⟩ := ih hj
      exact ⟨y, List.mem_cons_of_mem x hy, hrest⟩
    rw [List.flatMap_cons] at h ⊢
    cases hu : x.use with
    | none =>
      have hcalls : x.calls = [.complete x.prompt model x.answer] := by simp [Exchange.calls, hu]
      rw [hcalls] at h ⊢
      cases i with
      | succ i => exact hlater h
      | zero =>
        cases h
        refine ⟨x, by simp, rfl, fun call result => ?_⟩
        -- What comes next is the question of another exchange.
        cases xs <;> simp [hu, Exchange.calls]
    | some u =>
      have hcalls : x.calls = [.complete x.prompt model x.answer, .callTool u.1 u.2] := by
        simp [Exchange.calls, hu]
      rw [hcalls] at h ⊢
      rcases i with _ | _ | i
      · cases h
        refine ⟨x, by simp, rfl, fun call result => ?_⟩
        simp [hu, Prod.ext_iff]
      · simp at h
      · exact hlater h

variable {σ : Type}

/-- A tool that a card lists is called when the model asks for it without
arguments, exactly if its name can be read from a directive; with any other
name no tool is ever called. -/
theorem listed_called (card : Card) (previous : Option Envelope) (ctx : Context σ) (s : σ)
    {name : String} (hname : name ∈ parseTools ((card.text "tools").getD ""))
    {log : List Call} (hlog : (Agent.run card previous ctx.logged (s, [])).2.2 = log)
    {i : Nat} {prompt asked : String} {answer : Completion}
    (hasked : log[i]? = some (.complete prompt asked (.ok answer)))
    (htext : answer.text = "调用工具 " ++ name ++ "({})") :
    ((∃ result, log[i + 1]? = some (.callTool ⟨name, .object []⟩ result)) ↔
        ∀ c ∈ name.toList, ToolCall.isNameChar c = true) ∧
      ((¬ ∀ c ∈ name.toList, ToolCall.isNameChar c = true) →
        ∀ args result, log[i + 1]? ≠ some (.callTool ⟨name, args⟩ result)) := by
  obtain ⟨xs, added, htold, hcalls⟩ := run_exchanges card previous ctx s
  rw [hlog] at hcalls
  rw [hcalls] at hasked ⊢
  obtain ⟨x, hx, hanswer, huse⟩ := exchange_at hasked
  have hfits := htold.fits x hx
  have hrequest : x.request = ToolCall.extract ("调用工具 " ++ name ++ "({})") := by
    simp only [Exchange.request, hanswer, htext]
  -- A tool of this name is only called if the answer was read as such a call.
  have hcallable : ∀ args result, x.use = some (⟨name, args⟩, result) →
      ToolCall.Callable name := by
    intro args result hu
    rw [Exchange.Fits, hu, Option.map_some, eq_comm] at hfits
    have hextract := (Option.filter_eq_some_iff.mp hfits).1
    rw [hrequest] at hextract
    exact ToolCall.extract_callable hextract
  refine ⟨⟨?_, fun h => ?_⟩, fun hno args result hat => ?_⟩
  · rintro ⟨result, hat⟩
    exact (hcallable _ result ((huse _ _).mp hat)).2
  · have hextract := ToolCall.extract_bare ⟨ne_empty_of_mem_parseTools hname, h⟩
    have hused : x.use.map Prod.fst = some (ToolCall.bare name) := by
      rw [hfits, hrequest, hextract]
      simp [Option.filter, ToolCall.bare, tools, hname]
    obtain ⟨⟨call, result⟩, hu, rfl⟩ := Option.map_eq_some_iff.mp hused
    exact ⟨result, (huse _ _).mpr hu⟩
  · exact hno (hcallable args result ((huse _ _).mp hat)).2

def obedient (clauses : ClauseSet) (name : String) : Context Nat where
  complete _ _ n :=
    (.ok ⟨if n = 0 then "调用工具 " ++ name ++ "({})" else "好的", model⟩, n + 1)
  retrieve _ _ n := (.error .uninitialized, n)
  callTool _ _ n := (.ok (.string "ok"), n)
  clauses := clauses

def listing (name : String) : Card := (Card.new "a" .agent).set "tools" (.string name)

theorem answered_at {log : List Call} {i : Nat} {text : String}
    (h : ((log[i]?.bind Call.asked).bind (·.2.toOption)).map (·.text) = some text) :
    ∃ prompt asked answer,
      log[i]? = some (.complete prompt asked (.ok answer)) ∧ answer.text = text := by
  rcases hc : log[i]? with _ | ⟨prompt, asked, _ | answer⟩ | _ | _ <;>
    simp [hc, Call.asked, Except.toOption] at h
  exact ⟨prompt, asked, answer, rfl, h⟩

def askedFor (clauses : ClauseSet) (name : String) : List Call :=
  (Agent.run (listing name) none (obedient clauses name).logged (0, [])).2.2

theorem listed_called_calculator :
    "calculator" ∈ parseTools (((listing "calculator").text "tools").getD "") ∧
      ∃ prompt asked answer,
        (askedFor ⟨fun _ => []⟩ "calculator")[0]? =
          some (.complete prompt asked (.ok answer)) ∧
        answer.text = "调用工具 calculator({})" ∧
        ∃ result, (askedFor ⟨fun _ => []⟩ "calculator")[1]? =
          some (.callTool ⟨"calculator", .object []⟩ result) := by
  have hname : "calculator" ∈ parseTools (((listing "calculator").text "tools").getD "") := by
    decide +kernel
  obtain ⟨prompt, asked, answer, hasked, htext⟩ :=
    @answered_at (askedFor ⟨fun _ => []⟩ "calculator") 0 "调用工具 calculator({})"
      (by decide +kernel)
  have hcalled := listed_called (listing "calculator") none
    (obedient ⟨fun _ => []⟩ "calculator") 0 hname rfl hasked htext
  have hchars := List.all_eq_true.mp (show "calculator".toList.all ToolCall.isNameChar by decide)
  exact ⟨hname, prompt, asked, answer, hasked, htext, hcalled.1.mpr hchars⟩

theorem obedient_unread {clauses : ClauseSet} {name trailing : String}
    (hs : suffix (obedient clauses name).logged (tools (listing name)) = .ok trailing)
    (hx : ToolCall.extract ("调用工具 " ++ name ++ "({})") = none) :
    Agent.run (listing name) none (obedient clauses name).logged (0, []) =
      (.ok ⟨.ofText ("调用工具 " ++ name ++ "({})"), .done, 1, []⟩, 1,
        [.complete (prompt (listing name) none ++ trailing) model
          (.ok ⟨"调用工具 " ++ name ++ "({})", model⟩)]) := by
  have hask := @Context.logged_complete Nat (obedient clauses name)
    (prompt (listing name) none ++ trailing) model 0 1 _ rfl []
  simp only [Agent.run, hs, maxIterations, turns, hask, if_true, hx]
  rfl

/-- A tool with a hyphen in its name is listed in the prompt and asked for as
the prompt says, but the agent takes the question for its answer. -/
theorem hyphenated_lost :
    "web-search" ∈ tools (listing "web-search") ∧
      Agent.run (listing "web-search") none (obedient .builtin "web-search").logged (0, []) =
        (.ok ⟨.ofText "调用工具 web-search({})", .done, 1, []⟩, 1,
          [.complete ("请告诉我如何解决问题。\n\n你可用的工具：web-search\n\n" ++
              "如果你需要调用工具，请使用格式：调用工具 tool_name(" ++
              "\x7b\"param1\": \"value1\", \"param2\": \"value2\"\x7d)。" ++
              "\n\n否则直接给出答案。") model
            (.ok ⟨"调用工具 web-search({})", model⟩)]) := by
  have hs : suffix (obedient .builtin "web-search").logged (tools (listing "web-search")) =
      .ok ("\n\n你可用的工具：web-search\n\n" ++
        "如果你需要调用工具，请使用格式：调用工具 tool_name(" ++
        "\x7b\"param1\": \"value1\", \"param2\": \"value2\"\x7d)。" ++
        "\n\n否则直接给出答案。") := by
    decide +kernel
  have hx : (ToolCall.extract ("调用工具 " ++ "web-search" ++ "({})")).isNone = true := by
    decide +kernel
  refine ⟨by decide +kernel, ?_⟩
  rw [obedient_unread hs (Option.isNone_iff_eq_none.mp hx)]
  rfl

end Cardwalk.Agent
