import Cardwalk.Proofs.ToolCall.Followed

/-!
# Names of tools in directives

Every name that is read from a directive is made of letters, digits and
underscores. So a directive calls the tool that it names exactly if the name
is made of these.
-/

set_option autoImplicit false

namespace Cardwalk.ToolCall

/-- A name that can be read from a directive. -/
def Callable (name : String) : Prop := name ≠ "" ∧ ∀ c ∈ name.toList, isNameChar c = true

instance (name : String) : Decidable (Callable name) :=
  inferInstanceAs (Decidable (name ≠ "" ∧ ∀ c ∈ name.toList, isNameChar c = true))

theorem name_behindMarker {s name raw : List Char} (h : behindMarker s = some (name, raw)) :
    name ≠ [] ∧ ∀ c ∈ name, isNameChar c = true := by
  cases s with
  | nil => cases h
  | cons c s =>
    simp only [behindMarker] at h
    split_ifs at h with hblank hname
    split at h
    · obtain ⟨found, -, he⟩ := Option.map_eq_some_iff.mp h
      obtain ⟨rfl, rfl⟩ := Prod.mk.inj he
      refine ⟨fun he => hname (by rw [he]; rfl), fun c hc => ?_⟩
      exact List.mem_takeWhile_imp hc
    · cases h

theorem name_directiveHere {s name raw : List Char} (h : directiveHere s = some (name, raw)) :
    name ≠ [] ∧ ∀ c ∈ name, isNameChar c = true := by
  unfold directiveHere at h
  split_ifs at h
  exact name_behindMarker h

theorem name_findDirective {s name raw : List Char} (h : findDirective s = some (name, raw)) :
    name ≠ [] ∧ ∀ c ∈ name, isNameChar c = true := by
  induction s with
  | nil => cases h
  | cons c s ih =>
    rw [findDirective_cons] at h
    rcases Option.or_eq_some_iff.mp h with hhere | ⟨-, hlater⟩
    · exact name_directiveHere hhere
    · exact ih hlater

theorem extract_callable {text : String} {call : ToolCall} (h : extract text = some call) :
    Callable call.name := by
  unfold extract read at h
  cases hf : findDirective text.toList with
  | none => simp [hf] at h
  | some found =>
    obtain ⟨name, raw⟩ := found
    have hname := name_findDirective hf
    simp only [hf] at h
    cases hp : Json.parse (doubleQuotes raw) with
    | error e => simp [hp] at h
    | ok args =>
      simp only [hp, Option.some.injEq] at h
      subst h
      refine ⟨fun he => hname.1 ?_, by simpa using hname.2⟩
      simpa using congrArg String.toList he

def bare (name : String) : ToolCall := ⟨name, .object []⟩

theorem bare_writable {name : String} (h : Callable name) : Writable (bare name) where
  name_ne := h.1
  name_chars := h.2
  whole := by simp [bare, Whole]
  distinct := by simp [bare, Json.Distinct, Members.keys]
  unquoted := by simp [bare, Unquoted, Members.keys]

theorem directive_bare (name : String) :
    (bare name).directive = "调用工具 " ++ name ++ "({})" := by
  have hargs : (Json.object []).compact = "{}" := by decide
  have hmarker : String.ofList marker ++ " " = "调用工具 " := by decide
  rw [directive, bare, hargs, hmarker, String.append_assoc, String.append_assoc]
  rfl

theorem extract_bare {name : String} (h : Callable name) :
    extract ("调用工具 " ++ name ++ "({})") = some (bare name) := by
  have hw := bare_writable h
  have hfound := @findDirective_directive "" (by decide) _ hw
  have hparse : Json.parse (bare name).args.compactChars = .ok (bare name).args := rfl
  rw [String.empty_append] at hfound
  rw [← directive_bare, extract, read, hfound]
  simp only [doubleQuotes_args hw, hparse, String.ofList_toList]

end Cardwalk.ToolCall
