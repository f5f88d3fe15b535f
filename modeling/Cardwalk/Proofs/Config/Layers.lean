import Cardwalk.Config.Load
import Cardwalk.Proofs.Json.Record
import Cardwalk.Proofs.Text.Utf8

/-!
# What a loaded configuration holds

Two files make up a configuration. A value that is the built-in one does not
count as set, so a project cannot go back to a default that the user changed.
-/

set_option autoImplicit false

namespace Cardwalk

open Json.Decoder

theorem ClauseKind.name_injective {k k' : ClauseKind} (h : k.name = k'.name) : k = k' := by
  cases k <;> cases k' <;> simp_all [ClauseKind.name]

/-- A key of a section: how it is read, and where the configuration has it. -/
structure Setting where
  Value : Type
  same : BEq Value
  heading : String
  fields : Json → Members
  key : String
  read : Json.Decoder Value
  get : Config → Value

namespace Setting

instance (s : Setting) : BEq s.Value := s.same

def standard (s : Setting) : s.Value := s.get {}

/-- What a layer sets. A section is one bracket deep and a field in it two. -/
def setBy (s : Setting) (layer : Members) : Option s.Value :=
  ((layer.get? s.heading).bind fun v => (s.fields v).get? s.key).bind fun v =>
    (s.read .settings (Json.maxDepth - 1 - 1) (Json.Doc.ofJson v)).toOption

def latest (s : Setting) (user project : Members) : s.Value :=
  (((s.setBy project).filter (· != s.standard)).or
    ((s.setBy user).filter (· != s.standard))).getD s.standard

abbrev within {ρ α : Type} [BEq α] (heading : String) (kind : RecordKind ρ) (part : Config → ρ)
    (key : String) (read : Json.Decoder α) (get : ρ → α) : Setting :=
  ⟨α, inferInstance, heading, kind.fields, key, read, fun c => get (part c)⟩

structure Lawful (s : Setting) : Prop where
  standard_same : (s.standard == s.standard) = true
  read_layer : ∀ (layer : Members) (c : Config), Config.ofSections layer = some c →
    s.get c = (s.setBy layer).getD s.standard
  get_merge : ∀ base later : Config, s.get (base.merge later) =
    if s.get later == s.standard then s.get base else s.get later

abbrev completion {α : Type} [BEq α] (key : String) (read : Json.Decoder α)
    (get : CompletionConfig → α) : Setting :=
  within "completion" CompletionConfig.recordKind (·.completion) key read get

abbrev pacing : Setting :=
  within "defaults" Defaults.recordKind (·.defaults) "pacing_delay_ms" word (·.pacingMs)

abbrev database : Setting :=
  within "retrieval" RetrievalConfig.recordKind (·.retrieval) "database" (nullable text)
    (·.database)

abbrev clause (k : ClauseKind) : Setting :=
  within "agent" ClauseTexts.recordKind (·.agent) k.name (nullable text) (·.get k)

abbrev timeout : Setting := completion "timeout" word (·.timeout)

def completions : List Setting :=
  [completion "url" (nullable text) (·.url),
   completion "api_key" (nullable text) (·.apiKey),
   completion "api_key_env" (nullable text) (·.apiKeyEnv),
   completion "model" text (·.model),
   timeout,
   completion "temperature" single (·.temperature),
   completion "max_tokens" halfWord (·.maxTokens),
   completion "max_retries" halfWord (·.maxRetries),
   completion "retry_delay_ms" word (·.retryDelayMs)]

def all : List Setting := pacing :: completions ++ database :: ClauseKind.all.map clause

theorem all_keys : all.map (fun s => (s.heading, s.key)) =
    Defaults.recordKind.keys.map ("defaults", ·) ++
    CompletionConfig.recordKind.keys.map ("completion", ·) ++
    RetrievalConfig.recordKind.keys.map ("retrieval", ·) ++
    ClauseTexts.recordKind.keys.map ("agent", ·) := by
  decide +kernel

theorem toOption_given {α : Type} {d : Json.Decoder α} {depth : Nat} {standard a : α}
    {v : Option Json} (h : Given d .settings depth standard a (v.map Json.Doc.ofJson)) :
    a = (v.bind fun v => (d .settings depth (Json.Doc.ofJson v)).toOption).getD standard := by
  cases v with
  | none => exact h
  | some v =>
    have hv : d .settings depth (Json.Doc.ofJson v) = .ok a := h
    simp [hv, Except.toOption]

theorem lawful_within {ρ α : Type} [BEq α] {heading : String} {kind : RecordKind ρ}
    {part : Config → ρ} {key : String} {read : Json.Decoder α} {get : ρ → α}
    (hsection : Config.recordKind.Field heading kind.decoder part)
    (hblank : part {} = kind.blank) (hfield : kind.Field key read get)
    (hsame : (get kind.blank == get kind.blank) = true)
    (hmerge : ∀ base later : Config, get (part (base.merge later)) =
      if get (part later) == get kind.blank then get (part base) else get (part later)) :
    Lawful (within heading kind part key read get) where
  standard_same := by
    show (get (part {}) == get (part {})) = true
    rw [hblank]
    exact hsame
  get_merge base later := by
    show get (part (base.merge later)) =
      if get (part later) == get (part {}) then get (part base) else get (part later)
    rw [hblank]
    exact hmerge base later
  read_layer layer c h := by
    have hlayer : Config.recordKind.decoder .settings Json.maxDepth
        (Json.Doc.ofJson (.object layer)) = .ok c := by
      unfold Config.ofSections Json.decodeSettings at h
      split at h
      · rename_i hc
        rw [hc, Option.some.inj h]
      · simp at h
    have hpart : Given kind.decoder .settings (Json.maxDepth - 1) (part {}) (part c)
        ((layer.get? heading).map Json.Doc.ofJson) := hsection.decoder hlayer
    rw [hblank] at hpart
    show get (part c) = ((((layer.get? heading).bind fun v => (kind.fields v).get? key)).bind
      fun v => (read .settings (Json.maxDepth - 1 - 1) (Json.Doc.ofJson v)).toOption).getD
        (get (part {}))
    rw [hblank]
    cases hv : layer.get? heading with
    | none =>
      rw [hv] at hpart
      exact congrArg get hpart
    | some v =>
      rw [hv] at hpart
      exact toOption_given (hfield.decoder hpart)

theorem standard_or {α : Type} [BEq α] [LawfulBEq α] (later base : Option α) :
    later.or base = if later == none then base else later := by
  cases later with
  | none => simp
  | some a => simp

theorem section_defaults :
    Config.recordKind.Field "defaults" Defaults.recordKind.decoder (·.defaults) where
  known := by decide
  distinct := by decide
  writes := by simp [Config.recordKind, writes_own, writes_other]

theorem section_completion :
    Config.recordKind.Field "completion" CompletionConfig.recordKind.decoder (·.completion) where
  known := by decide
  distinct := by decide
  writes := by simp [Config.recordKind, CompletionConfig.decoder, writes_own, writes_other]

theorem section_retrieval :
    Config.recordKind.Field "retrieval" RetrievalConfig.recordKind.decoder (·.retrieval) where
  known := by decide
  distinct := by decide
  writes := by simp [Config.recordKind, RetrievalConfig.decoder, writes_own, writes_other]

theorem section_agent :
    Config.recordKind.Field "agent" ClauseTexts.recordKind.decoder (·.agent) where
  known := by decide
  distinct := by decide
  writes := by simp [Config.recordKind, ClauseTexts.decoder, writes_own, writes_other]

theorem lawful_pacing : Lawful pacing := by
  apply lawful_within section_defaults rfl
  · exact ⟨by decide, by decide, by simp [Defaults.recordKind, writes_own]⟩
  · rfl
  · intro base later
    rfl

theorem lawful_database : Lawful database := by
  apply lawful_within section_retrieval rfl
  · exact ⟨by decide, by decide, by simp [RetrievalConfig.recordKind, writes_own]⟩
  · rfl
  · intro base later
    exact standard_or later.retrieval.database base.retrieval.database

theorem lawful_clause (k : ClauseKind) : Lawful (clause k) := by
  have hmem : k ∈ ClauseKind.all := by cases k <;> decide
  apply lawful_within section_agent rfl
  · refine ⟨?_, by decide, ?_⟩
    · simpa [RecordKind.keys, ClauseTexts.recordKind, slot] using ⟨k, hmem, rfl⟩
    · intro s hs
      obtain ⟨k', -, rfl⟩ := List.mem_map.mp hs
      by_cases h : k' = k
      · subst h
        exact writes_own fun v t => by cases k' <;> rfl
      · refine writes_other (fun he => h (ClauseKind.name_injective he)) fun v t => ?_
        cases k <;> cases k' <;> first | rfl | exact absurd rfl h
  · cases k <;> rfl
  · intro base later
    cases k <;> exact standard_or _ _

variable {α : Type} [BEq α] {key : String} {read : Json.Decoder α} {get : CompletionConfig → α}

theorem lawful_completion (hkey : key ∈ CompletionConfig.recordKind.keys)
    (hwrites : ∀ s ∈ CompletionConfig.recordKind.slots, Writes key read get s)
    (hsame : (get {} == get {}) = true)
    (hmerge : ∀ base later : CompletionConfig, get (base.merge later) =
      if get later == get {} then get base else get later) :
    Lawful (completion key read get) :=
  lawful_within section_completion rfl ⟨hkey, by decide, hwrites⟩ hsame
    fun base later => hmerge base.completion later.completion

theorem lawful_completions {s : Setting} (hs : s ∈ completions) : Lawful s := by
  simp only [completions, List.mem_cons, List.not_mem_nil, or_false] at hs
  rcases hs with rfl | rfl | rfl | rfl | rfl | rfl | rfl | rfl | rfl
  all_goals
    refine lawful_completion (by decide) ?_ (by decide) ?_
    · simp [CompletionConfig.recordKind, writes_own, writes_other]
    intro base later
  · exact standard_or later.url base.url
  · exact standard_or later.apiKey base.apiKey
  · exact standard_or later.apiKeyEnv base.apiKeyEnv
  all_goals rfl

theorem lawful_all {s : Setting} (hs : s ∈ all) : Lawful s := by
  simp only [all, List.cons_append, List.mem_cons, List.mem_append] at hs
  rcases hs with rfl | hs | rfl | hs
  · exact lawful_pacing
  · exact lawful_completions hs
  · exact lawful_database
  · obtain ⟨k, -, rfl⟩ := List.mem_map.mp hs
    exact lawful_clause k

variable {s : Setting}

/-- The value after a layer was merged into one that has a value already. -/
def overlay (s : Setting) (base : s.Value) (layer : Members) : s.Value :=
  ((s.setBy layer).filter (· != s.standard)).getD base

theorem Lawful.get_add (h : Lawful s) {layer : Members} {later : Config}
    (hl : Config.ofSections layer = some later) (base : Config) :
    s.get (base.merge later) = s.overlay (s.get base) layer := by
  rw [h.get_merge, h.read_layer layer later hl, overlay]
  -- What is not set is read as the standard value, and merging takes that for not set.
  cases hv : s.setBy layer with
  | none => simp [h.standard_same]
  | some v =>
    by_cases hs : v == s.standard
    · simp [Option.filter, hs, bne]
    · simp [Option.filter, hs, bne]

theorem overlay_overlay (user project : Members) :
    s.overlay (s.overlay s.standard user) project = s.latest user project := by
  unfold overlay latest
  cases (s.setBy project).filter (· != s.standard) <;> rfl

end Setting

namespace Config

open Setting

inductive Accepted (w : Workspace) : Option String → Members → Prop where
  | absent (path : Option String) (h : ∀ p, path = some p → w.fileExists p = false) :
      Accepted w path []
  | read (p : String) (t : List Char) (layer : Members) (hread : w.readText p = .ok t)
      (hlayer : Toml.read t = some layer) (hok : (ofSections layer).isSome) :
      Accepted w (some p) layer

theorem addFile_accepted {w : Workspace} {path : Option String} {layer : Members}
    (h : Accepted w path layer) (base : Config) :
    ∃ c, addFile w path base = .ok c ∧ ∀ s ∈ all, s.get c = s.overlay (s.get base) layer := by
  cases h with
  | absent _ h =>
    refine ⟨base, ?_, fun s _ => rfl⟩
    cases path with
    | none => rfl
    | some p => simp [addFile, h p rfl]
  | read p t _ hread hlayer hok =>
    obtain ⟨later, hlater⟩ := Option.isSome_iff_exists.mp hok
    have hfile : ofFile w p = .ok later := by
      simp [ofFile, hread, ofText, hlayer, hlater]
    have hexists : w.fileExists p = true := by
      unfold Workspace.readText at hread
      unfold Workspace.fileExists
      cases hf : w.find p with
      | error e => simp [hf] at hread
      | ok found => rfl
    refine ⟨base.merge later, ?_, fun s hs => (lawful_all hs).get_add hlater base⟩
    simp [addFile, hexists, hfile, Except.map]

/-- What is loaded is under every key the last value that is not the built-in
one, and the built-in one if neither file sets another. -/
theorem load_latest {w : Workspace} {folder : Option String} {user project : Members}
    (hu : Accepted w (userPath w) user) (hp : Accepted w (some (projectPath folder)) project) :
    ∃ c, load w folder = .ok c ∧ ∀ s ∈ all, s.get c = s.latest user project := by
  obtain ⟨cu, hcu, hgetu⟩ := addFile_accepted hu {}
  obtain ⟨c, hc, hget⟩ := addFile_accepted hp cu
  refine ⟨c, by rw [load, hcu]; exact hc, ?_⟩
  intro s hs
  rw [hget s hs, hgetu s hs]
  exact overlay_overlay user project

def layerOf (t : List Char) : Members := (Toml.read t).getD []

theorem accepted_ofText {w : Workspace} {p : String} {t : List Char}
    (hread : w.readText p = .ok t) (hok : (ofText t).isSome) :
    Accepted w (some p) (layerOf t) := by
  unfold ofText at hok
  cases hlayer : Toml.read t with
  | none => simp [hlayer] at hok
  | some layer =>
    rw [hlayer] at hok
    rw [layerOf, hlayer]
    exact .read p t layer hread hlayer hok

def minute : List Char := "[completion]\ntimeout = 60\n".toList

def fiveMinutes : List Char := "[completion]\ntimeout = 300\n".toList

def waiting : Workspace :=
  { entries :=
      [(["home", ".config", "cardflow", "config.toml"], .file (.bytes (Text.encode minute))),
       (["p", ".cardflow", "config.toml"], .file (.bytes (Text.encode fiveMinutes)))]
    here := ["p"]
    environment := [("HOME", "/home")] }

theorem load_latest_waiting : ∃ c, load waiting none = .ok c ∧ c.completion.timeout = 60 := by
  have hpath : userPath waiting = some "/home/.config/cardflow/config.toml" := by
    decide +kernel
  have hu : Accepted waiting (userPath waiting) (layerOf minute) := by
    rw [hpath]
    exact accepted_ofText (by decide +kernel) (by decide +kernel)
  have hp : Accepted waiting (some (projectPath none)) (layerOf fiveMinutes) :=
    accepted_ofText (by decide +kernel) (by decide +kernel)
  obtain ⟨c, hc, hs⟩ := load_latest hu hp
  have hmem : timeout ∈ all := by simp [all, completions]
  have hlatest : timeout.latest (layerOf minute) (layerOf fiveMinutes) = (60 : Nat) := by
    decide +kernel
  exact ⟨c, hc, (hs timeout hmem).trans hlatest⟩

/-- The project sets the built-in value and does not get it. -/
theorem project_default_lost :
    timeout.setBy (layerOf fiveMinutes) = some (300 : Nat) ∧
    (load waiting none).toOption.map (·.completion.timeout) = some 60 := by
  decide +kernel

end Config

end Cardwalk
