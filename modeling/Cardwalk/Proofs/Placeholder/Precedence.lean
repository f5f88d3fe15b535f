import Cardwalk.Proofs.Placeholder.Removal

/-!
# Which binding fills a token

A template is a row of literals and of tokens. The bindings go over the whole
text one after the other, and what is left is taken out; yet each token comes
to what the first binding of its name puts in that has anything to put in, and
to nothing where none has. This holds as long as no name of a binding reaches
from the end of one token into another.
-/

set_option autoImplicit false

namespace Cardwalk

/-- The text that a member is shown by. A tool result of `null` is shown by
none, and one that is no string by its JSON. -/
inductive Envelope.Shows (e : Envelope) : Field → String → Prop
  | value {s : String} (h : e.value = some s) : Shows e .value s
  | text {s : String} (h : e.text = some s) : Shows e .text s
  | content {s : String} (h : e.content = some s) : Shows e .content s
  | plain {s : String} (h : e.toolResult = some (.string s)) : Shows e .toolResult s
  | json {v : Json} (h : e.toolResult = some v) (hnull : v ≠ .null)
      (hstring : ∀ s, v ≠ .string s) : Shows e .toolResult v.compact

theorem Envelope.shows_of_toolResult {e : Envelope} {v : Json} (h : e.toolResult = some v)
    (hv : v ≠ .null) : e.Shows .toolResult v.display := by
  cases v with
  | string s => exact .plain h
  | null => exact absurd rfl hv
  | _ => exact .json h hv (by simp)

theorem Envelope.field_toolResult {e : Envelope} {v : Json} (h : e.toolResult = some v)
    (hv : v ≠ .null) : e.field .toolResult = some v.display := by
  cases v with
  | null => exact absurd rfl hv
  | _ => simp [field, h]

theorem Envelope.field_eq_some_iff (e : Envelope) (f : Field) (s : String) :
    e.field f = some s ↔ e.Shows f s := by
  constructor
  · intro h
    cases f with
    | value => exact .value h
    | text => exact .text h
    | content => exact .content h
    | toolResult =>
      cases hr : e.toolResult with
      | none => simp [field, hr] at h
      | some v =>
        have hv : v ≠ .null := by
          rintro rfl
          simp [field, hr] at h
        rw [field_toolResult hr hv] at h
        exact Option.some.inj h ▸ shows_of_toolResult hr hv
  · intro h
    cases h with
    | value h => exact h
    | text h => exact h
    | content h => exact h
    | plain h => exact field_toolResult h (by simp)
    | @json v h hnull hstring =>
      rw [field_toolResult h hnull]
      cases v with
      | string s => exact absurd rfl (hstring s)
      | _ => rfl

namespace Placeholder

/-- A name that closes a token and opens another one behind it. -/
def Spanning (name : List Char) : Prop :=
  ∃ before between after, name = before ++ ['}', '}'] ++ between ++ ['{', '{'] ++ after

theorem not_spanning_of_not_mem {name : List Char} (h : '}' ∉ name) : ¬ Spanning name := by
  rintro ⟨before, between, after, rfl⟩
  simp at h

inductive Piece where
  | literal (s : List Char)
  | token (name : List Char)

def Piece.WellFormed : Piece → Prop
  | .literal s => BraceFree s
  | .token name => BraceFree name ∧ '\n' ∉ name

instance (p : Piece) : Decidable p.WellFormed :=
  match p with
  | .literal s => inferInstanceAs (Decidable (BraceFree s))
  | .token name => inferInstanceAs (Decidable (BraceFree name ∧ '\n' ∉ name))

def Piece.chars : Piece → List Char
  | .literal s => s
  | .token name => Placeholder.token name

/-- The template that is made of the pieces. -/
def written (pieces : List Piece) : List Char := pieces.flatMap Piece.chars

/-- What the bindings of a name put in: the first of them decides that has a
member to put in. -/
def firstShown (previous : Option Envelope) (bindings : List Binding) (name : List Char) :
    Option String :=
  bindings.findSome? fun b =>
    if b.name.toList = name then previous.bind fun e => e.field b.field else none

def Piece.filled (previous : Option Envelope) (bindings : List Binding) : Piece → List Char
  | .literal s => s
  | .token name =>
    match firstShown previous bindings name with
    | some value => value.toList
    | none => []

theorem written_cons (p : Piece) (pieces : List Piece) :
    written (p :: pieces) = p.chars ++ written pieces := List.flatMap_cons

@[simp] theorem written_literal (s : List Char) (pieces : List Piece) :
    written (.literal s :: pieces) = s ++ written pieces := written_cons _ _

@[simp] theorem written_token (name : List Char) (pieces : List Piece) :
    written (.token name :: pieces) =
      '{' :: '{' :: (name ++ '}' :: '}' :: written pieces) := by
  simp [written_cons, Piece.chars, token]

theorem append_of_not_mem {c : Char} {s rest before after : List Char} (hc : c ∉ s)
    (h : s ++ rest = before ++ c :: after) :
    ∃ u, before = s ++ u ∧ rest = u ++ c :: after := by
  obtain ⟨u, hb, hr⟩ | ⟨u, hs, hr⟩ := List.append_eq_append_iff.mp h
  · exact ⟨u, hb, hr⟩
  · cases u with
    | nil => exact ⟨[], by simpa using hs.symm, by simpa using hr.symm⟩
    | cons d u =>
      obtain ⟨rfl, -⟩ := List.cons.inj hr
      exact absurd (by simp [hs]) hc

theorem opened_of_closed {pieces : List Piece} (hp : ∀ p ∈ pieces, p.WellFormed)
    {before after : List Char} (h : written pieces = before ++ '}' :: after) :
    ∃ left right, before = left ++ ['{', '{'] ++ right := by
  induction pieces generalizing before with
  | nil => simp [written] at h
  | cons p pieces ih =>
    rw [List.forall_mem_cons] at hp
    cases p with
    | literal s =>
      have hs : BraceFree s := hp.1
      rw [written_literal] at h
      obtain ⟨u, rfl, hu⟩ := append_of_not_mem hs.2 h
      obtain ⟨left, right, rfl⟩ := ih hp.2 hu
      exact ⟨s ++ left, right, by simp⟩
    | token name =>
      have hname : '}' ∉ '{' :: '{' :: name := by
        have hn : BraceFree name := hp.1.1
        simpa using hn.2
      rw [written_token] at h
      obtain ⟨u, rfl, -⟩ := append_of_not_mem hname h
      exact ⟨[], name ++ u, by simp⟩

/-- A token that stands at the head of a template is its first one, unless its
name reaches into another. -/
theorem name_eq_of_startsWith {pieces : List Piece} (hp : ∀ p ∈ pieces, p.WellFormed)
    {name other : List Char} (hn : BraceFree name) (hs : ¬ Spanning other)
    (h : Text.startsWith (token other) (written (.token name :: pieces)) = true) :
    other = name := by
  obtain ⟨rest, hrest⟩ := Text.startsWith_iff.mp h
  have hclose : name ++ '}' :: '}' :: written pieces = other ++ '}' :: '}' :: rest := by
    simpa [token] using hrest
  obtain ⟨u, rfl, hu⟩ := append_of_not_mem hn.2 hclose
  cases u with
  | nil => simp
  | cons c u =>
    cases u with
    | nil =>
      have hbrace : written pieces = [] ++ '}' :: rest := by simpa using (List.cons.inj hu).2
      obtain ⟨left, right, hnil⟩ := opened_of_closed hp hbrace
      simp at hnil
    | cons d u =>
      obtain ⟨rfl, rfl, hclosed⟩ :
          '}' = c ∧ '}' = d ∧ written pieces = u ++ '}' :: '}' :: rest := by
        simpa using hu
      obtain ⟨left, right, rfl⟩ := opened_of_closed hp hclosed
      exact absurd ⟨name, left, right, by simp⟩ hs

def Piece.put (name value : List Char) : Piece → Piece
  | .literal s => .literal s
  | .token other => if name = other then .literal value else .token other

theorem substitute_token_cons {pieces : List Piece} (hp : ∀ p ∈ pieces, p.WellFormed)
    {name other : List Char} (hn : BraceFree other) (hs : ¬ Spanning name) (hne : name ≠ other)
    (value : List Char) :
    substitute name value (written (.token other :: pieces)) =
      token other ++ substitute name value (written pieces) := by
  have hhead : Text.startsWith (token name) (written (.token other :: pieces)) = false :=
    Bool.eq_false_iff.mpr fun h => hne (name_eq_of_startsWith hp hn hs h)
  have hlater : '{' ∉ other ++ ['}', '}'] := by simpa using hn.1
  -- No token begins at the second brace, since no third one follows.
  have hsecond : Text.startsWith (token name)
      ('{' :: (other ++ '}' :: '}' :: written pieces)) = false := by
    cases other with
    | nil => rfl
    | cons c other =>
      have hc : '{' ≠ c := fun e => hn.1 (List.mem_cons.mpr (.inl e))
      simp [token, Text.startsWith, hc]
  have hrest := Text.replace_append_left hlater ('{' :: (name ++ ['}', '}'])) value
    (written pieces)
  rw [written_token] at hhead ⊢
  rw [substitute, Text.replace_cons hhead, Text.replace_cons hsecond]
  simpa [token, substitute] using hrest

theorem substitute_written {pieces : List Piece} (hp : ∀ p ∈ pieces, p.WellFormed)
    {name : List Char} (hs : ¬ Spanning name) (value : List Char) :
    substitute name value (written pieces) = written (pieces.map (Piece.put name value)) := by
  induction pieces with
  | nil => rfl
  | cons p pieces ih =>
    rw [List.forall_mem_cons] at hp
    have hrest := ih hp.2
    cases p with
    | literal s =>
      have hl : BraceFree s := hp.1
      have happend := Text.replace_append_left hl.1 ('{' :: (name ++ ['}', '}'])) value
        (written pieces)
      rw [List.map_cons, Piece.put, written_literal, written_literal, ← hrest]
      exact happend
    | token other =>
      rw [List.map_cons, Piece.put]
      by_cases hne : name = other
      · subst hne
        rw [if_pos rfl]
        have hmatch := Text.replace_match '{' ('{' :: (name ++ ['}', '}'])) value (written pieces)
        rw [written_literal, ← hrest, written_cons]
        exact hmatch
      · rw [if_neg hne, substitute_token_cons hp.2 hp.1.1 hs hne, hrest, written_cons]
        rfl

section Bindings

variable {previous : Option Envelope}

def Piece.bound (previous : Option Envelope) (b : Binding) (p : Piece) : Piece :=
  match previous.bind fun e => e.field b.field with
  | some value => p.put b.name.toList value.toList
  | none => p

theorem applyBinding_written {pieces : List Piece} (hp : ∀ p ∈ pieces, p.WellFormed)
    {b : Binding} (hs : ¬ Spanning b.name.toList) :
    applyBinding previous (written pieces) b = written (pieces.map (Piece.bound previous b)) := by
  unfold applyBinding Piece.bound
  cases previous.bind fun e => e.field b.field with
  | none => simp
  | some value => exact substitute_written hp hs value.toList

theorem Piece.wellFormed_bound {b : Binding}
    (hv : ∀ value, (previous.bind fun e => e.field b.field) = some value → BraceFree value.toList)
    {p : Piece} (hp : p.WellFormed) : (p.bound previous b).WellFormed := by
  unfold bound
  cases hb : previous.bind fun e => e.field b.field with
  | none => exact hp
  | some value =>
    cases p with
    | literal s => exact hp
    | token name =>
      change (if b.name.toList = name then literal value.toList else token name).WellFormed
      by_cases hn : b.name.toList = name
      · rw [if_pos hn]
        exact hv value hb
      · rw [if_neg hn]
        exact hp

theorem Piece.filled_bound (b : Binding) (bindings : List Binding) (p : Piece) :
    (p.bound previous b).filled previous bindings = p.filled previous (b :: bindings) := by
  cases p with
  | literal s =>
    unfold bound
    cases previous.bind fun e => e.field b.field <;> rfl
  | token name =>
    unfold bound
    by_cases hn : b.name.toList = name <;>
      cases hb : previous.bind fun e => e.field b.field <;>
      simp [filled, put, firstShown, hn, hb]

theorem closingAt_name {name : List Char} (hn : BraceFree name) (hline : '\n' ∉ name)
    (rest : List Char) : closingAt (name ++ '}' :: '}' :: rest) = some (name.length + 2) := by
  induction name with
  | nil => rfl
  | cons c name ih =>
    have hc : c ≠ '}' := fun e => hn.2 (by simp [e])
    have hnewline : c ≠ '\n' := fun e => hline (by simp [e])
    have hname : BraceFree name := ⟨fun hm => hn.1 (by simp [hm]), fun hm => hn.2 (by simp [hm])⟩
    rw [List.cons_append, closingAt, if_neg hnewline, ih hname fun hm => hline (by simp [hm])]
    · rfl
    · exact fun _ h => absurd h hc

theorem strip_written {pieces : List Piece} (hp : ∀ p ∈ pieces, p.WellFormed) :
    strip (written pieces) = pieces.flatMap (Piece.filled previous []) := by
  induction pieces with
  | nil => rfl
  | cons p pieces ih =>
    rw [List.forall_mem_cons] at hp
    rw [List.flatMap_cons, ← ih hp.2]
    cases p with
    | literal s =>
      have hs : BraceFree s := hp.1
      rw [written_literal]
      exact stripFrom_append_left hs.1 _
    | token name =>
      have hclose := closingAt_name hp.1.1 hp.1.2 (written pieces)
      rw [written_token, strip, stripFrom, hclose]
      simp [stripFrom_eq_drop, Piece.filled, firstShown]

theorem strip_applyAll_written {bindings : List Binding}
    (hs : ∀ b ∈ bindings, ¬ Spanning b.name.toList)
    (hv : ∀ b ∈ bindings, ∀ value, (previous.bind fun e => e.field b.field) = some value →
      BraceFree value.toList)
    {pieces : List Piece} (hp : ∀ p ∈ pieces, p.WellFormed) :
    strip (applyAll previous bindings (written pieces)) =
      pieces.flatMap (Piece.filled previous bindings) := by
  induction bindings generalizing pieces with
  | nil => exact strip_written hp
  | cons b bindings ih =>
    rw [List.forall_mem_cons] at hs hv
    have hbound : ∀ p ∈ pieces.map (Piece.bound previous b), p.WellFormed :=
      List.forall_mem_map.mpr fun p hm => Piece.wellFormed_bound hv.1 (hp p hm)
    have hrest := ih hs.2 hv.2 hbound
    rw [applyAll, List.foldl_cons, applyBinding_written hp hs.1]
    rw [applyAll] at hrest
    rw [hrest, List.flatMap_map]
    exact congrArg pieces.flatMap (funext (Piece.filled_bound b bindings))

end Bindings

/-- Every token of a template comes to what the first binding of its name that
has something to put in shows, everywhere it stands, and to nothing where no
binding has. -/
theorem first_binding_fills {previous : Option Envelope} {bindings : List Binding}
    {pieces : List Piece} (hp : ∀ p ∈ pieces, p.WellFormed)
    (hs : ∀ b ∈ bindings, ¬ Spanning b.name.toList)
    (hv : ∀ b ∈ bindings, ∀ e ∈ previous, ∀ value, e.Shows b.field value →
      BraceFree value.toList) :
    resolve previous bindings (String.ofList (written pieces)) =
        String.ofList (pieces.flatMap (Piece.filled previous bindings)) ∧
      ∀ (e : Envelope) (f : Field) (s : String), e.field f = some s ↔ e.Shows f s := by
  have hfree : ∀ b ∈ bindings, ∀ value, (previous.bind fun e => e.field b.field) = some value →
      BraceFree value.toList := by
    intro b hb value h
    obtain ⟨e, he, hvalue⟩ := Option.bind_eq_some_iff.mp h
    exact hv b hb e he value ((e.field_eq_some_iff b.field value).mp hvalue)
  refine ⟨?_, Envelope.field_eq_some_iff⟩
  rw [resolve, String.toList_ofList, strip_applyAll_written hs hfree hp]

def crowded : List Binding :=
  [⟨"a", .content⟩, ⟨"a", .value⟩, ⟨"a", .text⟩, ⟨"b", .toolResult⟩]

def answered : Envelope :=
  { value := some "V", text := some "T", toolResult := some (.array [.bool true, .null]) }

def repeated : List Piece :=
  [.literal ['<'], .token ['a'], .token ['a'], .token ['b'], .literal ['\n'], .token ['c'],
    .token ['a'], .literal ['>']]

theorem first_binding_fills_repeated :
    resolve (some answered) crowded (String.ofList (written repeated)) = "<VV[true,null]\nV>" := by
  have hp : ∀ p ∈ repeated, p.WellFormed := by decide
  have hnames : ∀ b ∈ crowded, '}' ∉ b.name.toList := by decide
  have hfields : ∀ b ∈ crowded, ∀ value ∈ answered.field b.field, BraceFree value.toList := by
    decide +kernel
  have hs : ∀ b ∈ crowded, ¬ Spanning b.name.toList :=
    fun b hb => not_spanning_of_not_mem (hnames b hb)
  have hv : ∀ b ∈ crowded, ∀ e ∈ some answered, ∀ value, e.Shows b.field value →
      BraceFree value.toList := by
    rintro b hb e ⟨⟩ value h
    exact hfields b hb value ((answered.field_eq_some_iff b.field value).mpr h)
  exact (first_binding_fills hp hs hv).1.trans (by decide +kernel)

/-- A binding whose name reaches from one token into another takes the place of
both, although nothing is bound to either. -/
theorem spanning_binding_fills :
    (∀ p ∈ [Piece.token ['a'], .literal [' '], .token ['b']], p.WellFormed) ∧
      BraceFree "V".toList ∧
      resolve (some (.ofValue "V")) [⟨"a\x7d\x7d \x7b\x7bb", .value⟩]
        (String.ofList (written [.token ['a'], .literal [' '], .token ['b']])) = "V" ∧
      [Piece.token ['a'], .literal [' '], .token ['b']].flatMap (Piece.filled
        (some (.ofValue "V")) [⟨"a\x7d\x7d \x7b\x7bb", .value⟩]) = [' '] := by
  decide +kernel

end Placeholder

end Cardwalk
