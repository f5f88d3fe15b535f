import Cardwalk.Placeholder

/-!
# What is put in the place of a token

A text without braces around a token stays as it is. The text put in the
place of the token does not: the bindings behind it and the last pass go over
it as well, and find the tokens that it holds.
-/

set_option autoImplicit false

namespace Cardwalk

namespace Text

theorem startsWith_of_not_mem {piece s : List Char} {q : Char} (hq : q ∈ piece) (h : q ∉ s) :
    startsWith piece s = false := by
  apply Bool.eq_false_iff.mpr
  intro hs
  obtain ⟨rest, rfl⟩ := startsWith_iff.mp hs
  exact h (List.mem_append_left rest hq)

theorem startsWith_append_right {q : Char} {r : List Char} (h : q ∉ r) (piece s : List Char) :
    startsWith (piece ++ [q]) (s ++ r) = startsWith (piece ++ [q]) s := by
  induction s generalizing piece with
  | nil =>
    have hq : q ∈ piece ++ [q] := by simp
    rw [List.nil_append, startsWith_of_not_mem hq h, startsWith_of_not_mem hq (by simp)]
  | cons c s ih =>
    cases piece with
    | nil => simp [startsWith]
    | cons p piece => simp [startsWith, ih]

theorem replace_cons {piece s : List Char} {c : Char} (h : startsWith piece (c :: s) = false)
    (value : List Char) : replace piece value (c :: s) = c :: replace piece value s := by
  rw [replace, replaceFrom, h]
  rfl

theorem replace_of_not_mem {piece s : List Char} {q : Char} (hq : q ∈ piece) (h : q ∉ s)
    (value : List Char) : replace piece value s = s := by
  induction s with
  | nil => rfl
  | cons c s ih =>
    rw [replace_cons (startsWith_of_not_mem hq h), ih fun hm => h (by simp [hm])]

theorem replace_append_left {p : Char} {l : List Char} (h : p ∉ l) (piece value s : List Char) :
    replace (p :: piece) value (l ++ s) = l ++ replace (p :: piece) value s := by
  induction l with
  | nil => rfl
  | cons c l ih =>
    have hc : p ≠ c := fun e => h (by simp [e])
    have hl : p ∉ l := fun hm => h (by simp [hm])
    have hs : startsWith (p :: piece) (c :: (l ++ s)) = false := by simp [startsWith, hc]
    rw [List.cons_append, replace_cons hs, ih hl, List.cons_append]

theorem replaceFrom_append_right {q : Char} {r : List Char} (h : q ∉ r)
    (piece value s : List Char) {k : Nat} (hk : k ≤ s.length) :
    replaceFrom (piece ++ [q]) value k (s ++ r) = replaceFrom (piece ++ [q]) value k s ++ r := by
  induction s generalizing k with
  | nil =>
    obtain rfl : k = 0 := by simpa using hk
    exact replace_of_not_mem (by simp) h value
  | cons c s ih =>
    cases k with
    | succ k => exact ih (by simpa using hk)
    | zero =>
      have hs := startsWith_append_right h piece (c :: s)
      rw [List.cons_append] at hs
      rw [List.cons_append, replaceFrom, replaceFrom, hs]
      by_cases hm : startsWith (piece ++ [q]) (c :: s)
      · obtain ⟨rest, hrest⟩ := startsWith_iff.mp hm
        have hlen := congrArg List.length hrest
        simp only [List.length_cons, List.length_append] at hlen
        rw [if_pos hm, if_pos hm, ih (by simp; omega), List.append_assoc]
      · rw [if_neg hm, if_neg hm, ih (Nat.zero_le _), List.cons_append]

theorem replace_append_right {q : Char} {r : List Char} (h : q ∉ r) (piece value s : List Char) :
    replace (piece ++ [q]) value (s ++ r) = replace (piece ++ [q]) value s ++ r :=
  replaceFrom_append_right h piece value s (Nat.zero_le _)

theorem replaceFrom_eq_drop (piece value : List Char) (k : Nat) (s : List Char) :
    replaceFrom piece value k s = replace piece value (s.drop k) := by
  induction s generalizing k with
  | nil => simp [replace, replaceFrom]
  | cons c s ih =>
    cases k with
    | zero => rfl
    | succ k => exact ih k

theorem replace_match (p : Char) (piece value s : List Char) :
    replace (p :: piece) value (p :: piece ++ s) = value ++ replace (p :: piece) value s := by
  have hs := startsWith_append (p :: piece) s
  rw [List.cons_append] at hs ⊢
  rw [replace, replaceFrom, if_pos hs, replaceFrom_eq_drop]
  simp

theorem replace_self (p : Char) (piece value : List Char) :
    replace (p :: piece) value (p :: piece) = value := by
  have h := replace_match p piece value []
  simpa [replace, replaceFrom] using h

theorem occurs_of_not_mem {piece s : List Char} {q : Char} (hq : q ∈ piece) (h : q ∉ s) :
    occurs piece s = false := by
  induction s with
  | nil =>
    have hne := List.ne_nil_of_mem hq
    simpa [occurs] using hne
  | cons c s ih =>
    rw [occurs, startsWith_of_not_mem hq h, Bool.false_or]
    exact ih fun hm => h (by simp [hm])

theorem occurs_append {piece : List Char} (hne : piece ≠ []) (l r : List Char) :
    occurs piece (l ++ (piece ++ r)) = true := by
  induction l with
  | nil =>
    obtain ⟨p, rest, rfl⟩ := List.exists_cons_of_ne_nil hne
    have hs := startsWith_append (p :: rest) r
    simp only [List.nil_append, List.cons_append] at hs ⊢
    rw [occurs, hs, Bool.true_or]
  | cons c l ih => simp [occurs, ih]

theorem startsWith_of_append {piece more s : List Char} (h : startsWith piece s = false) :
    startsWith (piece ++ more) s = false := by
  apply Bool.eq_false_iff.mpr
  intro hs
  obtain ⟨rest, rfl⟩ := startsWith_iff.mp hs
  rw [List.append_assoc, startsWith_append] at h
  exact Bool.noConfusion h

theorem occurs_of_append {piece more s : List Char} (hne : piece ≠ [])
    (h : occurs piece s = false) : occurs (piece ++ more) s = false := by
  induction s with
  | nil => simp [occurs, hne]
  | cons c s ih =>
    rw [occurs, Bool.or_eq_false_iff] at h ⊢
    exact ⟨startsWith_of_append h.1, ih h.2⟩

theorem replace_of_not_occurs {piece s : List Char} (h : occurs piece s = false)
    (value : List Char) : replace piece value s = s := by
  induction s with
  | nil => rfl
  | cons c s ih =>
    rw [occurs, Bool.or_eq_false_iff] at h
    rw [replace_cons h.1, ih h.2]

end Text

namespace Placeholder

/-- Neither an opening nor a closing brace. -/
def BraceFree (s : List Char) : Prop := '{' ∉ s ∧ '}' ∉ s

instance (s : List Char) : Decidable (BraceFree s) :=
  inferInstanceAs (Decidable ('{' ∉ s ∧ '}' ∉ s))

theorem token_eq (name : List Char) : token name = '{' :: '{' :: (name ++ ['}']) ++ ['}'] := by
  simp [token]

theorem substitute_between {left right : List Char} (hl : BraceFree left) (hr : BraceFree right)
    (name value s : List Char) :
    substitute name value (left ++ s ++ right) = left ++ substitute name value s ++ right := by
  have hright := Text.replace_append_right hr.2 ('{' :: '{' :: (name ++ ['}'])) value s
  have hleft := Text.replace_append_left hl.1 ('{' :: (name ++ ['}', '}'])) value (s ++ right)
  rw [← token_eq] at hright
  rw [List.append_assoc, List.append_assoc]
  exact hleft.trans (congrArg (left ++ ·) hright)

theorem substitute_token {left right : List Char} (hl : BraceFree left) (hr : BraceFree right)
    (name value : List Char) :
    substitute name value (left ++ token name ++ right) = left ++ value ++ right := by
  rw [substitute_between hl hr]
  exact congrArg (left ++ · ++ right) (Text.replace_self '{' _ value)

theorem startsWith_closing {name other : List Char} (h : BraceFree name) (hne : other ≠ name) :
    Text.startsWith (other ++ ['}', '}']) (name ++ ['}', '}']) = false := by
  induction name generalizing other with
  | nil =>
    apply Bool.eq_false_iff.mpr
    intro hs
    obtain ⟨rest, hrest⟩ := Text.startsWith_iff.mp hs
    have hlen := congrArg List.length hrest
    simp only [List.nil_append, List.length_append] at hlen
    exact hne (List.eq_nil_of_length_eq_zero (by omega))
  | cons c name ih =>
    have hc : c ≠ '}' := fun e => h.2 (by simp [e])
    have hname : BraceFree name := ⟨fun hm => h.1 (by simp [hm]), fun hm => h.2 (by simp [hm])⟩
    cases other with
    | nil => simp [Text.startsWith, Ne.symm hc]
    | cons d other =>
      by_cases hd : d = c
      · have hne' : other ≠ name := fun e => hne (by rw [hd, e])
        simp [Text.startsWith, hd, ih hname hne']
      · simp [Text.startsWith, hd]

theorem occurs_token {name other : List Char} (h : BraceFree name) (hne : other ≠ name) :
    Text.occurs (token other) (token name) = false := by
  have hn : '{' ∉ name ++ ['}', '}'] := by simpa using h.1
  have hfirst := startsWith_closing h hne
  have hsecond : Text.startsWith ('{' :: (other ++ ['}', '}'])) (name ++ ['}', '}']) = false :=
    Text.startsWith_of_not_mem (by simp) hn
  have hthird : Text.occurs (token other) (name ++ ['}', '}']) = false :=
    Text.occurs_of_not_mem (by simp [token]) hn
  simp only [token, List.cons_append, List.nil_append] at hthird ⊢
  simp [Text.occurs, Text.startsWith, hfirst, hsecond, hthird]

theorem substitute_other {left right name other : List Char} (hl : BraceFree left)
    (hr : BraceFree right) (h : BraceFree name) (hne : other ≠ name) (value : List Char) :
    substitute other value (left ++ token name ++ right) = left ++ token name ++ right := by
  rw [substitute_between hl hr]
  exact congrArg (left ++ · ++ right) (Text.replace_of_not_occurs (occurs_token h hne) value)

theorem closingAt_of_not_mem {s : List Char} (h : '}' ∉ s) : closingAt s = none := by
  fun_induction closingAt s with
  | case1 => rfl
  | case2 s => simp at h
  | case3 s => rfl
  | case4 c s hx hc ih => rw [ih fun hm => h (by simp [hm])]; rfl

theorem closingAt_append {r : List Char} (h : '}' ∉ r) (s : List Char) :
    closingAt (s ++ r) = closingAt s := by
  fun_induction closingAt s with
  | case1 => exact closingAt_of_not_mem h
  | case2 s => rfl
  | case3 s hx => simp [closingAt]
  | case4 c s hx hc ih =>
    -- Two closing braces do not come about where the texts meet.
    have hmeet : ∀ tail, c = '}' → s ++ r = '}' :: tail → False := by
      intro tail hb he
      cases s with
      | nil => exact h (by rw [show r = '}' :: tail from he]; simp)
      | cons d s =>
        obtain ⟨rfl, -⟩ := List.cons.inj he
        exact hx s hb rfl
    rw [List.cons_append, closingAt, if_neg hc, ih]
    exact hmeet

theorem closingAt_le {s : List Char} {n : Nat} (h : closingAt s = some n) : n ≤ s.length := by
  fun_induction closingAt s generalizing n with
  | case1 => simp at h
  | case2 s =>
    obtain rfl : 2 = n := by simpa using h
    simp
  | case3 s => simp at h
  | case4 c s hx hc ih =>
    obtain ⟨m, hm, rfl⟩ := Option.map_eq_some_iff.mp h
    have := ih hm
    simp only [List.length_cons]
    omega

theorem stripFrom_of_not_mem {s : List Char} (h : '{' ∉ s) : stripFrom 0 s = s := by
  induction s with
  | nil => rfl
  | cons c s ih =>
    have hc : c ≠ '{' := fun e => h (by simp [e])
    have hs := ih fun hm => h (by simp [hm])
    simp [stripFrom, hc, hs]

theorem stripFrom_append_left {l : List Char} (h : '{' ∉ l) (s : List Char) :
    stripFrom 0 (l ++ s) = l ++ stripFrom 0 s := by
  induction l with
  | nil => rfl
  | cons c l ih =>
    have hc : c ≠ '{' := fun e => h (by simp [e])
    have hs := ih fun hm => h (by simp [hm])
    simp [stripFrom, hc, hs]

theorem stripFrom_append_right {r : List Char} (h : BraceFree r) (s : List Char) {k : Nat}
    (hk : k ≤ s.length) : stripFrom k (s ++ r) = stripFrom k s ++ r := by
  fun_induction stripFrom k s with
  | case1 k =>
    obtain rfl : k = 0 := by simpa using hk
    exact stripFrom_of_not_mem h.1
  | case2 k c s ih => exact ih (by simpa using hk)
  | case3 t n hn ih =>
    have hclose : closingAt (t ++ r) = some n := (closingAt_append h.2 t).trans hn
    have hle := closingAt_le hn
    have hstep : stripFrom 0 ('{' :: '{' :: t ++ r) = stripFrom (n + 1) ('{' :: t ++ r) := by
      simp only [List.cons_append, stripFrom, hclose]
    exact hstep.trans (ih (by simpa using hle))
  | case4 t hn ih =>
    have hclose : closingAt (t ++ r) = none := (closingAt_append h.2 t).trans hn
    have hstep : stripFrom 0 ('{' :: '{' :: t ++ r) = '{' :: stripFrom 0 ('{' :: t ++ r) := by
      simp [stripFrom, hclose]
    exact hstep.trans (congrArg ('{' :: ·) (ih (Nat.zero_le _)))
  | case5 c s hx ih =>
    have hmeet : ∀ t, c = '{' → s ++ r = '{' :: t → False := by
      intro t hc he
      cases s with
      | nil => exact h.1 (by rw [show r = '{' :: t from he]; simp)
      | cons d s =>
        obtain ⟨rfl, -⟩ := List.cons.inj he
        exact hx s hc rfl
    rw [List.cons_append, stripFrom, ih (Nat.zero_le _), List.cons_append]
    exact hmeet

theorem strip_between {left right : List Char} (hl : BraceFree left) (hr : BraceFree right)
    (s : List Char) : strip (left ++ s ++ right) = left ++ strip s ++ right := by
  rw [strip, List.append_assoc, stripFrom_append_left hl.1,
    stripFrom_append_right hr s (Nat.zero_le _), ← List.append_assoc]
  rfl

theorem applyBinding_between {left right : List Char} (hl : BraceFree left)
    (hr : BraceFree right) (previous : Option Envelope) (s : List Char) (b : Binding) :
    applyBinding previous (left ++ s ++ right) b =
      left ++ applyBinding previous s b ++ right := by
  unfold applyBinding
  split
  · exact substitute_between hl hr _ _ s
  · rfl

theorem applyAll_between {left right : List Char} (hl : BraceFree left) (hr : BraceFree right)
    (previous : Option Envelope) (bindings : List Binding) (s : List Char) :
    applyAll previous bindings (left ++ s ++ right) =
      left ++ applyAll previous bindings s ++ right := by
  induction bindings generalizing s with
  | nil => rfl
  | cons b bindings ih =>
    rw [applyAll, List.foldl_cons, applyBinding_between hl hr]
    exact ih (applyBinding previous s b)

theorem applyAll_other {left right name : List Char} (hl : BraceFree left)
    (hr : BraceFree right) (hn : BraceFree name) (previous : Option Envelope)
    {bindings : List Binding} (h : ∀ b ∈ bindings, b.name.toList ≠ name) :
    applyAll previous bindings (left ++ token name ++ right) = left ++ token name ++ right := by
  induction bindings with
  | nil => rfl
  | cons b bindings ih =>
    have hb : applyBinding previous (left ++ token name ++ right) b =
        left ++ token name ++ right := by
      unfold applyBinding
      split
      · exact substitute_other hl hr hn (h b (by simp)) _
      · rfl
    rw [applyAll, List.foldl_cons, hb]
    exact ih fun b hm => h b (by simp [hm])

theorem applyBinding_token {left right : List Char} (hl : BraceFree left) (hr : BraceFree right)
    {previous : Option Envelope} {b : Binding} {value : String}
    (h : (previous.bind fun e => e.field b.field) = some value) :
    applyBinding previous (left ++ token b.name.toList ++ right) b =
      left ++ value.toList ++ right := by
  rw [applyBinding, h]
  exact substitute_token hl hr b.name.toList value.toList

/-- What becomes of a text that was put in before these bindings. -/
def rescan (previous : Option Envelope) (bindings : List Binding) (value : String) : String :=
  String.ofList (strip (applyAll previous bindings value.toList))

def braced (name : String) : String := String.ofList (token name.toList)

theorem rescan_between {left right : String} (hl : BraceFree left.toList)
    (hr : BraceFree right.toList) (previous : Option Envelope) (bindings : List Binding)
    (value : String) :
    String.ofList (strip (applyAll previous bindings
      (left.toList ++ value.toList ++ right.toList))) =
      left ++ rescan previous bindings value ++ right := by
  rw [applyAll_between hl hr, strip_between hl hr]
  simp [rescan, String.append_assoc]

theorem strip_of_not_occurs {s : List Char} (h : Text.occurs ['{', '{'] s = false) :
    strip s = s := by
  induction s with
  | nil => rfl
  | cons c s ih =>
    rw [Text.occurs, Bool.or_eq_false_iff] at h
    have hx : ∀ t, c = '{' → s = '{' :: t → False := by
      rintro t rfl rfl
      simp [Text.startsWith] at h
    rw [strip, stripFrom]
    · exact congrArg (c :: ·) (ih h.2)
    · exact hx

theorem applyAll_of_not_occurs {s : List Char} (h : Text.occurs ['{', '{'] s = false)
    (previous : Option Envelope) (bindings : List Binding) :
    applyAll previous bindings s = s := by
  induction bindings with
  | nil => rfl
  | cons b bindings ih =>
    have hb : applyBinding previous s b = s := by
      unfold applyBinding
      split
      · exact Text.replace_of_not_occurs (Text.occurs_of_append (by simp) h) _
      · rfl
    rw [applyAll, List.foldl_cons, hb]
    exact ih

theorem rescan_of_not_occurs {value : String} (h : Text.occurs ['{', '{'] value.toList = false)
    (previous : Option Envelope) (bindings : List Binding) :
    rescan previous bindings value = value := by
  rw [rescan, applyAll_of_not_occurs h, strip_of_not_occurs h, String.ofList_toList]

theorem fill_braced {left right : String} (hl : BraceFree left.toList)
    (hr : BraceFree right.toList) (e : Envelope) :
    fill (left ++ braced "input" ++ right) (some e) =
      left ++ rescan (some e) [] (formatInput e) ++ right := by
  have h := substitute_token hl hr ['i', 'n', 'p', 'u', 't'] (formatInput e).toList
  rw [← rescan_between hl hr, applyAll, List.foldl_nil, ← h]
  simp [fill, braced]

theorem resolve_braced {left right name : String} (hl : BraceFree left.toList)
    (hr : BraceFree right.toList) (hn : BraceFree name.toList) {previous : Option Envelope}
    {before : List Binding} (hb : ∀ b ∈ before, b.name ≠ name) {field : Field} {value : String}
    (hv : (previous.bind fun e => e.field field) = some value) (after : List Binding) :
    resolve previous (before ++ ⟨name, field⟩ :: after) (left ++ braced name ++ right) =
      left ++ rescan previous after value ++ right := by
  have hb' : ∀ b ∈ before, b.name.toList ≠ name.toList :=
    fun b hm e => hb b hm (String.toList_inj.mp e)
  have hbefore := applyAll_other hl hr hn previous hb'
  have htoken := applyBinding_token hl hr (b := ⟨name, field⟩) hv
  rw [← rescan_between hl hr, ← htoken, ← hbefore]
  simp [resolve, braced, applyAll]

theorem resolvePrompt_braced {left right : String} (hl : BraceFree left.toList)
    (hr : BraceFree right.toList) {e : Envelope} {value : String}
    (hv : e.field .value = some value) :
    resolvePrompt (left ++ braced "input" ++ right) (some e) =
      left ++ rescan (some e) [⟨"rag_content", .content⟩, ⟨"tool_result", .toolResult⟩] value
        ++ right := by
  have hb : ((some e).bind fun e => e.field .value) = some value := hv
  have htoken := applyBinding_token hl hr (b := ⟨"input", .value⟩) hb
  have htext : (left ++ braced "input" ++ right).toList =
      left.toList ++ token "input".toList ++ right.toList := by
    simp [braced]
  have happlies : applies (some e) (left.toList ++ token "input".toList ++ right.toList)
      ⟨"input", .value⟩ = true := by
    have hne : token "input".toList ≠ [] := by simp [token]
    have hm := Text.occurs_append hne left.toList right.toList
    rw [applies, hb]
    simpa [mentions] using hm
  rw [← rescan_between hl hr, ← htoken, resolvePrompt, htext]
  simp only [happlies, Bool.true_or, if_true, applyAll, List.foldl_cons, List.foldl_nil]

/-- A text put in the place of a token is not safe from what comes after it:
the later bindings and the last pass go over it.  Only where it opens no token
does it stay as it is. -/
theorem inserted_rescanned {left right : String} (hl : BraceFree left.toList)
    (hr : BraceFree right.toList) :
    (∀ e : Envelope, fill (left ++ braced "input" ++ right) (some e) =
      left ++ rescan (some e) [] (formatInput e) ++ right) ∧
    (∀ (name : String) (previous : Option Envelope) (before after : List Binding)
        (field : Field) (value : String), BraceFree name.toList →
      (∀ b ∈ before, b.name ≠ name) →
      (previous.bind fun e => e.field field) = some value →
      resolve previous (before ++ ⟨name, field⟩ :: after) (left ++ braced name ++ right) =
        left ++ rescan previous after value ++ right) ∧
    (∀ (e : Envelope) (value : String), e.field .value = some value →
      resolvePrompt (left ++ braced "input" ++ right) (some e) =
        left ++ rescan (some e)
          [⟨"rag_content", .content⟩, ⟨"tool_result", .toolResult⟩] value ++ right) ∧
    (∀ (previous : Option Envelope) (after : List Binding) (value : String),
      Text.occurs ['{', '{'] value.toList = false → rescan previous after value = value) := by
  refine ⟨fill_braced hl hr, ?_, ?_, ?_⟩
  · intro name previous before after field value hn hb hv
    exact resolve_braced hl hr hn hb hv after
  · intro e value hv
    exact resolvePrompt_braced hl hr hv
  · intro previous after value h
    exact rescan_of_not_occurs h previous after

def quoting : Envelope := { value := some "\x7b\x7bb\x7d\x7d", text := some "T" }

theorem inserted_rescanned_quoting :
    resolve (some quoting) ([] ++ ⟨"a", .value⟩ :: [⟨"b", .text⟩]) ("<" ++ braced "a" ++ ">") =
      "<T>" := by
  have hl : BraceFree "<".toList := by decide
  have hr : BraceFree ">".toList := by decide
  have hn : BraceFree "a".toList := by decide
  have h := (inserted_rescanned hl hr).2.1 "a" (some quoting) [] [⟨"b", .text⟩] .value _ hn
    (by simp) rfl
  exact h.trans (by decide +kernel)

/-- A later binding finds the token that an earlier one put in, and the last
pass takes it out where no binding does. -/
theorem inserted_not_verbatim :
    resolve (some quoting) [⟨"a", .value⟩, ⟨"b", .text⟩] (braced "a") = "T" ∧
    resolve (some quoting) [⟨"a", .value⟩] (braced "a") = "" ∧
    fill (braced "input") (some (Envelope.ofText "\x7b\x7bb\x7d\x7d")) = "" := by
  decide +kernel

end Placeholder

end Cardwalk
