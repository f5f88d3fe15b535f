import Cardwalk.Json.Read
import Cardwalk.Proofs.Json.Scalar

/-!
# Values read back

What is written on one line or over several is read as the value that was
written. Its numbers must be readable, its keys distinct, and its brackets
nested no deeper than is allowed.
-/

set_option autoImplicit false

namespace Cardwalk.Json

/-- A value inside another, or that value itself. -/
inductive Within : Json → Json → Prop where
  | self (v : Json) : Within v v
  | item {u w : Json} {items : List Json} (hw : w ∈ items) (hu : Within u w) :
      Within u (.array items)
  | member {u w : Json} {k : String} {ms : Members} (hw : (k, w) ∈ ms) (hu : Within u w) :
      Within u (.object ms)

def Every (p : Json → Prop) (v : Json) : Prop := ∀ u, Within u v → p u

variable {p : Json → Prop}

theorem Every.self {v : Json} (h : Every p v) : p v := h v (.self v)

theorem Every.item {items : List Json} (h : Every p (.array items)) {w : Json}
    (hw : w ∈ items) : Every p w :=
  fun u hu => h u (.item hw hu)

theorem Every.member {ms : Members} (h : Every p (.object ms)) {k : String} {w : Json}
    (hw : (k, w) ∈ ms) : Every p w :=
  fun u hu => h u (.member hw hu)

@[simp] theorem every_array {items : List Json} :
    Every p (.array items) ↔ p (.array items) ∧ ∀ w ∈ items, Every p w := by
  constructor
  · exact fun h => ⟨h.self, fun w hw => h.item hw⟩
  · rintro ⟨hself, hitems⟩ u hu
    cases hu with
    | self => exact hself
    | item hw hu => exact hitems _ hw u hu

@[simp] theorem every_object {ms : Members} :
    Every p (.object ms) ↔ p (.object ms) ∧ ∀ m ∈ ms, Every p m.2 := by
  constructor
  · exact fun h => ⟨h.self, fun m hm => h.member hm⟩
  · rintro ⟨hself, hms⟩ u hu
    cases hu with
    | self => exact hself
    | member hw hu => exact hms _ hw u hu

@[simp] theorem every_string {s : String} : Every p (.string s) ↔ p (.string s) := by
  constructor
  · exact Every.self
  · rintro h u ⟨⟩
    exact h

@[simp] theorem every_null : Every p .null ↔ p .null := by
  constructor
  · exact Every.self
  · rintro h u ⟨⟩
    exact h

@[simp] theorem every_bool {b : Bool} : Every p (.bool b) ↔ p (.bool b) := by
  constructor
  · exact Every.self
  · rintro h u ⟨⟩
    exact h

@[simp] theorem every_number {n : Number} : Every p (.number n) ↔ p (.number n) := by
  constructor
  · exact Every.self
  · rintro h u ⟨⟩
    exact h

mutual
def height : Json → Nat
  | .array items => heightItems items + 1
  | .object ms => heightMembers ms + 1
  | .null | .bool _ | .number _ | .string _ => 0

def heightItems : List Json → Nat
  | [] => 0
  | v :: rest => max (height v) (heightItems rest)

def heightMembers : List (String × Json) → Nat
  | [] => 0
  | (_, v) :: rest => max (height v) (heightMembers rest)
end

/-- No key stands twice in an object. -/
def Distinct : Json → Prop
  | .object ms => (Members.keys ms).Nodup
  | _ => True

theorem ofList_append (ms : Members) {ks : Members}
    (h : (Members.keys (ks ++ ms)).Nodup) :
    ms.foldl (fun acc m => Members.put m.1 m.2 acc) ks = ks ++ ms := by
  induction ms generalizing ks with
  | nil => simp
  | cons m ms ih =>
    have hm : m.1 ∉ Members.keys ks := by
      intro hin
      simp only [Members.keys, List.map_append, List.map_cons] at h hin
      exact (List.nodup_append.mp h).2.2 m.1 hin m.1 (by simp) rfl
    rw [List.foldl_cons, Members.put_of_not_mem hm, ih]
    · simp
    · simpa using h

theorem ofList_of_distinct {ms : Members} (h : Distinct (.object ms)) :
    Members.ofList ms = ms :=
  ofList_append ms h

mutual
theorem value_ofJson : ∀ (v : Json) (depth : Nat), Every Distinct v → height v ≤ depth →
    Doc.value depth (Doc.ofJson v) = .ok v
  | .null, depth, _, _ => by cases depth <;> rfl
  | .bool b, depth, _, _ => by cases depth <;> rfl
  | .number n, depth, _, _ => by cases depth <;> rfl
  | .string s, depth, _, _ => by cases depth <;> rfl
  | .array items, depth, hd, hh => by
    cases depth with
    | zero => simp [height] at hh
    | succ depth =>
      have hitems := values_ofItems items depth (fun w hw => hd.item hw)
        (by simpa [height] using hh)
      simp [Doc.ofJson, Doc.value, hitems, Closing.check, Except.map]
  | .object ms, depth, hd, hh => by
    cases depth with
    | zero => simp [height] at hh
    | succ depth =>
      have hms := memberValues_ofMembers ms depth (fun k w hw => hd.member hw)
        (by simpa [height] using hh)
      simp [Doc.ofJson, Doc.value, hms, Closing.check, Except.map, ofList_of_distinct hd.self]

theorem values_ofItems : ∀ (items : List Json) (depth : Nat),
    (∀ w ∈ items, Every Distinct w) → heightItems items ≤ depth →
    Doc.values depth (Doc.ofItems items) = .ok items
  | [], depth, _, _ => rfl
  | v :: rest, depth, hd, hh => by
    have hmax := Nat.max_le.mp hh
    have hv := value_ofJson v depth (hd v (by simp)) hmax.1
    have hrest := values_ofItems rest depth (fun w hw => hd w (by simp [hw])) hmax.2
    simp [Doc.ofItems, Doc.values, hv, hrest, Except.map]

theorem memberValues_ofMembers : ∀ (ms : Members) (depth : Nat),
    (∀ k w, (k, w) ∈ ms → Every Distinct w) → heightMembers ms ≤ depth →
    Doc.memberValues depth (Doc.ofMembers ms) = .ok ms
  | [], depth, _, _ => rfl
  | (k, v) :: rest, depth, hd, hh => by
    have hmax := Nat.max_le.mp hh
    have hv := value_ofJson v depth (hd k v (by simp)) hmax.1
    have hrest := memberValues_ofMembers rest depth
      (fun k w hw => hd k w (by simp [hw])) hmax.2
    simp [Doc.ofMembers, Doc.memberValues, hv, hrest, Except.map]
end

mutual
theorem value_deep : ∀ (v : Json) (depth : Nat), Every Distinct v → depth < height v →
    Doc.value depth (Doc.ofJson v) = .error (.flaw .tooDeep)
  | .null, depth, _, hh => absurd hh (Nat.not_lt_zero depth)
  | .bool _, depth, _, hh => absurd hh (Nat.not_lt_zero depth)
  | .number _, depth, _, hh => absurd hh (Nat.not_lt_zero depth)
  | .string _, depth, _, hh => absurd hh (Nat.not_lt_zero depth)
  | .array items, depth, hd, hh => by
    cases depth with
    | zero => rfl
    | succ depth =>
      have hitems := values_deep items depth (fun w hw => hd.item hw)
        (by simpa [height] using hh)
      simp [Doc.ofJson, Doc.value, hitems]
  | .object ms, depth, hd, hh => by
    cases depth with
    | zero => rfl
    | succ depth =>
      have hms := memberValues_deep ms depth (fun k w hw => hd.member hw)
        (by simpa [height] using hh)
      simp [Doc.ofJson, Doc.value, hms]

theorem values_deep : ∀ (items : List Json) (depth : Nat),
    (∀ w ∈ items, Every Distinct w) → depth < heightItems items →
    Doc.values depth (Doc.ofItems items) = .error (.flaw .tooDeep)
  | [], depth, _, hh => absurd hh (Nat.not_lt_zero depth)
  | v :: rest, depth, hd, hh => by
    have hdv := hd v (by simp)
    by_cases hv : height v ≤ depth
    · have hrest := values_deep rest depth (fun w hw => hd w (by simp [hw]))
        (by simp only [heightItems] at hh; omega)
      simp [Doc.ofItems, Doc.values, value_ofJson v depth hdv hv, hrest, Except.map]
    · have hdeep := value_deep v depth hdv (by omega)
      simp [Doc.ofItems, Doc.values, hdeep]

theorem memberValues_deep : ∀ (ms : Members) (depth : Nat),
    (∀ k w, (k, w) ∈ ms → Every Distinct w) → depth < heightMembers ms →
    Doc.memberValues depth (Doc.ofMembers ms) = .error (.flaw .tooDeep)
  | [], depth, _, hh => absurd hh (Nat.not_lt_zero depth)
  | (k, v) :: rest, depth, hd, hh => by
    have hdv := hd k v (by simp)
    by_cases hv : height v ≤ depth
    · have hrest := memberValues_deep rest depth (fun k w hw => hd k w (by simp [hw]))
        (by simp only [heightMembers] at hh; omega)
      simp [Doc.ofMembers, Doc.memberValues, value_ofJson v depth hdv hv, hrest, Except.map]
    · have hdeep := value_deep v depth hdv (by omega)
      simp [Doc.ofMembers, Doc.memberValues, hdeep]
end

/-- The blanks behind an opening bracket, behind a comma and before a closing
bracket, by their depth, and those behind a colon. -/
structure Spacing where
  gap : Nat → List Char
  colon : List Char
  gap_blank : ∀ depth, ∀ c ∈ gap depth, isSpace c = true
  colon_blank : ∀ c ∈ colon, isSpace c = true

variable (g : Spacing)

mutual
def spaced (depth : Nat) : Json → List Char
  | .null => ['n', 'u', 'l', 'l']
  | .bool true => ['t', 'r', 'u', 'e']
  | .bool false => ['f', 'a', 'l', 's', 'e']
  | .number n => n.chars
  | .string s => quoted s
  | .array [] => ['[', ']']
  | .array (v :: rest) =>
    '[' :: (g.gap (depth + 1) ++ spacedItems (depth + 1) (v :: rest) ++ (g.gap depth ++ [']']))
  | .object [] => ['{', '}']
  | .object (m :: rest) =>
    '{' :: (g.gap (depth + 1) ++ spacedMembers (depth + 1) (m :: rest)
      ++ (g.gap depth ++ ['}']))

def spacedItems (depth : Nat) : List Json → List Char
  | [] => []
  | [v] => spaced depth v
  | v :: next :: rest =>
    spaced depth v ++ ',' :: (g.gap depth ++ spacedItems depth (next :: rest))

def spacedMembers (depth : Nat) : List (String × Json) → List Char
  | [] => []
  | [(k, v)] => quoted k ++ ':' :: (g.colon ++ spaced depth v)
  | (k, v) :: next :: rest =>
    quoted k ++ ':' :: (g.colon ++ spaced depth v)
      ++ ',' :: (g.gap depth ++ spacedMembers depth (next :: rest))
end

def tight : Spacing := ⟨fun _ => [], [], by simp, by simp⟩

theorem newline_blank (depth : Nat) : ∀ c ∈ newline depth, isSpace c = true := by
  intro c hc
  rcases List.mem_cons.mp hc with rfl | hc
  · decide
  · rw [List.eq_of_mem_replicate hc]
    decide

def indented : Spacing := ⟨newline, [' '], newline_blank, by simp [isSpace]⟩

@[simp] theorem tight_gap (depth : Nat) : tight.gap depth = [] := rfl

@[simp] theorem tight_colon : tight.colon = [] := rfl

@[simp] theorem indented_gap (depth : Nat) : indented.gap depth = newline depth := rfl

@[simp] theorem indented_colon : indented.colon = [' '] := rfl

mutual
theorem spaced_tight : ∀ (v : Json) (depth : Nat), spaced tight depth v = compactChars v
  | .null, _ => rfl
  | .bool true, _ => rfl
  | .bool false, _ => rfl
  | .number _, _ => rfl
  | .string _, _ => rfl
  | .array [], _ => rfl
  | .array (v :: rest), depth => by
    have h := spacedItems_tight (v :: rest) (depth + 1)
    simp [spaced, compactChars, h]
  | .object [], _ => rfl
  | .object (m :: rest), depth => by
    have h := spacedMembers_tight (m :: rest) (depth + 1)
    simp [spaced, compactChars, h]

theorem spacedItems_tight : ∀ (items : List Json) (depth : Nat),
    spacedItems tight depth items = compactItems items
  | [], _ => rfl
  | [v], depth => spaced_tight v depth
  | v :: next :: rest, depth => by
    have hv := spaced_tight v depth
    have h := spacedItems_tight (next :: rest) depth
    simp [spacedItems, compactItems, hv, h]

theorem spacedMembers_tight : ∀ (ms : Members) (depth : Nat),
    spacedMembers tight depth ms = compactMembers ms
  | [], _ => rfl
  | [(k, v)], depth => by
    have hv := spaced_tight v depth
    simp [spacedMembers, compactMembers, hv]
  | (k, v) :: next :: rest, depth => by
    have hv := spaced_tight v depth
    have h := spacedMembers_tight (next :: rest) depth
    simp [spacedMembers, compactMembers, hv, h]
end

mutual
theorem spaced_indented : ∀ (v : Json) (depth : Nat), spaced indented depth v = prettyChars depth v
  | .null, _ => rfl
  | .bool true, _ => rfl
  | .bool false, _ => rfl
  | .number _, _ => rfl
  | .string _, _ => rfl
  | .array [], _ => rfl
  | .array (v :: rest), depth => by
    have h := spacedItems_indented (v :: rest) (depth + 1)
    simp [spaced, prettyChars, h]
  | .object [], _ => rfl
  | .object (m :: rest), depth => by
    have h := spacedMembers_indented (m :: rest) (depth + 1)
    simp [spaced, prettyChars, h]

theorem spacedItems_indented : ∀ (items : List Json) (depth : Nat),
    spacedItems indented depth items = prettyItems depth items
  | [], _ => rfl
  | [v], depth => spaced_indented v depth
  | v :: next :: rest, depth => by
    have hv := spaced_indented v depth
    have h := spacedItems_indented (next :: rest) depth
    simp [spacedItems, prettyItems, hv, h]

theorem spacedMembers_indented : ∀ (ms : Members) (depth : Nat),
    spacedMembers indented depth ms = prettyMembers depth ms
  | [], _ => rfl
  | [(k, v)], depth => by
    have hv := spaced_indented v depth
    simp [spacedMembers, prettyMembers, hv]
  | (k, v) :: next :: rest, depth => by
    have hv := spaced_indented v depth
    have h := spacedMembers_indented (next :: rest) depth
    simp [spacedMembers, prettyMembers, hv, h]
end

/-- Every number is read back as it was written. -/
def Readable : Json → Prop
  | .number n => n.Readable
  | _ => True

variable {g}

theorem skipSpace_blank {b : List Char} (hb : ∀ c ∈ b, isSpace c = true) (s : List Char) :
    skipSpace (b ++ s) = skipSpace s := by
  induction b with
  | nil => rfl
  | cons c b ih =>
    have hc := hb c (by simp)
    have h := ih fun d hd => hb d (by simp [hd])
    rw [skipSpace] at h ⊢
    simp [hc, h, skipSpace]

theorem skipSpace_cons {c : Char} (hc : isSpace c = false) (s : List Char) :
    skipSpace (c :: s) = c :: s := by
  simp [skipSpace, hc]

theorem scanValue_blank {b : List Char} (hb : ∀ c ∈ b, isSpace c = true) (steps : Nat)
    (s : List Char) : scanValue (steps + 1) (b ++ s) = scanValue (steps + 1) s := by
  rw [scanValue, scanValue, skipSpace_blank hb]

def isHead (c : Char) : Bool :=
  isNumberHead c || c = 'n' || c = 't' || c = 'f' || c = '"' || c = '[' || c = '{'

theorem isEnd_of_isHead {c : Char} (h : isHead c = true) : isEnd c = false := by
  apply Bool.eq_false_iff.mpr
  intro he
  simp only [isEnd, isSpace, Bool.or_eq_true, decide_eq_true_eq] at he
  rcases he with ((rfl | rfl) | rfl) | ((rfl | rfl) | rfl) | rfl <;> revert h <;> decide

theorem spaced_head (v : Json) (depth : Nat) (hr : Readable v) :
    ∃ c s, spaced g depth v = c :: s ∧ isHead c = true := by
  match v with
  | .null => exact ⟨_, _, rfl, by decide⟩
  | .bool true => exact ⟨_, _, rfl, by decide⟩
  | .bool false => exact ⟨_, _, rfl, by decide⟩
  | .string s => exact ⟨_, _, rfl, by decide⟩
  | .array [] => exact ⟨_, _, rfl, by decide⟩
  | .array (_ :: _) => exact ⟨_, _, rfl, by decide⟩
  | .object [] => exact ⟨_, _, rfl, by decide⟩
  | .object (_ :: _) => exact ⟨_, _, rfl, by decide⟩
  | .number n =>
    obtain ⟨c, s, hs, hc⟩ := hr.head
    exact ⟨c, s, hs, by simp [isHead, hc]⟩

theorem isSpace_of_isHead {c : Char} (h : isHead c = true) : isSpace c = false := by
  have he := isEnd_of_isHead h
  simp only [isEnd, Bool.or_eq_false_iff] at he
  exact he.2

theorem ne_of_isHead {c d : Char} (h : isHead c = true) (hd : isEnd d = true) : c ≠ d :=
  Ne.symm (ne_of_isEnd hd (isEnd_of_isHead h))

section Brackets

variable {b : List Char} (hb : ∀ c ∈ b, isSpace c = true)

include hb

theorem ended_blank {c : Char} (hc : isEnd c = true) (s : List Char) : Ended (b ++ c :: s) := by
  cases b with
  | nil => exact ended_cons hc
  | cons d b =>
    have hd := hb d (by simp)
    exact ended_cons (by simp [isEnd, hd])

theorem scanItems_close (steps : Nat) (first : Bool) (rest : List Char) (read : List Doc) :
    scanItems (steps + 1) first (b ++ ']' :: rest) read =
      (read.reverse, .closed, some rest) := by
  rw [scanItems, skipSpace_blank hb, skipSpace_cons (by decide)]
  rfl

theorem scanItems_first {c : Char} (hc : isHead c = true) (steps : Nat) (s : List Char)
    (read : List Doc) :
    scanItems (steps + 1) true (b ++ c :: s) read = scanItem steps (c :: s) read := by
  have hclose := ne_of_isHead hc (d := ']') (by decide)
  rw [scanItems, skipSpace_blank hb, skipSpace_cons (isSpace_of_isHead hc)]
  simp

theorem scanItems_comma {c : Char} (hc : isHead c = true) (steps : Nat) (s : List Char)
    (read : List Doc) :
    scanItems (steps + 1) false (',' :: (b ++ c :: s)) read = scanItem steps (c :: s) read := by
  have hclose := ne_of_isHead hc (d := ']') (by decide)
  have hskip := (skipSpace_blank hb (c :: s)).trans (skipSpace_cons (isSpace_of_isHead hc) s)
  rw [scanItems, skipSpace_cons (by decide)]
  simp [hskip]

theorem scanMembers_close (steps : Nat) (first : Bool) (rest : List Char)
    (read : List (Except Flaw String × Doc)) :
    scanMembers (steps + 1) first (b ++ '}' :: rest) read =
      (read.reverse, .closed, some rest) := by
  rw [scanMembers, skipSpace_blank hb, skipSpace_cons (by decide)]
  rfl

theorem scanMembers_first (steps : Nat) (s : List Char)
    (read : List (Except Flaw String × Doc)) :
    scanMembers (steps + 1) true (b ++ '"' :: s) read = scanMember steps s read := by
  rw [scanMembers, skipSpace_blank hb, skipSpace_cons (by decide)]
  rfl

theorem scanMembers_comma (steps : Nat) (s : List Char)
    (read : List (Except Flaw String × Doc)) :
    scanMembers (steps + 1) false (',' :: (b ++ '"' :: s)) read = scanMember steps s read := by
  have hskip := (skipSpace_blank hb ('"' :: s)).trans (skipSpace_cons (by decide) s)
  rw [scanMembers, skipSpace_cons (by decide)]
  simp [hskip]

theorem scanMember_value {k : String} {d : Doc} {steps : Nat} {t rest : List Char}
    (hk : k.toList.length ≤ steps) (hv : scanValue (steps + 1) t = (d, some rest))
    (read : List (Except Flaw String × Doc)) :
    scanMember (steps + 2) (k.toList.flatMap escapeChar ++ '"' :: ':' :: (b ++ t)) read =
      scanMembers (steps + 1) false rest ((.ok k, d) :: read) := by
  have hkey := readString_quoted k (Nat.lt_succ_of_le hk) (':' :: (b ++ t))
  have hvalue := (scanValue_blank hb steps t).trans hv
  rw [scanMember, hkey]
  simp only [skipSpace_cons (show isSpace ':' = false by decide), hvalue]

end Brackets

theorem scanValue_array {steps : Nat} {t : List Char} {items : List Doc} {closing : Closing}
    {rest : Option (List Char)} (h : scanItems steps true t [] = (items, closing, rest)) :
    scanValue (steps + 1) ('[' :: t) = (.array items closing, rest) := by
  rw [scanValue, skipSpace_cons (by decide)]
  simp [h]

theorem scanValue_object {steps : Nat} {t : List Char} {ms : List (Except Flaw String × Doc)}
    {closing : Closing} {rest : Option (List Char)}
    (h : scanMembers steps true t [] = (ms, closing, rest)) :
    scanValue (steps + 1) ('{' :: t) = (.object ms closing, rest) := by
  rw [scanValue, skipSpace_cons (by decide)]
  simp [h]

theorem scanItem_value {d : Doc} {steps : Nat} {t rest : List Char}
    (hv : scanValue steps t = (d, some rest)) (read : List Doc) :
    scanItem (steps + 1) t read = scanItems steps false rest (d :: read) := by
  rw [scanItem, hv]

theorem spacedItems_head {v : Json} (hr : Readable v) (rest : List Json) (depth : Nat) :
    ∃ c s, spacedItems g depth (v :: rest) = c :: s ∧ isHead c = true := by
  obtain ⟨c, s, hs, hc⟩ := spaced_head (g := g) v depth hr
  cases rest with
  | nil => exact ⟨c, s, hs, hc⟩
  | cons next rest => exact ⟨c, _, by rw [spacedItems, hs, List.cons_append], hc⟩

theorem spacedMembers_head (k : String) (v : Json) (rest : Members) (depth : Nat) :
    ∃ s, spacedMembers g depth ((k, v) :: rest) = '"' :: s := by
  cases rest with
  | nil => exact ⟨_, by rw [spacedMembers, quoted_append]⟩
  | cons next rest => exact ⟨_, by rw [spacedMembers, List.append_assoc, quoted_append]⟩

mutual
/-- Three steps for each character are enough. -/
theorem scanValue_spaced : ∀ (v : Json) (depth steps : Nat) (rest : List Char),
    Every Readable v → Ended rest → 3 * (spaced g depth v).length ≤ steps →
    scanValue (steps + 1) (spaced g depth v ++ rest) = (Doc.ofJson v, some rest)
  | .null, _, _, _, _, _, _ => rfl
  | .bool true, _, _, _, _, _, _ => rfl
  | .bool false, _, _, _, _, _, _ => rfl
  | .number n, _, steps, rest, hr, hrest, _ => hr.self.scan steps rest hrest
  | .string t, _, steps, rest, _, _, hsteps => by
    have hlen := length_quoted t
    have hlt : t.toList.length < steps := by
      simp only [spaced] at hsteps
      omega
    have hread := readString_quoted t hlt rest
    have hvalue : scanValue (steps + 1)
        ('"' :: (t.toList.flatMap escapeChar ++ '"' :: rest)) =
          readText steps (t.toList.flatMap escapeChar ++ '"' :: rest) := rfl
    rw [spaced, quoted_append, hvalue, readText, hread]
    rfl
  | .array [], _, steps, rest, _, _, hsteps => by
    obtain ⟨n, rfl⟩ : ∃ n, steps = n + 1 := ⟨steps - 1, by simp [spaced] at hsteps; omega⟩
    rfl
  | .array (v :: more), depth, steps, rest, hr, _, hsteps => by
    obtain ⟨n, rfl⟩ : ∃ n, steps = n + 1 := ⟨steps - 1, by simp [spaced] at hsteps; omega⟩
    have hlen : 3 * (spacedItems g (depth + 1) (v :: more)).length + 2 ≤ n := by
      simp only [spaced, List.length_cons, List.length_append] at hsteps
      omega
    have hitems := scanItem_spaced (v :: more) (depth + 1) n (g.gap depth) rest []
      (by simp) (fun w hw => hr.item hw) (g.gap_blank depth) hlen
    obtain ⟨c, s, hs, hc⟩ := spacedItems_head (g := g) (hr.item (w := v) (by simp)).self more
      (depth + 1)
    have hfirst := scanItems_first (g.gap_blank (depth + 1)) hc n
      (s ++ (g.gap depth ++ ']' :: rest)) []
    rw [hs, List.cons_append] at hitems
    have htext : spaced g depth (.array (v :: more)) ++ rest =
        '[' :: (g.gap (depth + 1) ++ c :: (s ++ (g.gap depth ++ ']' :: rest))) := by
      simp [spaced, hs]
    rw [htext, scanValue_array (hfirst.trans hitems)]
    rfl
  | .object [], _, steps, rest, _, _, hsteps => by
    obtain ⟨n, rfl⟩ : ∃ n, steps = n + 1 := ⟨steps - 1, by simp [spaced] at hsteps; omega⟩
    rfl
  | .object ((k, v) :: more), depth, steps, rest, hr, _, hsteps => by
    obtain ⟨n, rfl⟩ : ∃ n, steps = n + 1 := ⟨steps - 1, by simp [spaced] at hsteps; omega⟩
    have hlen : 3 * (spacedMembers g (depth + 1) ((k, v) :: more)).length + 2 ≤ n := by
      simp only [spaced, List.length_cons, List.length_append] at hsteps
      omega
    obtain ⟨s, hs⟩ := spacedMembers_head (g := g) k v more (depth + 1)
    have hmembers := scanMember_spaced ((k, v) :: more) (depth + 1) n (g.gap depth) rest
      (s ++ (g.gap depth ++ '}' :: rest)) [] (by simp) (fun k w hw => hr.member hw)
      (g.gap_blank depth) hlen (by rw [hs, List.cons_append])
    have hfirst := scanMembers_first (g.gap_blank (depth + 1)) n
      (s ++ (g.gap depth ++ '}' :: rest)) []
    have htext : spaced g depth (.object ((k, v) :: more)) ++ rest =
        '{' :: (g.gap (depth + 1) ++ '"' :: (s ++ (g.gap depth ++ '}' :: rest))) := by
      simp [spaced, hs]
    rw [htext, scanValue_object (hfirst.trans hmembers)]
    rfl

theorem scanItem_spaced : ∀ (items : List Json) (depth steps : Nat) (b rest : List Char)
    (read : List Doc), items ≠ [] → (∀ w ∈ items, Every Readable w) →
    (∀ c ∈ b, isSpace c = true) → 3 * (spacedItems g depth items).length + 2 ≤ steps →
    scanItem steps (spacedItems g depth items ++ (b ++ ']' :: rest)) read =
      (read.reverse ++ Doc.ofItems items, .closed, some rest)
  | [], _, _, _, _, _, hne, _, _, _ => absurd rfl hne
  | [v], depth, steps, b, rest, read, _, hr, hb, hsteps => by
    obtain ⟨n, rfl⟩ : ∃ n, steps = n + 2 := ⟨steps - 2, by omega⟩
    have hv := scanValue_spaced v depth n (b ++ ']' :: rest) (hr v (by simp))
      (ended_blank hb (by decide) rest) (by simpa [spacedItems] using hsteps)
    rw [spacedItems, scanItem_value hv, scanItems_close hb]
    simp [Doc.ofItems]
  | v :: next :: more, depth, steps, b, rest, read, _, hr, hb, hsteps => by
    -- An item takes two steps, and its comma alone is good for three.
    obtain ⟨n, rfl⟩ : ∃ n, steps = n + 2 := ⟨steps - 2, by omega⟩
    simp only [spacedItems, List.length_append, List.length_cons] at hsteps
    obtain ⟨c, s, hs, hc⟩ := spacedItems_head (g := g) (hr next (by simp)).self more depth
    have hv := scanValue_spaced v depth n
      (',' :: (g.gap depth ++ (spacedItems g depth (next :: more) ++ (b ++ ']' :: rest))))
      (hr v (by simp)) (ended_cons (by decide)) (by omega)
    have hmore := scanItem_spaced (next :: more) depth n b rest (Doc.ofJson v :: read)
      (by simp) (fun w hw => hr w (by simp [hw])) hb (by omega)
    have hcomma := scanItems_comma (g.gap_blank depth) hc n (s ++ (b ++ ']' :: rest))
      (Doc.ofJson v :: read)
    rw [hs, List.cons_append] at hmore hv
    rw [spacedItems, hs, List.append_assoc, List.cons_append, List.append_assoc, List.cons_append]
    rw [scanItem_value hv, hcomma, hmore]
    simp [Doc.ofItems]

theorem scanMember_spaced : ∀ (ms : Members) (depth steps : Nat) (b rest s : List Char)
    (read : List (Except Flaw String × Doc)), ms ≠ [] →
    (∀ k w, (k, w) ∈ ms → Every Readable w) → (∀ c ∈ b, isSpace c = true) →
    3 * (spacedMembers g depth ms).length + 2 ≤ steps →
    spacedMembers g depth ms ++ (b ++ '}' :: rest) = '"' :: s →
    scanMember steps s read = (read.reverse ++ Doc.ofMembers ms, .closed, some rest)
  | [], _, _, _, _, _, _, hne, _, _, _, _ => absurd rfl hne
  | [(k, v)], depth, steps, b, rest, s, read, _, hr, hb, hsteps, hs => by
    obtain ⟨n, rfl⟩ : ∃ n, steps = n + 2 := ⟨steps - 2, by omega⟩
    have hlen := length_quoted k
    simp only [spacedMembers, List.length_append, List.length_cons] at hsteps
    have hv := scanValue_spaced v depth n (b ++ '}' :: rest) (hr k v (by simp))
      (ended_blank hb (by decide) rest) (by omega)
    have hbehind : s = k.toList.flatMap escapeChar ++
        '"' :: ':' :: (g.colon ++ (spaced g depth v ++ (b ++ '}' :: rest))) := by
      simpa [spacedMembers, quoted] using hs.symm
    rw [hbehind, scanMember_value g.colon_blank (by omega) hv, scanMembers_close hb]
    simp [Doc.ofMembers]
  | (k, v) :: (k', v') :: more, depth, steps, b, rest, s, read, _, hr, hb, hsteps, hs => by
    obtain ⟨n, rfl⟩ : ∃ n, steps = n + 2 := ⟨steps - 2, by omega⟩
    have hlen := length_quoted k
    simp only [spacedMembers, List.length_append, List.length_cons] at hsteps
    obtain ⟨t, ht⟩ := spacedMembers_head (g := g) k' v' more depth
    have hv := scanValue_spaced v depth n
      (',' :: (g.gap depth ++ '"' :: (t ++ (b ++ '}' :: rest))))
      (hr k v (by simp)) (ended_cons (by decide)) (by omega)
    have hmore := scanMember_spaced ((k', v') :: more) depth n b rest
      (t ++ (b ++ '}' :: rest)) ((.ok k, Doc.ofJson v) :: read) (by simp)
      (fun k w hw => hr k w (by simp [hw])) hb (by omega) (by rw [ht, List.cons_append])
    have hcomma := scanMembers_comma (g.gap_blank depth) n (t ++ (b ++ '}' :: rest))
      ((.ok k, Doc.ofJson v) :: read)
    have hbehind : s = k.toList.flatMap escapeChar ++ '"' :: ':' :: (g.colon ++
        (spaced g depth v ++ ',' :: (g.gap depth ++ '"' :: (t ++ (b ++ '}' :: rest))))) := by
      simpa [spacedMembers, quoted, ht] using hs.symm
    rw [hbehind, scanMember_value g.colon_blank (by omega) hv, hcomma, hmore]
    simp [Doc.ofMembers]
end

theorem scan_spaced {v : Json} (hr : Every Readable v) (depth : Nat) :
    scan (spaced g depth v) = (Doc.ofJson v, some []) := by
  have h := scanValue_spaced (g := g) v depth (3 * (spaced g depth v).length + 2) [] hr
    ended_nil (by omega)
  rwa [List.append_nil] at h

theorem parse_spaced {v : Json} (hr : Every Readable v) (hd : Every Distinct v)
    (hh : height v ≤ maxDepth) (depth : Nat) : parse (spaced g depth v) = .ok v := by
  have hvalue : any .text maxDepth (Doc.ofJson v) = .ok v := value_ofJson v maxDepth hd hh
  rw [parse, decode, scan_spaced hr]
  simp [hvalue, skipSpace]

theorem parse_spaced_deep {v : Json} (hr : Every Readable v) (hd : Every Distinct v)
    (hh : maxDepth < height v) (depth : Nat) :
    parse (spaced g depth v) = .error (.flaw .tooDeep) := by
  have hvalue : any .text maxDepth (Doc.ofJson v) = .error (.flaw .tooDeep) :=
    value_deep v maxDepth hd hh
  rw [parse, decode, scan_spaced hr]
  simp [hvalue]

theorem parse_compactChars {v : Json} (hr : Every Readable v) (hd : Every Distinct v)
    (hh : height v ≤ maxDepth) : parse (compactChars v) = .ok v := by
  rw [← spaced_tight v 0]
  exact parse_spaced hr hd hh 0

theorem parse_compactChars_deep {v : Json} (hr : Every Readable v) (hd : Every Distinct v)
    (hh : maxDepth < height v) : parse (compactChars v) = .error (.flaw .tooDeep) := by
  rw [← spaced_tight v 0]
  exact parse_spaced_deep hr hd hh 0

theorem parse_prettyChars {v : Json} (hr : Every Readable v) (hd : Every Distinct v)
    (hh : height v ≤ maxDepth) (depth : Nat) : parse (prettyChars depth v) = .ok v := by
  rw [← spaced_indented v depth]
  exact parse_spaced hr hd hh depth

end Cardwalk.Json
