import Cardwalk.Proofs.Json.RoundTrip

/-!
# The characters of a value

A value on one line is made of a few fixed characters, of its numbers, and of
its strings and keys, in which control characters are escaped.
-/

set_option autoImplicit false

namespace Cardwalk.Json

def fixedChars : List Char := "nulltruefalse,:[]\x7b\x7d".toList

def escapeLetters : List Char := "\"\\nrtbfu0123456789abcdef".toList

theorem hexDigit_mem {n : Nat} (h : n < 16) : hexDigit n ∈ escapeLetters := by
  interval_cases n <;> decide

theorem mem_escapeChar {c d : Char} (h : d ∈ escapeChar c) :
    (d = c ∧ 0x20 ≤ c.toNat) ∨ d ∈ escapeLetters := by
  have hshort : ∀ e ∈ escapeLetters, d ∈ ['\\', e] → d ∈ escapeLetters := by
    intro e he hd
    simp only [List.mem_cons, List.not_mem_nil, or_false] at hd
    rcases hd with rfl | rfl
    · decide
    · exact he
  unfold escapeChar at h
  split_ifs at h with h₁ h₂ h₃
  · exact .inr (hshort '"' (by decide) h)
  · exact .inr (hshort '\\' (by decide) h)
  · exact .inl ⟨List.mem_singleton.mp h, h₃⟩
  · exact .inr (hshort 'n' (by decide) h)
  · exact .inr (hshort 'r' (by decide) h)
  · exact .inr (hshort 't' (by decide) h)
  · exact .inr (hshort 'b' (by decide) h)
  · exact .inr (hshort 'f' (by decide) h)
  · have hhigh := hexDigit_mem (n := c.toNat / 16) (by omega)
    have hlow := hexDigit_mem (n := c.toNat % 16) (by omega)
    simp only [List.mem_cons, List.not_mem_nil, or_false] at h
    rcases h with rfl | rfl | rfl | rfl | rfl | rfl
    · exact .inr (by decide)
    · exact .inr (by decide)
    · exact .inr (by decide)
    · exact .inr (by decide)
    · exact .inr hhigh
    · exact .inr hlow

/-- No number, string or key is written with other characters. -/
def Spelled (q : Char → Prop) : Json → Prop
  | .number n => ∀ c ∈ n.chars, q c
  | .string s => ∀ c ∈ quoted s, q c
  | .object ms => ∀ k ∈ Members.keys ms, ∀ c ∈ quoted k, q c
  | _ => True

section Chars

variable {q : Char → Prop} (hq : ∀ c ∈ fixedChars, q c)

include hq

mutual
theorem mem_compactChars : ∀ v : Json, Every (Spelled q) v → ∀ c ∈ compactChars v, q c
  | .null, _ => by
    simp only [compactChars, List.forall_mem_cons]
    exact ⟨hq 'n' (by decide), hq 'u' (by decide), hq 'l' (by decide), hq 'l' (by decide),
      by simp⟩
  | .bool true, _ => by
    simp only [compactChars, List.forall_mem_cons]
    exact ⟨hq 't' (by decide), hq 'r' (by decide), hq 'u' (by decide), hq 'e' (by decide),
      by simp⟩
  | .bool false, _ => by
    simp only [compactChars, List.forall_mem_cons]
    exact ⟨hq 'f' (by decide), hq 'a' (by decide), hq 'l' (by decide), hq 's' (by decide),
      hq 'e' (by decide), by simp⟩
  | .number _, h => h.self
  | .string _, h => h.self
  | .array items, h => by
    have hitems := mem_compactItems items fun w hw => h.item hw
    simp only [compactChars, List.cons_append, List.forall_mem_cons, List.forall_mem_append]
    exact ⟨hq '[' (by decide), hitems, hq ']' (by decide), by simp⟩
  | .object ms, h => by
    have hms := mem_compactMembers ms h.self fun k w hw => h.member hw
    simp only [compactChars, List.cons_append, List.forall_mem_cons, List.forall_mem_append]
    exact ⟨hq '{' (by decide), hms, hq '}' (by decide), by simp⟩

theorem mem_compactItems : ∀ items : List Json, (∀ w ∈ items, Every (Spelled q) w) →
    ∀ c ∈ compactItems items, q c
  | [], _ => by simp [compactItems]
  | [v], h => mem_compactChars v (h v (by simp))
  | v :: next :: rest, h => by
    have hv := mem_compactChars v (h v (by simp))
    have hrest := mem_compactItems (next :: rest) fun w hw => h w (by simp [hw])
    simp only [compactItems, List.forall_mem_append, List.forall_mem_cons]
    exact ⟨hv, hq ',' (by decide), hrest⟩

theorem mem_compactMembers : ∀ ms : Members, (∀ k ∈ Members.keys ms, ∀ c ∈ quoted k, q c) →
    (∀ k w, (k, w) ∈ ms → Every (Spelled q) w) → ∀ c ∈ compactMembers ms, q c
  | [], _, _ => by simp [compactMembers]
  | [(k, v)], hk, h => by
    have hkey := hk k (by simp [Members.keys])
    have hv := mem_compactChars v (h k v (by simp))
    simp only [compactMembers, List.forall_mem_append, List.forall_mem_cons]
    exact ⟨hkey, hq ':' (by decide), hv⟩
  | (k, v) :: next :: rest, hk, h => by
    have hkey := hk k (by simp [Members.keys])
    have hv := mem_compactChars v (h k v (by simp))
    have hrest := mem_compactMembers (next :: rest)
      (fun k hin => hk k (List.mem_cons_of_mem _ hin)) fun k w hw => h k w (by simp [hw])
    simp only [compactMembers, List.forall_mem_append, List.forall_mem_cons]
    exact ⟨⟨hkey, hq ':' (by decide), hv⟩, hq ',' (by decide), hrest⟩
end

end Chars

theorem mem_quoted {s : String} {d : Char} (h : d ∈ quoted s) :
    d ∈ escapeLetters ∨ (d ∈ s.toList ∧ 0x20 ≤ d.toNat) := by
  simp only [quoted, List.cons_append, List.mem_cons, List.mem_append, List.mem_flatMap,
    List.not_mem_nil, or_false] at h
  rcases h with rfl | ⟨c, hc, hd⟩ | rfl
  · exact .inl (by decide)
  · rcases mem_escapeChar hd with ⟨rfl, hcontrol⟩ | hd
    · exact .inr ⟨hc, hcontrol⟩
    · exact .inl hd
  · exact .inl (by decide)

theorem mem_intDigits {i : Int} {c : Char} (h : c ∈ Decimal.intDigits i) :
    isNumberHead c = true := by
  have hdigit : ∀ n, c ∈ Decimal.natDigits n → isNumberHead c = true := by
    intro n hn
    have hc := Nat.isDigit_of_mem_toDigits (by decide) (by decide) hn
    simp [isNumberHead, hc]
  unfold Decimal.intDigits at h
  split at h
  · rcases List.mem_cons.mp h with rfl | h
    · decide
    · exact hdigit _ h
  · exact hdigit _ h

end Cardwalk.Json
