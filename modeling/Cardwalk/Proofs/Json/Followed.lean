import Cardwalk.Proofs.Json.RoundTrip
import Cardwalk.Proofs.Json.Tokens

/-!
# Values with something behind them

A value that was read to its end is read the same where something follows it
with which no number goes on, such as a blank or a closing parenthesis.  Where
that is no space, the whole is no JSON text, since more than a value stands in
it.
-/

set_option autoImplicit false

namespace Cardwalk.Json

/-- Within so many steps a document reads the same if `more` follows, also with
more steps. -/
structure ScansSteadily (more : List Char) (n : Nat) : Prop where
  value : ∀ {n' : Nat} {s rest : List Char} {d : Doc}, n ≤ n' →
    scanValue n s = (d, some rest) →
    scanValue n' (s ++ more) = (d, some (rest ++ more))
  items : ∀ {n' : Nat} {first : Bool} {s rest : List Char} {read docs : List Doc}
    {closing : Closing}, n ≤ n' →
    scanItems n first s read = (docs, closing, some rest) →
    scanItems n' first (s ++ more) read = (docs, closing, some (rest ++ more))
  item : ∀ {n' : Nat} {s rest : List Char} {read docs : List Doc} {closing : Closing}, n ≤ n' →
    scanItem n s read = (docs, closing, some rest) →
    scanItem n' (s ++ more) read = (docs, closing, some (rest ++ more))
  members : ∀ {n' : Nat} {first : Bool} {s rest : List Char}
    {read docs : List (Except Flaw String × Doc)} {closing : Closing}, n ≤ n' →
    scanMembers n first s read = (docs, closing, some rest) →
    scanMembers n' first (s ++ more) read = (docs, closing, some (rest ++ more))
  member : ∀ {n' : Nat} {s rest : List Char} {read docs : List (Except Flaw String × Doc)}
    {closing : Closing}, n ≤ n' →
    scanMember n s read = (docs, closing, some rest) →
    scanMember n' (s ++ more) read = (docs, closing, some (rest ++ more))

theorem scansSteadily_zero (more : List Char) : ScansSteadily more 0 where
  value _ h := by cases h
  items _ h := by cases h
  item _ h := by cases h
  members _ h := by cases h
  member _ h := by cases h

section Steps

variable {s rest more : List Char} {n n' : Nat} {closing : Closing}

theorem skipSpace_head {c : Char} {s₁ : List Char} (h : skipSpace s = c :: s₁) :
    isSpace c = false := by
  have hhead := List.head?_dropWhile_not isSpace s
  rw [← skipSpace, h] at hhead
  simpa using hhead

theorem skipSpace_append {c : Char} {s₁ : List Char} (h : skipSpace s = c :: s₁)
    (more : List Char) : skipSpace (s ++ more) = c :: (s₁ ++ more) := by
  rw [skipSpace] at h ⊢
  simp [List.dropWhile_append, h]

theorem scanValue_skip {c : Char} {s₁ : List Char} (h : skipSpace s = c :: s₁) (n : Nat)
    (more : List Char) :
    scanValue (n + 1) (s ++ more) = scanValue (n + 1) (c :: (s₁ ++ more)) := by
  unfold scanValue
  rw [skipSpace_append h, skipSpace_cons (skipSpace_head h)]

theorem value_succ {d : Doc} (hq : Quiet more) (hn : ScansSteadily more n) (hle : n ≤ n')
    (h : scanValue (n + 1) s = (d, some rest)) :
    scanValue (n' + 1) (s ++ more) = (d, some (rest ++ more)) := by
  unfold scanValue at h
  split at h
  case h_1 => cases h
  case h_2 s₁ hs =>
    rw [scanValue_skip hs]
    exact readWord_append h _
  case h_3 s₁ hs =>
    rw [scanValue_skip hs]
    exact readWord_append h _
  case h_4 s₁ hs =>
    rw [scanValue_skip hs]
    exact readWord_append h _
  case h_5 s₁ hs =>
    rw [scanValue_skip hs]
    exact readNumber_quiet hq h
  case h_6 s₁ hs =>
    rw [scanValue_skip hs]
    exact readText_append h hle _
  case h_7 s₁ hs =>
    rcases hi : scanItems n true s₁ [] with ⟨docs, closing, left⟩
    rw [hi] at h
    cases h
    rw [scanValue_skip hs]
    exact scanValue_array (hn.items hle hi)
  case h_8 s₁ hs =>
    rcases hi : scanMembers n true s₁ [] with ⟨docs, closing, left⟩
    rw [hi] at h
    cases h
    rw [scanValue_skip hs]
    exact scanValue_object (hn.members hle hi)
  case h_9 c s₁ _ _ _ _ _ _ _ hs =>
    split_ifs at h with hc
    · rw [scanValue_skip hs, scanValue_digit hc]
      exact readNumber_quiet hq h
    · cases h

theorem items_succ {first : Bool} {read docs : List Doc} (hn : ScansSteadily more n)
    (hle : n ≤ n') (h : scanItems (n + 1) first s read = (docs, closing, some rest)) :
    scanItems (n' + 1) first (s ++ more) read = (docs, closing, some (rest ++ more)) := by
  unfold scanItems at h ⊢
  split at h
  case h_1 => cases h
  case h_2 s₁ hs =>
    rw [skipSpace_append hs]
    cases h
    rfl
  case h_3 c s₁ hclose hs =>
    rw [skipSpace_append hs]
    cases first with
    | true =>
      simp only [if_true] at h ⊢
      exact hn.item hle h
    | false =>
      simp only [Bool.false_eq_true, if_false] at h ⊢
      split_ifs at h ⊢ with hcomma
      · split at h
        case h_1 => cases h
        case h_2 => cases h
        case h_3 e s₂ hclose' hs₂ =>
          rw [skipSpace_append hs₂]
          simp only
          exact hn.item hle h
      · cases h

theorem item_succ {read docs : List Doc} (hn : ScansSteadily more n) (hle : n ≤ n')
    (h : scanItem (n + 1) s read = (docs, closing, some rest)) :
    scanItem (n' + 1) (s ++ more) read = (docs, closing, some (rest ++ more)) := by
  unfold scanItem at h
  split at h
  case h_1 d s₁ hv =>
    rw [scanItem_value (hn.value hle hv)]
    exact hn.items hle h
  case h_2 => cases h

theorem members_succ {first : Bool} {read docs : List (Except Flaw String × Doc)}
    (hn : ScansSteadily more n) (hle : n ≤ n')
    (h : scanMembers (n + 1) first s read = (docs, closing, some rest)) :
    scanMembers (n' + 1) first (s ++ more) read = (docs, closing, some (rest ++ more)) := by
  unfold scanMembers at h ⊢
  split at h
  case h_1 => cases h
  case h_2 s₁ hs =>
    rw [skipSpace_append hs]
    cases h
    rfl
  case h_3 c s₁ hclose hs =>
    rw [skipSpace_append hs]
    cases first with
    | true =>
      simp only [if_true] at h ⊢
      split_ifs at h ⊢ with hquote
      · exact hn.member hle h
      · cases h
    | false =>
      simp only [Bool.false_eq_true, if_false] at h ⊢
      split_ifs at h ⊢ with hcomma
      · split at h
        case h_1 => cases h
        case h_2 => cases h
        case h_3 e s₂ hclose' hs₂ =>
          rw [skipSpace_append hs₂]
          simp only
          split_ifs at h ⊢ with hquote
          · exact hn.member hle h
          · cases h
      · cases h

def scanKeyed (n : Nat) (read : List (Except Flaw String × Doc)) (k : Except Flaw String)
    (s : List Char) : List (Except Flaw String × Doc) × Closing × Option (List Char) :=
  match skipSpace s with
  | [] => (((k, .stopped (.at .endInObject)) :: read).reverse, .closed, none)
  | ':' :: s =>
    match scanValue n s with
    | (d, some s) => scanMembers n false s ((k, d) :: read)
    | (d, none) => (((k, d) :: read).reverse, .stopped (.at .endInObject), none)
  | _ => (((k, .stopped (.at .expectedColon)) :: read).reverse, .closed, none)

theorem scanMember_eq (n : Nat) (s : List Char) (read : List (Except Flaw String × Doc)) :
    scanMember (n + 1) s read =
      match readString n [] s with
      | .ok (k, s) => scanKeyed n read (.ok k) s
      | .error f =>
        match skipString n s with
        | .ok s => scanKeyed n read (.error f) s
        | .error g => (((.error f, .stopped (.at g)) :: read).reverse, .closed, none) := by
  rw [scanMember]
  rfl

theorem keyed_succ {read docs : List (Except Flaw String × Doc)} {k : Except Flaw String}
    (hn : ScansSteadily more n) (hle : n ≤ n')
    (h : scanKeyed n read k s = (docs, closing, some rest)) :
    scanKeyed n' read k (s ++ more) = (docs, closing, some (rest ++ more)) := by
  unfold scanKeyed at h ⊢
  split at h
  case h_1 => cases h
  case h_2 s₁ hs =>
    rw [skipSpace_append hs]
    simp only
    split at h
    case h_1 d s₂ hv =>
      rw [hn.value hle hv]
      exact hn.members hle h
    case h_2 => cases h
  case h_3 => cases h

theorem member_succ {read docs : List (Except Flaw String × Doc)} (hn : ScansSteadily more n)
    (hle : n ≤ n') (h : scanMember (n + 1) s read = (docs, closing, some rest)) :
    scanMember (n' + 1) (s ++ more) read = (docs, closing, some (rest ++ more)) := by
  rw [scanMember_eq] at h ⊢
  cases hr : readString n [] s with
  | ok x =>
    rw [readString_append (.inl ⟨x, hr⟩) hle, hr]
    rw [hr] at h
    exact keyed_succ hn hle h
  | error f =>
    rw [hr] at h
    cases hk : skipString n s with
    | error g =>
      rw [hk] at h
      cases h
    | ok s₁ =>
      rw [readString_append (.inr ⟨n, Nat.le_refl n, s₁, hk⟩) hle, hr,
        skipString_append hk hle]
      rw [hk] at h
      exact keyed_succ hn hle h

end Steps

theorem scansSteadily {more : List Char} (hq : Quiet more) (n : Nat) : ScansSteadily more n := by
  induction n with
  | zero => exact scansSteadily_zero more
  | succ n ih =>
    exact {
      value := fun hle h => by
        obtain ⟨k, rfl, hk⟩ := exists_succ hle
        exact value_succ hq ih hk h
      items := fun hle h => by
        obtain ⟨k, rfl, hk⟩ := exists_succ hle
        exact items_succ ih hk h
      item := fun hle h => by
        obtain ⟨k, rfl, hk⟩ := exists_succ hle
        exact item_succ ih hk h
      members := fun hle h => by
        obtain ⟨k, rfl, hk⟩ := exists_succ hle
        exact members_succ ih hk h
      member := fun hle h => by
        obtain ⟨k, rfl, hk⟩ := exists_succ hle
        exact member_succ ih hk h }

theorem scan_append {s rest more : List Char} {d : Doc} (hq : Quiet more)
    (h : scan s = (d, some rest)) : scan (s ++ more) = (d, some (rest ++ more)) := by
  refine (scansSteadily hq _).value ?_ h
  rw [List.length_append]
  omega

theorem scan_blank {b s rest : List Char} {d : Doc} (hb : ∀ c ∈ b, isSpace c = true)
    (h : scan s = (d, some rest)) : scan (b ++ s) = (d, some rest) := by
  have hsteps : 3 * s.length + 3 ≤ 3 * (b ++ s).length + 3 := by
    rw [List.length_append]
    omega
  have hquiet : Quiet [] := by simp [Quiet]
  have hmore := (scansSteadily hquiet _).value hsteps h
  rw [List.append_nil, List.append_nil] at hmore
  rw [scan, scanValue_blank hb, hmore]

/-- A JSON text is a document to whose value nothing but space is left over. -/
theorem parse_eq_ok_iff {s : List Char} {v : Json} :
    parse s = .ok v ↔ ∃ d rest, scan s = (d, some rest) ∧ Doc.value maxDepth d = .ok v ∧
      skipSpace rest = [] := by
  unfold parse decode
  rcases scan s with ⟨d, _ | rest⟩
  · simp only [any]
    cases Doc.value maxDepth d <;> simp
  · simp only [any]
    cases hd : Doc.value maxDepth d with
    | error e => simp [hd]
    | ok w => by_cases hrest : skipSpace rest = [] <;> simp [hrest, hd]

theorem parse_blank {b s : List Char} {v : Json} (hb : ∀ c ∈ b, isSpace c = true)
    (h : parse s = .ok v) : parse (b ++ s) = .ok v := by
  obtain ⟨d, rest, hs, hd, hrest⟩ := parse_eq_ok_iff.mp h
  exact parse_eq_ok_iff.mpr ⟨d, rest, scan_blank hb hs, hd, hrest⟩

/-- A JSON text stays one with space behind it, and is none any more with
anything else behind it that no number goes on with. -/
theorem parse_append {s more : List Char} {v : Json} (hq : Quiet more) (h : parse s = .ok v) :
    parse (s ++ more) =
      if (skipSpace more).isEmpty then .ok v else .error (.flaw .trailingCharacters) := by
  obtain ⟨d, rest, hs, hd, hrest⟩ := parse_eq_ok_iff.mp h
  have hskip : skipSpace (rest ++ more) = skipSpace more := by
    rw [skipSpace] at hrest ⊢
    simp [List.dropWhile_append, hrest, skipSpace]
  have hvalue : any .text maxDepth d = .ok v := hd
  rw [parse, decode, scan_append hq hs]
  simp only [hvalue, hskip]

theorem parse_close {s : List Char} {v : Json} (h : parse s = .ok v) (t : List Char) :
    parse (s ++ ')' :: t) = .error (.flaw .trailingCharacters) :=
  parse_append (quiet_close t) h

end Cardwalk.Json
