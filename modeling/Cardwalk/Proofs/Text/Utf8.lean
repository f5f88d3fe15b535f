import Mathlib.Tactic.IntervalCases
import Mathlib.Tactic.SplitIfs
import Cardwalk.Text.Utf8

/-!
# Texts and their bytes

What is decoded up to a line end does not depend on what stands behind it, and
the bytes of a text decode to the text.
-/

set_option autoImplicit false

namespace Cardwalk.Text

/-- The bytes of a text. -/
def encode (s : List Char) : List UInt8 := s.flatMap String.utf8EncodeChar

theorem headChar_owned (first : UInt8) (rest : List UInt8) :
    (headChar first rest).2 ≤ rest.length := by
  unfold headChar
  split <;> (try split) <;> (try split) <;> (try split) <;> simp

theorem allowsSecond_lineFeed (first : UInt8) : allowsSecond first 10 = false := by
  unfold allowsSecond
  split_ifs <;> decide

theorem announced_le (first : UInt8) : announced first ≤ 4 := by
  unfold announced
  split_ifs <;> decide

theorem headChar_lineFeed (first : UInt8) (rest more : List UInt8) :
    headChar first (rest ++ 10 :: more) = headChar first rest := by
  have hc : isContinuation 10 = false := by decide
  have hs := allowsSecond_lineFeed first
  have hn := announced_le first
  unfold headChar
  generalize announced first = n at hn
  interval_cases n
  · rfl
  · rfl
  · cases rest <;> simp [hc]
  · rcases rest with _ | ⟨a, _ | ⟨b, rest⟩⟩
    · cases more <;> simp [hs]
    · cases ha : allowsSecond first a <;> simp [ha, hc]
    · rfl
  · rcases rest with _ | ⟨a, _ | ⟨b, _ | ⟨c, rest⟩⟩⟩
    · rcases more with _ | ⟨d, _ | ⟨e, more⟩⟩ <;> simp [hs]
    · cases more <;> cases ha : allowsSecond first a <;> simp [ha, hc]
    · cases ha : allowsSecond first a <;> cases hb : isContinuation b <;> simp [ha, hb, hc]
    · rfl

theorem headChar_of_lineFeed (rest : List UInt8) : headChar 10 rest = (some '\n', 0) := rfl

theorem readBytes_eq (bytes : List UInt8) (owned : Nat) (read : List (Option Char)) :
    readBytes bytes owned read = read.reverse ++ readBytes bytes owned [] := by
  induction bytes generalizing owned read with
  | nil => simp [readBytes]
  | cons b bytes ih =>
    cases owned with
    | zero =>
      simp only [readBytes]
      rw [ih, ih _ [_]]
      simp
    | succ owned => exact ih owned read

theorem readBytes_lineFeed (before after : List UInt8) {owned : Nat} (h : owned ≤ before.length) :
    readBytes (before ++ 10 :: after) owned [] =
      readBytes before owned [] ++ some '\n' :: readBytes after 0 [] := by
  induction before generalizing owned with
  | nil =>
    obtain rfl : owned = 0 := by simpa using h
    simp only [List.nil_append, readBytes, headChar_of_lineFeed]
    rw [readBytes_eq]
    rfl
  | cons b before ih =>
    cases owned with
    | zero =>
      simp only [List.cons_append, readBytes, headChar_lineFeed]
      rw [readBytes_eq, readBytes_eq before, ih (headChar_owned b before)]
      simp
    | succ owned => exact ih (by simpa using h)

/-- A byte string is read line by line to the same text as at once. -/
theorem decodeLossy_lineFeed (before after : List UInt8) :
    decodeLossy (before ++ 10 :: after) = decodeLossy before ++ '\n' :: decodeLossy after := by
  simp [decodeLossy, readBytes_lineFeed before after (Nat.zero_le _)]

theorem headChar_one {first : UInt8} (hn : announced first = 1) (rest : List UInt8) :
    headChar first rest = (some (Char.ofNat first.toNat), 0) := by
  unfold headChar
  rw [hn]
  rfl

theorem headChar_two {first b : UInt8} (hn : announced first = 2)
    (hb : isContinuation b = true) (rest : List UInt8) :
    headChar first (b :: rest) =
      (some (Char.ofNat (first.toNat % 32 * 64 + b.toNat % 64)), 1) := by
  unfold headChar
  rw [hn]
  simp only [hb, if_true]
  rfl

theorem headChar_three {first b c : UInt8} (hn : announced first = 3)
    (hb : allowsSecond first b = true) (hc : isContinuation c = true) (rest : List UInt8) :
    headChar first (b :: c :: rest) =
      (some (Char.ofNat (first.toNat % 16 * 4096 + b.toNat % 64 * 64 + c.toNat % 64)), 2) := by
  unfold headChar
  rw [hn]
  simp only [hb, hc, if_true]
  rfl

theorem headChar_four {first b c d : UInt8} (hn : announced first = 4)
    (hb : allowsSecond first b = true) (hc : isContinuation c = true)
    (hd : isContinuation d = true) (rest : List UInt8) :
    headChar first (b :: c :: d :: rest) =
      (some (Char.ofNat (first.toNat % 8 * 262144 + b.toNat % 64 * 4096 + c.toNat % 64 * 64
        + d.toNat % 64)), 3) := by
  unfold headChar
  rw [hn]
  simp only [hb, hc, hd, if_true]
  rfl

theorem announced_ofNat {n : Nat} (h : n < 256) :
    announced (UInt8.ofNat n) =
      if n ≤ 0x7F then 1 else if 0xC2 ≤ n ∧ n ≤ 0xDF then 2
      else if 0xE0 ≤ n ∧ n ≤ 0xEF then 3 else if 0xF0 ≤ n ∧ n ≤ 0xF4 then 4 else 0 := by
  simp [announced, UInt8.le_iff_toNat_le, Nat.mod_eq_of_lt h]

theorem isContinuation_ofNat {n : Nat} (h : n < 64) :
    isContinuation (UInt8.ofNat (n + 128)) = true := by
  have hn : (n + 128) % 256 = n + 128 := by omega
  simp [isContinuation, UInt8.le_iff_toNat_le, hn]
  omega

theorem allowsSecond_ofNat {m n : Nat} (hm : m < 256) (hn : n < 64)
    (he0 : m = 0xE0 → 32 ≤ n) (hed : m = 0xED → n < 32) (hf0 : m = 0xF0 → 16 ≤ n)
    (hf4 : m = 0xF4 → n < 16) :
    allowsSecond (UInt8.ofNat m) (UInt8.ofNat (n + 128)) = true := by
  have hm' : m % 256 = m := Nat.mod_eq_of_lt hm
  have hn' : (n + 128) % 256 = n + 128 := by omega
  simp [allowsSecond, ← UInt8.toNat_inj, UInt8.le_iff_toNat_le, isContinuation, hm', hn']
  split_ifs <;> omega

theorem tail_mod (n : Nat) : (n % 64 + 128) % 256 % 64 = n % 64 := by omega

theorem headChar_utf8EncodeChar (c : Char) :
    ∃ first more, String.utf8EncodeChar c = first :: more ∧
      ∀ rest, headChar first (more ++ rest) = (some c, more.length) := by
  have hv : c.val.toNat < 0xD800 ∨ 0xDFFF < c.val.toNat ∧ c.val.toNat < 0x110000 := c.valid
  have hc : Char.ofNat c.val.toNat = c := Char.ofNat_toNat c
  unfold String.utf8EncodeChar
  generalize c.val.toNat = n at hv hc
  by_cases h1 : n ≤ 127
  · have hlead : announced (UInt8.ofNat n) = 1 := by
      rw [announced_ofNat (by omega), if_pos h1]
    refine ⟨_, _, if_pos h1, fun rest => ?_⟩
    rw [headChar_one hlead]
    simp [Nat.mod_eq_of_lt (show n < 256 by omega), hc]
  have hlast : isContinuation (UInt8.ofNat (n % 64 + 128)) = true :=
    isContinuation_ofNat (by omega)
  by_cases h2 : n ≤ 2047
  · have hlead : announced (UInt8.ofNat (n / 64 % 32 + 192)) = 2 := by
      rw [announced_ofNat (by omega)]
      split_ifs <;> omega
    have hl : (n / 64 % 32 + 192) % 256 % 32 = n / 64 := by omega
    refine ⟨_, _, (if_neg h1).trans (if_pos h2), fun rest => ?_⟩
    rw [List.singleton_append, headChar_two hlead hlast]
    simp only [UInt8.toNat_ofNat', Nat.reducePow, hl, tail_mod, Nat.div_add_mod', hc,
      List.length_cons, List.length_nil]
  by_cases h3 : n ≤ 65535
  · have hlead : announced (UInt8.ofNat (n / 4096 % 16 + 224)) = 3 := by
      rw [announced_ofNat (by omega)]
      split_ifs <;> omega
    have hsecond : allowsSecond (UInt8.ofNat (n / 4096 % 16 + 224))
        (UInt8.ofNat (n / 64 % 64 + 128)) = true :=
      allowsSecond_ofNat (by omega) (by omega) (by omega) (by omega) (by omega) (by omega)
    have hl : (n / 4096 % 16 + 224) % 256 % 16 = n / 4096 := by omega
    have hsum : n / 4096 * 4096 + n / 64 % 64 * 64 + n % 64 = n := by omega
    refine ⟨_, _, (if_neg h1).trans ((if_neg h2).trans (if_pos h3)), fun rest => ?_⟩
    rw [List.cons_append, List.singleton_append, headChar_three hlead hsecond hlast]
    simp only [UInt8.toNat_ofNat', Nat.reducePow, hl, tail_mod, hsum, hc, List.length_cons,
      List.length_nil]
  · have hlead : announced (UInt8.ofNat (n / 262144 % 8 + 240)) = 4 := by
      rw [announced_ofNat (by omega)]
      split_ifs <;> omega
    have hsecond : allowsSecond (UInt8.ofNat (n / 262144 % 8 + 240))
        (UInt8.ofNat (n / 4096 % 64 + 128)) = true :=
      allowsSecond_ofNat (by omega) (by omega) (by omega) (by omega) (by omega) (by omega)
    have hthird : isContinuation (UInt8.ofNat (n / 64 % 64 + 128)) = true :=
      isContinuation_ofNat (by omega)
    have hl : (n / 262144 % 8 + 240) % 256 % 8 = n / 262144 := by omega
    have hsum : n / 262144 * 262144 + n / 4096 % 64 * 4096 + n / 64 % 64 * 64 + n % 64 = n := by
      omega
    refine ⟨_, _, (if_neg h1).trans ((if_neg h2).trans (if_neg h3)), fun rest => ?_⟩
    rw [List.cons_append, List.cons_append, List.singleton_append,
      headChar_four hlead hsecond hthird hlast]
    simp only [UInt8.toNat_ofNat', Nat.reducePow, hl, tail_mod, hsum, hc, List.length_cons,
      List.length_nil]

theorem readBytes_owned (bytes rest : List UInt8) (read : List (Option Char)) :
    readBytes (bytes ++ rest) bytes.length read = readBytes rest 0 read := by
  induction bytes with
  | nil => rfl
  | cons b bytes ih => exact ih

theorem readBytes_encode (s : List Char) : readBytes (encode s) 0 [] = s.map some := by
  induction s with
  | nil => rfl
  | cons c s ih =>
    obtain ⟨first, more, hc, hread⟩ := headChar_utf8EncodeChar c
    rw [encode, List.flatMap_cons, hc, ← encode, List.cons_append, readBytes, hread]
    simp only [readBytes_owned]
    rw [readBytes_eq, ih]
    rfl

theorem decodeLossy_encode (s : List Char) : decodeLossy (encode s) = s := by
  simp [decodeLossy, readBytes_encode]

theorem encode_append (s t : List Char) : encode (s ++ t) = encode s ++ encode t :=
  List.flatMap_append

theorem lineFeed_mem_utf8EncodeChar {c : Char} (h : 10 ∈ String.utf8EncodeChar c) : c = '\n' := by
  have hc : Char.ofNat c.val.toNat = c := Char.ofNat_toNat c
  have hbyte : ∀ m, 10 = UInt8.ofNat m → m % 256 = 10 := fun m e => by
    simpa using (congrArg UInt8.toNat e).symm
  unfold String.utf8EncodeChar at h
  generalize c.val.toNat = n at h hc
  have hn : n = 10 := by
    simp only at h
    split_ifs at h with h1 h2 h3 <;> simp only [List.mem_cons, List.not_mem_nil, or_false] at h
    · have := hbyte _ h
      omega
    · rcases h with h | h <;> have := hbyte _ h <;> omega
    · rcases h with h | h | h <;> have := hbyte _ h <;> omega
    · rcases h with h | h | h | h <;> have := hbyte _ h <;> omega
  rw [← hc, hn]

theorem encode_lineFeed (s t : List Char) :
    encode (s ++ '\n' :: t) = encode s ++ 10 :: encode t := by
  rw [encode_append]
  rfl

theorem lineFeed_mem_encode {s : List Char} (h : 10 ∈ encode s) : '\n' ∈ s := by
  obtain ⟨c, hc, hm⟩ := List.mem_flatMap.mp h
  exact lineFeed_mem_utf8EncodeChar hm ▸ hc

end Cardwalk.Text
