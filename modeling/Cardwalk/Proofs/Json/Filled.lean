import Cardwalk.Proofs.Json.RoundTrip
import Cardwalk.Proofs.Json.Record

/-!
# Records read back

A record that is written member by member, in the order of its slots, is read
back member by member. A member that names the kind of the record may stand
before them.
-/

set_option autoImplicit false

namespace Cardwalk.Json

theorem decode_spaced {α : Type} {v : Json} (hr : Every Readable v) (d : Decoder α)
    (g : Spacing) (depth : Nat) :
    decode d (spaced g depth v) = d .text maxDepth (Doc.ofJson v) := by
  rw [decode, scan_spaced hr]
  cases h : d .text maxDepth (Doc.ofJson v) <;> simp [h, skipSpace]

theorem decode_compactChars {α : Type} {v : Json} (hr : Every Readable v) (d : Decoder α) :
    decode d (compactChars v) = d .text maxDepth (Doc.ofJson v) :=
  spaced_tight v 0 ▸ decode_spaced hr d tight 0

theorem decode_prettyChars {α : Type} {v : Json} (hr : Every Readable v) (d : Decoder α)
    (depth : Nat) : decode d (prettyChars depth v) = d .text maxDepth (Doc.ofJson v) :=
  spaced_indented v depth ▸ decode_spaced hr d indented depth

namespace Decoder

variable {ρ α : Type} {origin : Origin} {depth : Nat}

theorem slot_read {key : String} {absent : Absent} {d : Decoder α} {put : α → ρ → ρ} {v : Json}
    {a : α} (h : d origin depth (Doc.ofJson v) = .ok a) :
    (slot key absent d put).read origin depth (Doc.ofJson v) = .ok (put a) := by
  simp only [slot, h]
  rfl

theorem natural_read {max n : Nat} (h : n ≤ max) (expected : String) :
    natural max expected origin depth (Doc.ofJson (.ofNat n)) = .ok n := by
  have hn : (0 : Int) ≤ n ∧ (n : Int) ≤ max := by omega
  simp only [ofNat, Doc.ofJson, natural]
  rw [if_pos hn]
  rfl

theorem list_read {d : Decoder α} {f : α → Json} {as : List α}
    (h : ∀ a ∈ as, d origin depth (Doc.ofJson (f a)) = .ok a) :
    list d origin (depth + 1) (Doc.ofJson (.array (as.map f))) = .ok as := by
  have hitems : readItems (d origin depth) (Doc.ofItems (as.map f)) = .ok as := by
    induction as with
    | nil => rfl
    | cons a as ih =>
      rw [List.forall_mem_cons] at h
      simp [Doc.ofItems, readItems, h.1, ih h.2, Except.map]
  simp [Doc.ofJson, list, hitems, Closing.check, Except.map]

theorem members_read {ms : Members} (h : Doc.value depth (Doc.ofJson (.object ms)) =
    .ok (.object ms)) : members origin depth (Doc.ofJson (.object ms)) = .ok ms := by
  simp only [Doc.ofJson, members] at h ⊢
  rw [h]

namespace RecordKind

/-- The members fill the slots in their order, and turn one record into
another. A member that need not be there may be missing. -/
inductive Filled (origin : Origin) (depth : Nat) : List (Slot ρ) → Members → ρ → ρ → Prop
  | done (r : ρ) : Filled origin depth [] [] r r
  | member {s : Slot ρ} {slots : List (Slot ρ)} {v : Json} {ms : Members} {r r' : ρ}
      {put : ρ → ρ} (h : s.read origin depth (Doc.ofJson v) = .ok put)
      (rest : Filled origin depth slots ms (put r) r') :
      Filled origin depth (s :: slots) ((s.key, v) :: ms) r r'
  | absent {s : Slot ρ} {slots : List (Slot ρ)} {ms : Members} {r r' : ρ}
      (h : s.absent ≠ .required) (rest : Filled origin depth slots ms r r') :
      Filled origin depth (s :: slots) ms r r'

variable {kind : RecordKind ρ}

theorem key_fresh {before slots : List (Slot ρ)} {s : Slot ρ}
    (hk : kind.slots = before ++ s :: slots) (hd : kind.keys.Nodup) :
    s.key ∉ before.map (·.key) := by
  rw [keys, hk, List.map_append, List.map_cons] at hd
  exact fun hin => (List.nodup_append.mp hd).2.2 _ hin _ List.mem_cons_self rfl

theorem find_slot {before slots : List (Slot ρ)} {s : Slot ρ}
    (hk : kind.slots = before ++ s :: slots) (hd : kind.keys.Nodup) :
    (kind.slots.find? fun t => t.key = s.key) = some s := by
  have hfresh := key_fresh hk hd
  have hbefore : (before.find? fun t => t.key = s.key) = none := by
    refine List.find?_eq_none.mpr fun t ht => ?_
    have hne : t.key ≠ s.key := fun he => hfresh (he ▸ List.mem_map_of_mem ht)
    simpa using hne
  simp [hk, List.find?_append, hbefore]

theorem readMembers_filled {before slots : List (Slot ρ)} {ms : Members} {seen : List String}
    {r r' : ρ} (hk : kind.slots = before ++ slots) (hd : kind.keys.Nodup)
    (hseen : ∀ k ∈ seen, k ∈ before.map (·.key)) (h : Filled origin depth slots ms r r') :
    ∃ seen', kind.readMembers origin depth (Doc.ofMembers ms) seen r = .ok (seen', r') ∧
      seen ⊆ seen' ∧ ∀ s ∈ slots, s.absent = .required → s.key ∈ seen' := by
  induction h generalizing before seen with
  | done r => exact ⟨seen, rfl, List.Subset.refl seen, by simp⟩
  | @member s slots v ms r r' put h rest ih =>
    have hfresh : seen.contains s.key = false := by
      simpa using fun hin => key_fresh hk hd (hseen s.key hin)
    have hnext : ∀ k ∈ s.key :: seen, k ∈ (before ++ [s]).map (·.key) := by
      intro k hin
      rw [List.map_append, List.mem_append]
      rcases List.mem_cons.mp hin with rfl | hin
      · exact .inr (by simp)
      · exact .inl (hseen k hin)
    obtain ⟨seen', hread, hsub, hrequired⟩ := ih (by simpa using hk) hnext
    refine ⟨seen', ?_, List.subset_of_cons_subset hsub, ?_⟩
    · simp only [Doc.ofMembers, readMembers, find_slot hk hd, hfresh, h]
      exact hread
    · exact List.forall_mem_cons.mpr ⟨fun _ => hsub List.mem_cons_self, hrequired⟩
  | @absent s slots ms r r' h rest ih =>
    have hnext : ∀ k ∈ seen, k ∈ (before ++ [s]).map (·.key) := by
      intro k hin
      rw [List.map_append, List.mem_append]
      exact .inl (hseen k hin)
    obtain ⟨seen', hread, hsub, hrequired⟩ := ih (by simpa using hk) hnext
    exact ⟨seen', hread, hsub, List.forall_mem_cons.mpr ⟨fun hr => absurd hr h, hrequired⟩⟩

theorem readObject_filled {ms : Members} {r : ρ} (hd : kind.keys.Nodup)
    (h : Filled origin depth kind.slots ms kind.blank r) :
    kind.readObject origin depth (Doc.ofMembers ms) .closed = .ok r := by
  have hnone : ∀ k ∈ ([] : List String), k ∈ ([] : List (Slot ρ)).map (·.key) := by simp
  obtain ⟨seen, hread, -, hrequired⟩ := readMembers_filled (by rfl) hd hnone h
  have hmissing : kind.missing seen = none := by
    refine Option.map_eq_none_iff.mpr (List.find?_eq_none.mpr fun s hs => ?_)
    have hin := hrequired s hs
    by_cases ha : s.absent = .required <;> simp_all
  simp [readObject, hread, Closing.check, hmissing]

theorem decoder_filled {ms : Members} {r : ρ} (hd : kind.keys.Nodup)
    (h : Filled origin depth kind.slots ms kind.blank r) :
    kind.decoder origin (depth + 1) (Doc.ofJson (.object ms)) = .ok r := by
  rw [← readObject_filled hd h]
  cases origin <;> rfl

end RecordKind

theorem splitTag_aside {tag : String} {names : List (String × α)} {ms : Members}
    (htag : tag ∉ ms.keys) (hms : ∀ m ∈ ms, Every Distinct m.2 ∧ height m.2 ≤ depth)
    (found : Option α) (aside : List (Except Flaw String × Doc)) :
    splitTag tag names depth (Doc.ofMembers ms) found aside =
      .ok (found, aside.reverse ++ Doc.ofMembers ms) := by
  induction ms generalizing aside with
  | nil => simp [Doc.ofMembers, splitTag]
  | cons m ms ih =>
    obtain ⟨k, v⟩ := m
    obtain ⟨hv, hms⟩ := List.forall_mem_cons.mp hms
    rw [Members.keys, List.map_cons, List.mem_cons, not_or] at htag
    have hvalue := value_ofJson v depth hv.1 hv.2
    simp only [Doc.ofMembers, splitTag, if_neg (Ne.symm htag.1), hvalue, ih htag.2 hms]
    simp

section Tagged

variable {title tag : String} {kinds : List (String × RecordKind ρ × (ρ → α))} {ms : Members}

theorem tagged_filled {name : String} {kind : RecordKind ρ} {make : ρ → α} {r : ρ}
    (hname : lookup kinds name = .ok (kind, make)) (hd : kind.keys.Nodup) (htag : tag ∉ ms.keys)
    (hms : ∀ m ∈ ms, Every Distinct m.2 ∧ height m.2 ≤ depth)
    (h : RecordKind.Filled .aside depth kind.slots ms kind.blank r) :
    tagged title tag kinds .text (depth + 1)
      (Doc.ofJson (.object ((tag, .string name) :: ms))) = .ok (make r) := by
  have hsplit : splitTag tag kinds depth (Doc.ofMembers ((tag, .string name) :: ms)) none [] =
      .ok (some (kind, make), Doc.ofMembers ms) := by
    simp only [Doc.ofMembers, Doc.ofJson, splitTag, hname, splitTag_aside htag hms]
    rfl
  simp only [Doc.ofJson, tagged, Nat.add_sub_cancel, hsplit, Closing.check,
    RecordKind.readObject_filled hd h]
  rfl

end Tagged

end Decoder

end Cardwalk.Json
