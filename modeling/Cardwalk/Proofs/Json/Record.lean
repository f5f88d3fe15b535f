import Cardwalk.Json.Decode

/-!
# Fields of a record

A record may be written as an object or as a list. Either way a field has the
value that stands for it, and the default where none does.
-/

set_option autoImplicit false

namespace Cardwalk.Json.Decoder

variable {ρ α : Type}

/-- What a slot does to one field: the slot of its key sets it, the others
leave it alone. -/
def Writes (key : String) (d : Decoder α) (get : ρ → α) (s : Slot ρ) : Prop :=
  ∀ origin depth doc put, s.read origin depth doc = .ok put →
    (s.key = key → ∃ a, d origin depth doc = .ok a ∧ ∀ r, get (put r) = a) ∧
    (s.key ≠ key → ∀ r, get (put r) = get r)

theorem map_eq_ok {β ε : Type} {f : α → β} {x : Except ε α} {b : β} (h : x.map f = .ok b) :
    ∃ a, x = .ok a ∧ f a = b := by
  cases x with
  | error e => simp [Except.map] at h
  | ok a => exact ⟨a, rfl, Except.ok.inj h⟩

theorem writes_own {key : String} {absent : Absent} {d : Decoder α} {put : α → ρ → ρ}
    {get : ρ → α} (h : ∀ a r, get (put a r) = a) : Writes key d get (slot key absent d put) := by
  intro origin depth doc put' hr
  obtain ⟨a, ha, rfl⟩ := map_eq_ok hr
  exact ⟨fun _ => ⟨a, ha, h a⟩, fun hk => absurd rfl hk⟩

theorem writes_other {β : Type} {key other : String} {absent : Absent} {d : Decoder α}
    {d' : Decoder β} {put : β → ρ → ρ} {get : ρ → α} (hk : other ≠ key)
    (h : ∀ b r, get (put b r) = get r) : Writes key d get (slot other absent d' put) := by
  intro origin depth doc put' hr
  obtain ⟨b, -, rfl⟩ := map_eq_ok hr
  exact ⟨fun he => absurd he hk, fun _ => h b⟩

def Given (d : Decoder α) (origin : Origin) (depth : Nat) (standard a : α) :
    Option Doc → Prop
  | none => a = standard
  | some doc => d origin depth doc = .ok a

def member? (key : String) : List (Except Flaw String × Doc) → Option Doc
  | [] => none
  | (.error _, _) :: rest => member? key rest
  | (.ok k, doc) :: rest => if k = key then some doc else member? key rest

theorem member?_ofMembers (key : String) (ms : Members) :
    member? key (Doc.ofMembers ms) = (ms.get? key).map Doc.ofJson := by
  induction ms with
  | nil => rfl
  | cons m ms ih =>
    obtain ⟨k, v⟩ := m
    by_cases hk : k = key <;> simp [Doc.ofMembers, member?, Members.get?, hk, ih]

def listed (keys : List String) (docs : List Doc) : List (Except Flaw String × Doc) :=
  (keys.map .ok).zip docs

theorem listed_ofItems (keys : List String) (items : List Json) :
    listed keys (Doc.ofItems items) = Doc.ofMembers (keys.zip items) := by
  induction keys generalizing items with
  | nil => rfl
  | cons k keys ih =>
    cases items with
    | nil => rfl
    | cons v items =>
      have hrest := ih items
      simp only [listed] at hrest
      simp [listed, Doc.ofItems, Doc.ofMembers, hrest]

theorem member?_listed_of_not_mem {key : String} {keys : List String} (h : key ∉ keys)
    (docs : List Doc) : member? key (listed keys docs) = none := by
  induction keys generalizing docs with
  | nil => rfl
  | cons k keys ih =>
    rw [List.mem_cons, not_or] at h
    cases docs with
    | nil => rfl
    | cons doc docs =>
      have hrest := ih h.2 docs
      simp only [listed] at hrest
      simp [listed, member?, Ne.symm h.1, hrest]

namespace RecordKind

def keys (kind : RecordKind ρ) : List String := kind.slots.map (·.key)

def fields (kind : RecordKind ρ) : Json → Members
  | .object ms => ms
  | .array items => kind.keys.zip items
  | _ => []

def entries (kind : RecordKind ρ) : Doc → List (Except Flaw String × Doc)
  | .object ms _ => ms
  | .array docs _ => listed kind.keys docs
  | _ => []

/-- What stands for a field, as a member of its key or as an item at its place. -/
def field? (kind : RecordKind ρ) (key : String) (doc : Doc) : Option Doc :=
  member? key (kind.entries doc)

theorem field?_ofJson (kind : RecordKind ρ) (key : String) (v : Json) :
    kind.field? key (Doc.ofJson v) = ((kind.fields v).get? key).map Doc.ofJson := by
  cases v with
  | object ms => exact member?_ofMembers key ms
  | array items =>
    simp only [field?, Doc.ofJson, entries, fields, listed_ofItems]
    exact member?_ofMembers key (kind.keys.zip items)
  | _ => rfl

structure Field (kind : RecordKind ρ) (key : String) (d : Decoder α) (get : ρ → α) : Prop where
  known : key ∈ kind.keys
  distinct : kind.keys.Nodup
  writes : ∀ s ∈ kind.slots, Writes key d get s

variable {kind : RecordKind ρ} {key : String} {d : Decoder α} {get : ρ → α}
  {origin : Origin} {depth : Nat}

theorem Field.found (field : kind.Field key d get) :
    (kind.slots.find? fun s => s.key = key).isSome := by
  obtain ⟨s, hs, hk⟩ := List.mem_map.mp field.known
  exact List.find?_isSome.mpr ⟨s, hs, by simpa using hk⟩

theorem Field.readMembers (field : kind.Field key d get)
    {ms : List (Except Flaw String × Doc)} {seen seen' : List String} {r r' : ρ}
    (h : kind.readMembers origin depth ms seen r = .ok (seen', r')) :
    (key ∈ seen → member? key ms = none) ∧
      Given d origin depth (get r) (get r') (member? key ms) := by
  induction ms generalizing seen r with
  | nil =>
    simp only [RecordKind.readMembers, Except.ok.injEq, Prod.mk.injEq] at h
    exact ⟨fun _ => rfl, congrArg get h.2.symm⟩
  | cons m ms ih =>
    obtain ⟨_ | k, doc⟩ := m
    · simp [RecordKind.readMembers] at h
    simp only [RecordKind.readMembers] at h
    cases hs : kind.slots.find? fun s => s.key = k with
    | none =>
      have hk : k ≠ key := by
        rintro rfl
        simpa [hs] using field.found
      simp only [hs] at h
      simp only [member?, if_neg hk]
      split at h
      · simp at h
      · split at h
        · exact ih h
        · simp at h
    | some s =>
      have hkey : s.key = k := by simpa using List.find?_some hs
      have hmem := List.mem_of_find?_eq_some hs
      simp only [hs] at h
      split at h
      · simp at h
      · rename_i hseen
        split at h
        · rename_i put hread
          obtain ⟨hown, hother⟩ := field.writes s hmem origin depth doc put hread
          obtain ⟨hagain, hgiven⟩ := ih h
          by_cases hk : k = key
          · obtain ⟨a, ha, hput⟩ := hown (hkey.trans hk)
            have hnone : member? key ms = none := hagain (by simp [hk])
            rw [hnone] at hgiven
            have hget : get r' = a := hgiven.trans (hput r)
            refine ⟨fun hin => absurd ?_ hseen, ?_⟩
            · simpa [hk] using hin
            · simpa [member?, hk, Given, hget] using ha
          · simp only [member?, if_neg hk]
            rw [hother fun he => hk (hkey.symm.trans he)] at hgiven
            exact ⟨fun hin => hagain (List.mem_cons_of_mem k hin), hgiven⟩
        · simp at h

theorem readMembers_seen {ms : List (Except Flaw String × Doc)} {seen seen' : List String}
    {r r' : ρ} (h : kind.readMembers origin depth ms seen r = .ok (seen', r'))
    (hkey : key ∈ seen') : key ∈ seen ∨ (member? key ms).isSome := by
  induction ms generalizing seen r with
  | nil =>
    simp only [RecordKind.readMembers, Except.ok.injEq, Prod.mk.injEq] at h
    exact .inl (h.1 ▸ hkey)
  | cons m ms ih =>
    obtain ⟨_ | k, doc⟩ := m
    · simp [RecordKind.readMembers] at h
    by_cases hk : k = key
    · exact .inr (by simp [member?, hk])
    · simp only [member?, if_neg hk]
      simp only [RecordKind.readMembers] at h
      split at h
      · split at h
        · simp at h
        · split at h
          · exact (ih h).imp_left fun hin => List.mem_of_ne_of_mem (Ne.symm hk) hin
          · simp at h
      · split at h
        · simp at h
        · split at h
          · exact ih h
          · simp at h

theorem readList_field {slots : List (Slot ρ)} (hd : (slots.map (·.key)).Nodup)
    (hw : ∀ s ∈ slots, Writes key d get s) {docs : List Doc} {closing : Closing} {count : Nat}
    {r r' : ρ} (h : kind.readList origin depth closing slots count docs r = .ok r') :
    Given d origin depth (get r) (get r')
      (member? key (listed (slots.map (·.key)) docs)) := by
  induction slots generalizing docs count r with
  | nil =>
    obtain ⟨-, -, rfl⟩ := map_eq_ok h
    rfl
  | cons s slots ih =>
    have hd' := List.nodup_cons.mp hd
    have hw' : ∀ s ∈ slots, Writes key d get s := fun s hs => hw s (by simp [hs])
    cases docs with
    | nil =>
      simp only [readList] at h
      split at h
      · simp at h
      · split at h
        · have hgiven := ih hd'.2 hw' h
          simpa [listed, member?] using hgiven
        · simp at h
    | cons doc docs =>
      simp only [readList] at h
      split at h
      · rename_i put hread
        obtain ⟨hown, hother⟩ := hw s (by simp) origin depth doc put hread
        have hgiven := ih hd'.2 hw' h
        by_cases hk : s.key = key
        · obtain ⟨a, ha, hput⟩ := hown hk
          rw [member?_listed_of_not_mem (hk ▸ hd'.1)] at hgiven
          have hget : get r' = a := hgiven.trans (hput r)
          simpa [listed, member?, hk, Given, hget] using ha
        · rw [hother hk] at hgiven
          simpa [listed, member?, hk] using hgiven
      · simp at h

theorem readList_required {slots : List (Slot ρ)} {s : Slot ρ} (hs : s ∈ slots)
    (hr : s.absent = .required) {docs : List Doc} {closing : Closing} {count : Nat} {r r' : ρ}
    (h : kind.readList origin depth closing slots count docs r = .ok r') :
    (member? s.key (listed (slots.map (·.key)) docs)).isSome := by
  induction slots generalizing docs count r with
  | nil => simp at hs
  | cons t slots ih =>
    cases docs with
    | nil =>
      simp only [readList] at h
      split at h
      · simp at h
      · split at h
        · rename_i ht
          rcases List.mem_cons.mp hs with rfl | hs
          · simp [hr] at ht
          · have hrest := ih hs h
            simp [listed, member?] at hrest
        · simp at h
    | cons doc docs =>
      simp only [readList] at h
      split at h
      · by_cases hk : t.key = s.key
        · simp [listed, member?, hk]
        · have hne : s ≠ t := fun he => hk (he ▸ rfl)
          have hrest := ih (List.mem_of_ne_of_mem hne hs) h
          simpa [listed, member?, hk] using hrest
      · simp at h

theorem readObject_ok {ms : List (Except Flaw String × Doc)} {closing : Closing} {r : ρ}
    (h : kind.readObject origin depth ms closing = .ok r) :
    ∃ seen, kind.readMembers origin depth ms [] kind.blank = .ok (seen, r) ∧
      kind.missing seen = none := by
  simp only [readObject] at h
  split at h
  · simp at h
  · rename_i seen record hread
    split at h
    · simp at h
    · split at h
      · simp at h
      · rename_i hmissing
        exact ⟨seen, by rw [hread, Except.ok.inj h], hmissing⟩

theorem decoder_ok {doc : Doc} {r : ρ} (h : kind.decoder origin depth doc = .ok r) :
    (∃ ms closing, doc = .object ms closing ∧
      kind.readObject origin (depth - 1) ms closing = .ok r) ∨
    ∃ docs closing, doc = .array docs closing ∧
      kind.readList origin (depth - 1) closing kind.slots 0 docs kind.blank = .ok r := by
  unfold RecordKind.decoder at h
  split at h
  · simp at h
  · simp at h
  · exact .inl ⟨_, _, rfl, h⟩
  · exact .inr ⟨_, _, rfl, h⟩
  · unfold mismatch at h
    split at h <;> simp at h

theorem Field.read (field : kind.Field key d get) {doc : Doc} {r : ρ}
    (h : kind.decoder origin depth doc = .ok r) :
    Given d origin (depth - 1) (get kind.blank) (get r) (kind.field? key doc) := by
  obtain ⟨ms, closing, rfl, hobject⟩ | ⟨docs, closing, rfl, hlist⟩ := decoder_ok h
  · obtain ⟨seen, hread, -⟩ := readObject_ok hobject
    exact (field.readMembers hread).2
  · exact readList_field field.distinct field.writes hlist

theorem field?_required {s : Slot ρ} (hs : s ∈ kind.slots) (hr : s.absent = .required)
    {doc : Doc} {r : ρ} (h : kind.decoder origin depth doc = .ok r) :
    (kind.field? s.key doc).isSome := by
  obtain ⟨ms, closing, rfl, hobject⟩ | ⟨docs, closing, rfl, hlist⟩ := decoder_ok h
  · obtain ⟨seen, hread, hmissing⟩ := readObject_ok hobject
    have hseen : s.key ∈ seen := by
      have hfind := List.find?_eq_none.mp (Option.map_eq_none_iff.mp hmissing) s hs
      simpa [hr] using hfind
    rcases readMembers_seen hread hseen with hin | hin
    · simp at hin
    · exact hin
  · exact readList_required hs hr hlist

theorem Field.decoder (field : kind.Field key d get) {v : Json} {r : ρ}
    (h : kind.decoder .settings depth (Doc.ofJson v) = .ok r) :
    Given d .settings (depth - 1) (get kind.blank) (get r)
      (((kind.fields v).get? key).map Doc.ofJson) :=
  kind.field?_ofJson key v ▸ field.read h

end RecordKind

end Cardwalk.Json.Decoder
