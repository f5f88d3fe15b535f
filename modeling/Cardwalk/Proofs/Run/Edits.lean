import Mathlib.Data.List.Forall2
import Mathlib.Logic.Relation
import Cardwalk.Proofs.Run.Standing

/-!
# Edits that no run notices

A run looks at the cards in their order and at the first connection out of
each. The ports and the order of the connections out of different cards may be
edited at will, and connections may be added behind those that are followed.
A card may be moved unless its executor looks at its place, which those of the
program do not.
-/

set_option autoImplicit false

namespace Cardwalk

def Card.moved (x y : Float) (c : Card) : Card := { c with x, y }

@[simp] theorem Card.moved_id (x y : Float) (c : Card) : (c.moved x y).id = c.id := rfl

@[simp] theorem Card.moved_kind (x y : Float) (c : Card) : (c.moved x y).kind = c.kind := rfl

@[simp] theorem Card.moved_label (x y : Float) (c : Card) :
    (c.moved x y).label = c.label := rfl

def Connection.replugged (source target : Nat) (e : Connection) : Connection :=
  { e with sourcePort := source, targetPort := target }

namespace Graph

inductive Edit (g : Graph) : Graph → Prop
  /-- A connection is added out of a card that has one. -/
  | append (e : Connection) (h : (g.outgoing? e.source).isSome) :
      Edit g { g with connections := g.connections ++ [e] }
  /-- The connections out of each card keep their order. -/
  | reorder (es : List Connection) (hperm : es.Perm g.connections)
      (hsource : ∀ id, es.filter (·.source = id) = g.connections.filter (·.source = id)) :
      Edit g { g with connections := es }
  | move (i : Nat) (x y : Float) : Edit g { g with cards := g.cards.modify i (.moved x y) }
  | replug (i : Nat) (source target : Nat) :
      Edit g { g with connections := g.connections.modify i (.replugged source target) }

abbrev Edited : Graph → Graph → Prop := Relation.ReflTransGen Edit

/-- What a run sees of the cards and of the connections it may follow. -/
structure Alike (g g' : Graph) : Prop where
  cards : g'.cards.map (Card.moved 0 0) = g.cards.map (Card.moved 0 0)
  outgoing : ∀ id, (g'.outgoing? id).map (Connection.replugged 0 0) =
    (g.outgoing? id).map (Connection.replugged 0 0)

theorem map_modify {α β : Type} {f : α → β} {edit : α → α} (h : ∀ a, f (edit a) = f a)
    (as : List α) (i : Nat) : (as.modify i edit).map f = as.map f := by
  induction as generalizing i with
  | nil => cases i <;> rfl
  | cons a as ih => cases i <;> simp [h, ih]

theorem outgoing?_eq_head? (g : Graph) (id : String) :
    g.outgoing? id = (g.connections.filter (·.source = id)).head? := by
  rw [outgoing?, List.head?_filter]

theorem outgoing?_replugged (g : Graph) (id : String) :
    (g.outgoing? id).map (Connection.replugged 0 0) =
      (g.connections.map (Connection.replugged 0 0)).find? fun e => e.source = id := by
  rw [List.find?_map]
  rfl

theorem Edit.alike {g g' : Graph} (h : Edit g g') : Alike g g' := by
  cases h with
  | append e he =>
    refine ⟨rfl, fun id => congrArg _ ?_⟩
    -- A card without a connection gets none: the new one starts elsewhere.
    have hnone : g.outgoing? id = none → ([e].find? fun e => e.source = id) = none := by
      intro hid
      by_cases heq : e.source = id
      · simp [heq, hid] at he
      · simp [heq]
    rw [outgoing?, List.find?_append]
    change (g.outgoing? id).or _ = _
    cases hid : g.outgoing? id with
    | some e' => rfl
    | none => rw [hnone hid]; rfl
  | reorder es hperm hsource =>
    refine ⟨rfl, fun id => congrArg _ ?_⟩
    rw [outgoing?_eq_head?, outgoing?_eq_head?, hsource]
  | move i x y =>
    have hmoved : ∀ c : Card, (c.moved x y).moved 0 0 = c.moved 0 0 := fun _ => rfl
    exact ⟨map_modify hmoved g.cards i, fun _ => rfl⟩
  | replug i source target =>
    have hreplugged : ∀ e : Connection,
        (e.replugged source target).replugged 0 0 = e.replugged 0 0 := fun _ => rfl
    refine ⟨rfl, fun id => ?_⟩
    rw [outgoing?_replugged, outgoing?_replugged, map_modify hreplugged]

theorem Edited.alike {g g' : Graph} (h : Edited g g') : Alike g g' := by
  induction h with
  | refl => exact ⟨rfl, fun _ => rfl⟩
  | tail _ hstep ih =>
    exact ⟨hstep.alike.cards.trans ih.cards,
      fun id => (hstep.alike.outgoing id).trans (ih.outgoing id)⟩

end Graph

variable {σ : Type}

/-- The executor of the kind of these cards, if there is one, makes no
difference between them. -/
def Registry.Same (registry : Registry σ) (c d : Card) : Prop :=
  ∀ executor, registry c.kind = some executor → executor d = executor c

/-- Executors map the properties of a card and the output before it to an
output; they do not look at the place of the card. -/
def Registry.Unplaced (registry : Registry σ) : Prop :=
  ∀ kind executor, registry kind = some executor →
    ∀ x y c, executor (c.moved x y) = executor c

theorem Registry.builtin_unplaced : (Registry.builtin (σ := σ)).Unplaced := by
  rintro kind _ ⟨⟩ x y c
  cases kind <;> rfl

def Registry.Twins (registry : Registry σ) (c d : Card) : Prop :=
  ∃ x y, d = c.moved x y ∧ registry.Same c d

theorem Card.eq_moved {c d : Card} (h : d.moved 0 0 = c.moved 0 0) : d = c.moved d.x d.y := by
  obtain ⟨id, kind, x, y, properties⟩ := c
  obtain ⟨id', kind', x', y', properties'⟩ := d
  simp only [moved, mk.injEq] at h ⊢
  simp [h]

namespace Graph

variable {registry : Registry σ} {g g' : Graph}

theorem Alike.moved (h : Alike g g') {i : Nat} {c d : Card} (hc : g.cards[i]? = some c)
    (hd : g'.cards[i]? = some d) : d = c.moved d.x d.y := by
  have hi := congrArg (·[i]?) h.cards
  simp only [List.getElem?_map, hc, hd, Option.map_some, Option.some.injEq] at hi
  exact Card.eq_moved hi

theorem Alike.same_of_unplaced (h : Alike g g') (hr : registry.Unplaced) {i : Nat} {c d : Card}
    (hc : g.cards[i]? = some c) (hd : g'.cards[i]? = some d) : registry.Same c d := by
  intro executor he
  rw [h.moved hc hd, hr c.kind executor he]

theorem Alike.twins (h : Alike g g')
    (hr : ∀ (i : Nat) c d, g.cards[i]? = some c → g'.cards[i]? = some d → registry.Same c d) :
    List.Forall₂ registry.Twins g.cards g'.cards := by
  have hlength : g.cards.length = g'.cards.length := by
    simpa using (congrArg List.length h.cards).symm
  refine List.forall₂_iff_get.mpr ⟨hlength, fun i hi hi' => ?_⟩
  have hc : g.cards[i]? = some (g.cards.get ⟨i, hi⟩) := List.getElem?_eq_getElem hi
  have hd : g'.cards[i]? = some (g'.cards.get ⟨i, hi'⟩) := List.getElem?_eq_getElem hi'
  exact ⟨_, _, h.moved hc hd, hr i _ _ hc hd⟩

end Graph

theorem find_twins {registry : Registry σ} {cs ds : List Card}
    (h : List.Forall₂ registry.Twins cs ds) {p : Card → Bool}
    (hp : ∀ c x y, p (c.moved x y) = p c) :
    Option.Rel registry.Twins (cs.find? p) (ds.find? p) := by
  induction h with
  | nil => exact .none
  | @cons c d cs ds hcd _ ih =>
    have hsame : p d = p c := by
      obtain ⟨x, y, rfl, -⟩ := hcd
      exact hp c x y
    cases hc : p c with
    | true => simpa [hc, hsame] using Option.Rel.some hcd
    | false => simpa [hc, hsame] using ih

namespace Runner

inductive SameTurn (registry : Registry σ) : Turn → Turn → Prop
  | halt (result : Except RunError Envelope) : SameTurn registry (.halt result) (.halt result)
  | next {c d : Card} (h : registry.Twins c d) (output : Envelope) :
      SameTurn registry (.next c output) (.next d output)

inductive SameStanding (registry : Registry σ) : Standing σ → Standing σ → Prop
  | ahead (index : Nat) {c d : Card} (h : registry.Twins c d) (previous : Option Envelope)
      (p : Progress σ) :
      SameStanding registry (.ahead index c previous p) (.ahead index d previous p)
  | ended (result : Except RunError Envelope) (p : Progress σ) :
      SameStanding registry (.ended result p) (.ended result p)

section Alike

variable {r : Runner σ} {g g' : Graph} (h : g.Alike g')
  (ht : List.Forall₂ r.registry.Twins g.cards g'.cards)

include h ht

theorem follow_same {c d : Card} (hcd : r.registry.Twins c d) (output : Envelope) :
    SameTurn r.registry (follow g c output) (follow g' d output) := by
  obtain ⟨x, y, rfl, -⟩ := hcd
  have hout := h.outgoing c.id
  cases hg : g.outgoing? c.id with
  | none =>
    have hg' : g'.outgoing? c.id = none := by simpa [hg] using hout
    by_cases hk : c.kind = .finish <;> simp [follow, hg, hg', hk, SameTurn.halt]
  | some e =>
    obtain ⟨e', hg', he⟩ : ∃ e', g'.outgoing? c.id = some e' ∧
        e'.replugged 0 0 = e.replugged 0 0 := by
      simpa [hg] using hout
    obtain ⟨hid, hsource, htarget⟩ :
        e'.id = e.id ∧ e'.source = e.source ∧ e'.target = e.target := by
      simpa [Connection.replugged] using he
    have hcard : Option.Rel r.registry.Twins (g.card? e.target) (g'.card? e.target) :=
      find_twins ht fun _ _ _ => rfl
    simp only [follow, hg, hg', Card.moved_id, hid, hsource, htarget]
    generalize g.card? e.target = next, g'.card? e.target = next' at hcard
    cases hcard with
    | none => exact .halt _
    | some hcd => exact .next hcd output

theorem further_same {s s' : Standing σ} (hs : SameStanding r.registry s s') :
    SameStanding r.registry (r.further g s) (r.further g' s') := by
  cases hs with
  | ended result p => exact .ended result p
  | @ahead index c d hcd previous p =>
    have hfollow := follow_same h ht hcd
    obtain ⟨x, y, rfl, hexecutor⟩ := hcd
    -- Apart from the executor, a turn asks a card only for what no move changes.
    have hexecute : r.execute (c.moved x y) previous = r.execute c previous := by
      unfold execute
      simp only [Card.moved_kind]
      cases hr : r.registry c.kind with
      | none => rfl
      | some executor => simp only [hexecutor executor hr]
    cases hc : r.isCancelled p.world with
    | true =>
      rw [further_cancelled hc, further_cancelled hc]
      exact .ended _ p
    | false =>
      rcases he : r.execute c previous (r.pause p.world) with ⟨cause | output, s'⟩
      · rw [further_failed hc he, further_failed hc (hexecute ▸ he)]
        exact .ended _ _
      · rw [further_visited hc he, further_visited hc (hexecute ▸ he)]
        have hturn := hfollow output
        generalize follow g c output = t, follow g' (c.moved x y) output = t' at hturn
        cases hturn with
        | halt result => exact .ended _ _
        | next hcd => exact .ahead _ hcd _ _

theorem outset_same (world : σ) :
    SameStanding r.registry (outset g world) (outset g' world) := by
  have hlength : g'.cards.length = g.cards.length := by simpa using congrArg List.length h.cards
  have hempty : g'.cards.isEmpty = g.cards.isEmpty := by
    simpa using congrArg List.isEmpty h.cards
  have hbook : RunState.ofGraph g' = RunState.ofGraph g := by
    have hfold : ∀ cs : List Card, cs.foldl (fun m c => StatusMap.set c.id .pending m) [] =
        (cs.map (Card.moved 0 0)).foldl (fun m c => StatusMap.set c.id .pending m) [] := by
      intro cs
      rw [List.foldl_map]
      rfl
    rw [RunState.ofGraph, RunState.ofGraph, hfold g'.cards, h.cards, ← hfold]
  have hstart : Option.Rel r.registry.Twins g.start? g'.start? := find_twins ht fun _ _ _ => rfl
  unfold outset unwritten departure unstartable
  rw [hlength, hempty, hbook]
  generalize g.start? = start, g'.start? = start' at hstart
  cases hstart with
  | none => exact .ended _ _
  | some hcd =>
    obtain ⟨x, y, rfl, -⟩ := id hcd
    exact .ahead 1 hcd none _

theorem standing_same (world : σ) (turns : Nat) :
    SameStanding r.registry (r.standing g world turns) (r.standing g' world turns) := by
  induction turns with
  | zero => exact outset_same h ht world
  | succ turns ih =>
    rw [standing_succ, standing_succ]
    exact further_same h ht ih

end Alike

/-- No edit is noticed by a run, neither in what it has done after any number
of turns nor in what it leaves, unless a card was moved to where its executor
does something else with it. -/
theorem run_edited (r : Runner σ) {g g' : Graph} (h : g.Edited g')
    (hr : ∀ (i : Nat) c d, g.cards[i]? = some c → g'.cards[i]? = some d → r.registry.Same c d)
    (world : σ) (turns : Nat) :
    r.run g' turns world = r.run g turns world ∧
      (r.standing g' world turns).progress = (r.standing g world turns).progress := by
  have hs := standing_same h.alike (h.alike.twins hr) world turns
  rw [run_eq, run_eq]
  generalize r.standing g world turns = s, r.standing g' world turns = s' at hs
  cases hs with
  | ahead index hcd previous p => exact ⟨rfl, rfl⟩
  | ended result p => exact ⟨rfl, rfl⟩

def rearranged : Graph where
  cards := [.moved 3 (-1.5) (.new "s" .start), .new "t" .textInput, .new "s" .finish]
  connections := [.new "back" "t" "s", .replugged 4 9 (.new "out" "s" "t"),
    .new "lost" "s" "nowhere", .new "again" "t" "t"]

theorem circle_rearranged : circle.Edited rearranged := by
  have happend : circle.Edit
      { circle with connections := circle.connections ++ [.new "again" "t" "t"] } :=
    .append _ rfl
  refine .head happend (.head (.reorder (.new "back" "t" "s" :: .new "out" "s" "t" ::
    [.new "lost" "s" "nowhere", .new "again" "t" "t"]) (.swap _ _ _) fun id => ?_)
    (.head (.move 0 3 (-1.5)) (.single (.replug 1 4 9))))
  by_cases hs : "s" = id
  · simp [circle, Connection.new, ← hs]
  · simp [circle, Connection.new, List.filter_cons, hs]

def pausing : Runner Nat :=
  { counting with registry := .builtin, pacing := .ofMillis 200, sleep := fun _ n => n + 1 }

theorem circle_rearranged_runs :
    (∀ (i : Nat) c d, circle.cards[i]? = some c → rearranged.cards[i]? = some d →
      pausing.registry.Same c d) ∧
    ∃ o, pausing.run circle 5 0 = some o ∧ pausing.run rearranged 5 0 = some o ∧
      o.result = .error (.cancelled "t") := by
  have hplaces : ∀ (i : Nat) c d, circle.cards[i]? = some c → rearranged.cards[i]? = some d →
      pausing.registry.Same c d := fun _ _ _ =>
    circle_rearranged.alike.same_of_unplaced Registry.builtin_unplaced
  have hsame := (run_edited pausing circle_rearranged hplaces 0 5).1
  exact ⟨hplaces, _, rfl, hsame.trans rfl, rfl⟩

def sided : Executor Nat := fun c _ _ n =>
  (.ok (.ofText (if c.x < 0 then "left" else "right")), n + 1)

def watching : Runner Nat :=
  { counting with
    registry := fun kind => if kind = .start then some sided else Registry.builtin kind }

def short : Graph where
  cards := [.new "s" .start, .new "e" .finish]
  connections := [.new "out" "s" "e"]

def shifted : Graph := { short with cards := short.cards.modify 0 (.moved (-1) 0) }

/-- An executor that looks at the place of its card notices that it was moved. -/
theorem shifted_runs_differently : short.Edited shifted ∧
    (watching.run short 2 0).map (fun o => o.result.toOption.bind (·.text)) =
      some (some "right") ∧
    (watching.run shifted 2 0).map (fun o => o.result.toOption.bind (·.text)) =
      some (some "left") := by
  refine ⟨.single (.move 0 (-1) 0), ?_, ?_⟩ <;> decide +kernel

end Runner

end Cardwalk
