import Cardwalk.Proofs.Completion.Stream

/-!
# Pieces behind the end of an answer

An answer that has ended stays ended, whatever pieces still come. The pieces
are not without effect: the end is looked for behind every line, not in front
of it, so each of them has its first line taken in.
-/

set_option autoImplicit false

namespace Cardwalk.EventStream

/-- The lines that are taken in behind the end of an answer: of every piece with
a line end the first, and in front of it what has come since the last. -/
def lateLines : List UInt8 → List (List UInt8) → List (List UInt8)
  | _, [] => []
  | held, piece :: rest =>
    if lineEnd ∈ piece then (held ++ piece.takeWhile (· ≠ lineEnd)) :: lateLines [] rest
    else lateLines (held ++ piece) rest

def latePayloads (s : EventStream) (pieces : List (List UInt8)) : List (List Char) :=
  ((lateLines s.pending.reverse pieces).map Text.decodeLossy).filterMap payload?

def pushAll (s : EventStream) (pieces : List (List UInt8)) : EventStream := pieces.foldl push s

def hold (s : EventStream) (bytes : List UInt8) : EventStream :=
  { s with pending := bytes.reverse ++ s.pending }

theorem pending_hold (s : EventStream) (bytes : List UInt8) :
    (s.hold bytes).pending.reverse = s.pending.reverse ++ bytes := by
  simp [hold]

section Piece

variable {s : EventStream} {piece : List UInt8}

theorem takeBytes_hold {line : List UInt8} (h : lineEnd ∉ line) (rest : List UInt8) :
    s.takeBytes (line ++ rest) = (s.hold line).takeBytes rest := by
  induction line generalizing s with
  | nil => rfl
  | cons b line ih =>
    have hb : b ≠ lineEnd := fun heq => h (heq ▸ List.mem_cons_self)
    rw [List.cons_append, takeBytes_within s hb, ih (List.not_mem_of_not_mem_cons h)]
    simp [hold]

theorem endLine_stays (h : s.done = true) : s.endLine.done = true := by
  unfold endLine takeLine
  split
  · rw [takePayload_done, h]
    rfl
  · exact h

theorem answer_heard (ps : List (List Char)) :
    s.endLine.answer ps =
      s.answer ((payload? (Text.decodeLossy s.pending.reverse)).toList ++ ps) := by
  unfold endLine takeLine
  cases payload? (Text.decodeLossy s.pending.reverse) with
  | none => rfl
  | some payload => exact answer_takePayload _ payload ps

theorem push_within (h : lineEnd ∉ piece) :
    s.push piece = (s.hold piece).withBody (piece.reverse ++ s.body) := by
  have hbytes := takeBytes_hold (s := s) h []
  rw [List.append_nil, takeBytes] at hbytes
  rw [push_eq, hbytes]

theorem push_ended (hd : s.done = true) (h : lineEnd ∈ piece) :
    s.push piece =
      (s.hold (piece.takeWhile (· ≠ lineEnd))).endLine.withBody (piece.reverse ++ s.body) := by
  obtain ⟨line, rest, rfl, hline⟩ := List.eq_append_cons_of_mem h
  have hne : ∀ b ∈ line, decide (b ≠ lineEnd) = true := fun b hb =>
    decide_eq_true fun heq => hline (heq ▸ hb)
  have hwhile : (line ++ lineEnd :: rest).takeWhile (· ≠ lineEnd) = line := by
    rw [List.takeWhile_append_of_pos hne]
    simp
  have hstays : (s.hold line).endLine.done = true := endLine_stays hd
  rw [hwhile, push_eq, takeBytes_hold hline, takeBytes_lineEnd, if_pos hstays]

theorem push_stays (hd : s.done = true) : (s.push piece).done = true := by
  by_cases h : lineEnd ∈ piece
  · rw [push_ended hd h]
    exact endLine_stays (s := s.hold _) hd
  · rw [push_within h]
    exact hd

end Piece

theorem filterMap_heard (line : List UInt8) (lines : List (List UInt8)) :
    ((line :: lines).map Text.decodeLossy).filterMap payload? =
      (payload? (Text.decodeLossy line)).toList ++
        (lines.map Text.decodeLossy).filterMap payload? := by
  rw [List.map_cons, List.filterMap_cons]
  cases payload? (Text.decodeLossy line) <;> rfl

section Pieces

variable (pieces : List (List UInt8)) {s : EventStream}

theorem pushAll_stays (hd : s.done = true) : (s.pushAll pieces).done = true := by
  induction pieces generalizing s with
  | nil => exact hd
  | cons piece rest ih => exact ih (push_stays hd)

theorem pushAll_body : (s.pushAll pieces).body = pieces.flatten.reverse ++ s.body := by
  induction pieces generalizing s with
  | nil => rfl
  | cons piece rest ih =>
    have hstep : (s.push piece).body = piece.reverse ++ s.body := by rw [push_eq, withBody]
    rw [List.flatten_cons, List.reverse_append, List.append_assoc, ← hstep]
    exact ih

/-- The answer gains what the late lines carry; the body is told apart, since it
grows by all of the pieces. -/
theorem pushAll_answer (hd : s.done = true) (body : List UInt8) :
    ((s.pushAll pieces).withBody body).answer [] =
      (s.withBody body).answer (s.latePayloads pieces) := by
  induction pieces generalizing s with
  | nil => rfl
  | cons piece rest ih =>
    refine (ih (push_stays hd)).trans ?_
    -- A piece with a line end leaves nothing held, one without is held as a whole.
    by_cases h : lineEnd ∈ piece
    · rw [push_ended hd h, latePayloads, latePayloads, lateLines, if_pos h, filterMap_heard]
      change (withBody (s.hold _).endLine body).answer _ = _
      rw [← endLine_withBody, answer_heard]
      simp only [withBody, endLine_pending, List.reverse_nil, pending_hold]
      rfl
    · rw [push_within h, latePayloads, latePayloads, lateLines, if_neg h, ← pending_hold]
      rfl

theorem pushAll_finish (hd : s.done = true) :
    (s.pushAll pieces).finish =
      if 0 < s.dataLines + (s.latePayloads pieces).length then
        .ok (s.text ++ String.join ((s.latePayloads pieces).filterMap added))
      else wholeAnswer (Text.decodeLossy (s.body.reverse ++ pieces.flatten)) := by
  have hanswer := pushAll_answer pieces hd (s.pushAll pieces).body
  rw [finish_done (pushAll_stays pieces hd)]
  refine hanswer.trans ?_
  simp only [answer, withBody, pushAll_body, List.reverse_append, List.reverse_reverse]

end Pieces

section Ended

variable {s : EventStream}

theorem dataLines_endLine : s.dataLines ≤ s.endLine.dataLines := by
  unfold endLine takeLine
  split
  · rename_i payload _
    by_cases h : payload = lastPayload
    · simp [h, takePayload_last]
    · simp [takePayload_event _ h]
  · exact le_rfl

theorem dataLines_takeBytes (bytes : List UInt8) :
    s.dataLines ≤ (s.takeBytes bytes).dataLines := by
  induction bytes generalizing s with
  | nil => exact le_rfl
  | cons b bytes ih =>
    by_cases hb : b = lineEnd
    · subst hb
      rw [takeBytes_lineEnd]
      split
      · exact dataLines_endLine
      · exact dataLines_endLine.trans ih
    · rw [takeBytes_within s hb]
      exact ih (s := { s with pending := b :: s.pending })

theorem dataLines_pushAll (pieces : List (List UInt8)) (h : s.done = true → 0 < s.dataLines) :
    (s.pushAll pieces).done = true → 0 < (s.pushAll pieces).dataLines := by
  induction pieces generalizing s with
  | nil => exact h
  | cons piece rest ih =>
    refine ih (s := s.push piece) ?_
    rw [push_eq]
    intro hdone
    cases hd : s.done with
    | false => exact takeBytes_done piece hd hdone
    | true => exact (h hd).trans_le (dataLines_takeBytes piece)

theorem join_eq_empty_iff (texts : List String) :
    String.join texts = "" ↔ ∀ t ∈ texts, t = "" := by
  rw [← String.toList_eq_nil_iff, String.toList_join, List.flatMap_eq_nil_iff]
  simp only [String.toList_eq_nil_iff]

theorem finish_late_iff (pieces : List (List UInt8)) (hd : s.done = true)
    (hlines : 0 < s.dataLines) :
    (s.pushAll pieces).finish = s.finish ↔
      ∀ payload ∈ s.latePayloads pieces, ∀ t, added payload = some t → t = "" := by
  have hown : s.finish = .ok s.text := by simp [finish_done hd, answer, hlines]
  rw [pushAll_finish pieces hd, if_pos (by omega), hown, Except.ok.injEq, String.append_eq_left_iff,
    join_eq_empty_iff]
  simp only [List.mem_filterMap]
  constructor
  · intro h payload hmem t ht
    exact h t ⟨payload, hmem, ht⟩
  · rintro h t ⟨payload, hmem, ht⟩
    exact h payload hmem t ht

end Ended

/-- An answer that has ended stays ended, and of every later piece with a line
end the first line is still taken in. So the answer stays as it was exactly if
none of these lines adds a text to it. -/
theorem hears_late_lines (s : EventStream) (h : s.done = true) (pieces : List (List UInt8)) :
    (s.pushAll pieces).done = true ∧
      (s.pushAll pieces).finish =
        (if 0 < s.dataLines + (s.latePayloads pieces).length then
          .ok (s.text ++ String.join ((s.latePayloads pieces).filterMap added))
        else wholeAnswer (Text.decodeLossy (s.body.reverse ++ pieces.flatten))) ∧
      ∀ earlier, s = pushAll {} earlier →
        ((s.pushAll pieces).finish = s.finish ↔
          ∀ payload ∈ s.latePayloads pieces, ∀ t, added payload = some t → t = "") := by
  refine ⟨pushAll_stays pieces h, pushAll_finish pieces h, ?_⟩
  rintro earlier rfl
  exact finish_late_iff pieces h (dataLines_pushAll earlier (by simp) h)

def lastLine : List UInt8 := Text.encode "data: [DONE]\n".toList

def lateLine : List UInt8 :=
  Text.encode
    "data: \x7b\"choices\":[\x7b\"delta\":\x7b\"content\":\"late\"\x7d\x7d]\x7d\n".toList

def ended : EventStream := pushAll {} [lastLine]

theorem hears_late_lines_ended :
    ended.done = true ∧
      (ended.pushAll [lateLine.take 20, lateLine.drop 20 ++ lateLine]).done = true ∧
      (ended.pushAll [lateLine.take 20, lateLine.drop 20 ++ lateLine]).finish.toOption =
        some "late" ∧
      (ended.pushAll [Text.encode ": ping\n".toList]).finish = ended.finish := by
  have hended : ended.done = true := by decide +kernel
  obtain ⟨hdone, hfinish, -⟩ :=
    hears_late_lines ended hended [lateLine.take 20, lateLine.drop 20 ++ lateLine]
  obtain ⟨-, -, hunchanged⟩ := hears_late_lines ended hended [Text.encode ": ping\n".toList]
  have hnone : ended.latePayloads [Text.encode ": ping\n".toList] = [] := by decide +kernel
  refine ⟨hended, hdone, ?_, (hunchanged [lastLine] rfl).mpr (by rw [hnone]; simp)⟩
  rw [hfinish]
  decide +kernel

theorem late_text_heard :
    ended.done = true ∧ ended.finish.toOption = some "" ∧
      (ended.push lateLine).finish.toOption = some "late" ∧
      (ended.push lateLine).finish ≠ ended.finish := by
  have hbefore : ended.finish.toOption = some "" := by decide +kernel
  have hafter : (ended.push lateLine).finish.toOption = some "late" := by decide +kernel
  refine ⟨by decide +kernel, hbefore, hafter, fun heq => ?_⟩
  rw [heq, hbefore] at hafter
  exact absurd hafter (by decide)

end Cardwalk.EventStream
