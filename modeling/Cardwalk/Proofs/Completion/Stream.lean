import Cardwalk.Completion.EventStream
import Cardwalk.Proofs.Text.Utf8

/-!
# Streamed answers as a whole

A body can be read as a whole: line by line, up to the line that ends the
answer. It comes to the same in pieces, wherever it is cut, be it inside a
character, a line end or the last line.
-/

set_option autoImplicit false

namespace Cardwalk.EventStream

/-- The lines of a text or of its bytes. What stands behind the last line end
is a line unless it is empty. -/
def lines {α : Type} [DecidableEq α] (stop : α) : List α → List (List α)
  | [] => []
  | a :: rest =>
    if a = stop then [] :: lines stop rest
    else
      match lines stop rest with
      | [] => [[a]]
      | line :: more => (a :: line) :: more

def upToLast : List (List Char) → List (List Char)
  | [] => []
  | payload :: rest => if payload = lastPayload then [payload] else payload :: upToLast rest

/-- What these lines carry. -/
def payloads (ls : List (List Char)) : List (List Char) := upToLast (ls.filterMap payload?)

/-- The text that a payload adds, if it is an event that adds any. -/
def added (payload : List Char) : Option String := (Json.parse payload).toOption.bind delta

/-- What an answer of these lines comes to; the whole of it counts only if no
line carries anything. -/
def readLines (ls : List (List Char)) (whole : List Char) : Except CompletionError String :=
  if payloads ls ≠ [] then .ok (String.join ((payloads ls).filterMap added))
  else if Text.allBlank whole then .error .emptyBody
  else
    match Json.decode responseKind.decoder whole with
    | .error e => .error (.parse ("failed to parse response: " ++ e.message))
    | .ok choices => .ok ((choices.head?.bind (·.content)).getD "")

def readBody (body : List UInt8) : Except CompletionError String :=
  readLines ((lines lineEnd body).map Text.decodeLossy) (Text.decodeLossy body)

def readText (text : List Char) : Except CompletionError String :=
  readLines (lines '\n' text) text

section Lines

variable {α : Type} [DecidableEq α] {stop : α}

theorem lines_of_not_mem {line : List α} (h : stop ∉ line) (hne : line ≠ []) :
    lines stop line = [line] := by
  induction line with
  | nil => exact absurd rfl hne
  | cons a line ih =>
    have ha : a ≠ stop := fun e => h (by simp [e])
    cases line with
    | nil => simp [lines, ha]
    | cons b line => rw [lines, if_neg ha, ih (fun hm => h (by simp [hm])) (by simp)]

theorem lines_cons {line : List α} (h : stop ∉ line) (rest : List α) :
    lines stop (line ++ stop :: rest) = line :: lines stop rest := by
  induction line with
  | nil => simp [lines]
  | cons a line ih =>
    have ha : a ≠ stop := fun e => h (by simp [e])
    rw [List.cons_append, lines, if_neg ha, ih fun hm => h (by simp [hm])]

theorem lines_induction (stop : α) {motive : List α → Prop} (empty : motive [])
    (last : ∀ line, stop ∉ line → line ≠ [] → motive line)
    (more : ∀ line rest, stop ∉ line → motive rest → motive (line ++ stop :: rest))
    (s : List α) : motive s := by
  induction hn : s.length using Nat.strongRecOn generalizing s with
  | _ n ih =>
    by_cases h : stop ∈ s
    · obtain ⟨line, rest, rfl, hl⟩ := List.eq_append_cons_of_mem h
      exact more line rest hl (ih rest.length (by rw [← hn]; simp; omega) rest rfl)
    · by_cases hs : s = []
      · exact hs ▸ empty
      · exact last s h hs

theorem lines_append (before after : List α) :
    lines stop (before ++ stop :: after) =
      lines stop (before ++ [stop]) ++ lines stop after := by
  induction before using lines_induction stop with
  | empty => simp [lines]
  | last line h _ => simp [lines_cons h, lines]
  | more line rest h ih => simp [lines_cons h, ih]

end Lines

theorem takePayload_last (s : EventStream) :
    s.takePayload lastPayload = { s with dataLines := s.dataLines + 1, done := true } := by
  simp [takePayload]

theorem takePayload_event (s : EventStream) {payload : List Char} (h : payload ≠ lastPayload) :
    s.takePayload payload = { s with
      dataLines := s.dataLines + 1
      text := s.text ++ (added payload).getD "" } := by
  unfold takePayload added
  rw [if_neg h]
  cases Json.parse payload with
  | error e => simp [Except.toOption]
  | ok event => cases h : delta event <;> simp [Except.toOption, h]

theorem chomp_snoc (line : List Char) : chomp (line ++ ['\n']) = chomp line := by
  simp [chomp]

theorem payload?_snoc (line : List Char) : payload? (line ++ ['\n']) = payload? line := by
  rw [payload?, payload?, chomp_snoc]

theorem takeLine_lineEnd (s : EventStream) (line : List UInt8) :
    s.takeLine (line ++ [lineEnd]) = s.takeLine line := by
  have h : Text.decodeLossy (line ++ [lineEnd]) = Text.decodeLossy line ++ ['\n'] :=
    Text.decodeLossy_lineFeed line []
  rw [takeLine, h, payload?_snoc]
  rfl

def endLine (s : EventStream) : EventStream :=
  takeLine { s with pending := [] } s.pending.reverse

theorem takeBytes_lineEnd (s : EventStream) (bytes : List UInt8) :
    s.takeBytes (lineEnd :: bytes) =
      if s.endLine.done then s.endLine else s.endLine.takeBytes bytes := by
  rw [takeBytes, if_pos rfl, List.reverse_cons, takeLine_lineEnd]
  rfl

theorem takeBytes_within (s : EventStream) {b : UInt8} (hb : b ≠ lineEnd) (bytes : List UInt8) :
    s.takeBytes (b :: bytes) = takeBytes { s with pending := b :: s.pending } bytes := by
  rw [takeBytes, if_neg hb]

theorem endLine_pending (s : EventStream) : s.endLine.pending = [] := by
  unfold endLine takeLine
  split
  · rename_i payload _
    by_cases h : payload = lastPayload
    · rw [h, takePayload_last]
    · rw [takePayload_event _ h]
  · rfl

/-- The answer of a stream behind which these payloads are still to come. -/
def answer (s : EventStream) (ps : List (List Char)) : Except CompletionError String :=
  if 0 < s.dataLines + ps.length then .ok (s.text ++ String.join (ps.filterMap added))
  else wholeAnswer (Text.decodeLossy s.body.reverse)

theorem added_last : added lastPayload = none := by decide +kernel

theorem answer_takePayload (s : EventStream) (payload : List Char) (ps : List (List Char)) :
    (s.takePayload payload).answer ps = s.answer (payload :: ps) := by
  by_cases h : payload = lastPayload
  · rw [h, takePayload_last]
    simp [answer, added_last]
  · rw [takePayload_event s h]
    cases ha : added payload <;> simp [answer, ha, String.append_assoc]

theorem takePayload_done (s : EventStream) (payload : List Char) :
    (s.takePayload payload).done = (s.done || decide (payload = lastPayload)) := by
  by_cases h : payload = lastPayload
  · simp [h, takePayload_last]
  · simp [h, takePayload_event s h]

theorem answer_endLine {s : EventStream} (hd : s.done = false) (rest : List (List Char)) :
    s.endLine.answer (if s.endLine.done then [] else payloads rest) =
      s.answer (payloads (Text.decodeLossy s.pending.reverse :: rest)) := by
  unfold endLine takeLine payloads
  rw [List.filterMap_cons]
  cases payload? (Text.decodeLossy s.pending.reverse) with
  | none => simp [hd, answer]
  | some payload =>
    simp only [answer_takePayload, takePayload_done, hd, Bool.false_or, decide_eq_true_eq, upToLast]
    rw [apply_ite (List.cons payload)]
    rfl

theorem finish_eq (s : EventStream) :
    s.finish = if s.done || s.pending.isEmpty then s.answer [] else s.endLine.answer [] := by
  unfold finish answer endLine
  split <;> simp

theorem finish_done {s : EventStream} (h : s.done = true) : s.finish = s.answer [] := by
  simp [finish_eq, h]

theorem takeBytes_finish (bytes : List UInt8) {s : EventStream} (hd : s.done = false)
    (hp : lineEnd ∉ s.pending) :
    (s.takeBytes bytes).finish =
      s.answer (payloads ((lines lineEnd (s.pending.reverse ++ bytes)).map Text.decodeLossy)) := by
  -- The unfinished line grows until a line end is met, so it is general.
  induction bytes generalizing s with
  | nil =>
    rw [takeBytes, finish_eq, List.append_nil]
    by_cases hn : s.pending = []
    · simp [hn, lines, payloads, upToLast]
    · have h := answer_endLine hd []
      rw [show payloads [] = [] from rfl, ite_self] at h
      rw [if_neg (by simp [hd, hn]), lines_of_not_mem (by simpa using hp) (by simpa using hn)]
      exact h
  | cons b bytes ih =>
    by_cases hb : b = lineEnd
    · subst hb
      have h := answer_endLine hd ((lines lineEnd bytes).map Text.decodeLossy)
      rw [takeBytes_lineEnd, lines_cons (by simpa using hp), List.map_cons, ← h]
      cases hdone : s.endLine.done with
      | true => rw [if_pos rfl, if_pos rfl, finish_done hdone]
      | false =>
        have hpending := endLine_pending s
        rw [if_neg (by decide), if_neg (by decide), ih hdone (by simp [hpending]), hpending]
        rfl
    · have hp' : lineEnd ∉ b :: s.pending := by simp [hp, Ne.symm hb]
      rw [takeBytes_within s hb, ih (s := { s with pending := b :: s.pending }) hd hp']
      simp [answer]

def withBody (s : EventStream) (body : List UInt8) : EventStream := { s with body }

theorem takePayload_withBody (s : EventStream) (body : List UInt8) (payload : List Char) :
    (s.withBody body).takePayload payload = (s.takePayload payload).withBody body := by
  by_cases h : payload = lastPayload
  · simp [h, takePayload_last, withBody]
  · simp [takePayload_event _ h, withBody]

theorem endLine_withBody (s : EventStream) (body : List UInt8) :
    (s.withBody body).endLine = s.endLine.withBody body := by
  unfold endLine takeLine withBody
  cases payload? (Text.decodeLossy s.pending.reverse) with
  | none => rfl
  | some payload => exact takePayload_withBody { s with pending := [] } body payload

theorem takeBytes_withBody (bytes : List UInt8) (s : EventStream) (body : List UInt8) :
    (s.withBody body).takeBytes bytes = (s.takeBytes bytes).withBody body := by
  induction bytes generalizing s with
  | nil => rfl
  | cons b bytes ih =>
    by_cases hb : b = lineEnd
    · subst hb
      rw [takeBytes_lineEnd, takeBytes_lineEnd, endLine_withBody, ih]
      cases h : s.endLine.done <;> simp [withBody, h]
    · rw [takeBytes_within _ hb, takeBytes_within s hb]
      exact ih { s with pending := b :: s.pending }

theorem push_eq (s : EventStream) (piece : List UInt8) :
    s.push piece = (s.takeBytes piece).withBody (piece.reverse ++ s.body) := by
  rw [← takeBytes_withBody, ← List.reverseAux_eq]
  rfl

theorem takeBytes_append (before after : List UInt8) {s : EventStream} (hd : s.done = false) :
    s.takeBytes (before ++ after) =
      if (s.takeBytes before).done then s.takeBytes before
      else (s.takeBytes before).takeBytes after := by
  induction before generalizing s with
  | nil => simp [takeBytes, hd]
  | cons b before ih =>
    by_cases hb : b = lineEnd
    · subst hb
      rw [List.cons_append, takeBytes_lineEnd, takeBytes_lineEnd]
      cases h : s.endLine.done with
      | true => simp [h]
      | false => simpa using ih h
    · rw [List.cons_append, takeBytes_within s hb, takeBytes_within s hb]
      exact ih hd

theorem endLine_done {s : EventStream} (hd : s.done = false) (h : s.endLine.done = true) :
    0 < s.endLine.dataLines := by
  unfold endLine takeLine at h ⊢
  cases hp : payload? (Text.decodeLossy s.pending.reverse) with
  | none => simp [hp, hd] at h
  | some payload =>
    by_cases hl : payload = lastPayload
    · simp [hl, takePayload_last]
    · simp [hp, takePayload_done, hl, hd] at h

theorem takeBytes_done (bytes : List UInt8) {s : EventStream} (hd : s.done = false)
    (h : (s.takeBytes bytes).done = true) : 0 < (s.takeBytes bytes).dataLines := by
  induction bytes generalizing s with
  | nil => simp [takeBytes, hd] at h
  | cons b bytes ih =>
    by_cases hb : b = lineEnd
    · subst hb
      rw [takeBytes_lineEnd] at h ⊢
      cases ht : s.endLine.done with
      | true => simpa using endLine_done hd ht
      | false => 
        simp only [ht] at h ⊢
        exact ih ht h
    · rw [takeBytes_within s hb] at h ⊢
      exact ih hd h

theorem push_append (before after : List UInt8) {s : EventStream} (hd : s.done = false) :
    (s.push (before ++ after)).finish =
      if (s.push before).done then (s.push before).finish
      else ((s.push before).push after).finish := by
  simp only [push_eq, takeBytes_append before after hd, takeBytes_withBody]
  by_cases h : (s.takeBytes before).done
  · -- The rest of the body no longer matters, since there was an event.
    have hpos := takeBytes_done before hd h
    have hbody : ∀ body, ((s.takeBytes before).withBody body).finish =
        .ok (s.takeBytes before).text := by
      intro body
      rw [finish_done (by exact h)]
      simp [answer, withBody, hpos]
    rw [if_pos h, hbody, if_pos (by exact h), hbody]
  · rw [if_neg h, if_neg (by exact h), List.reverse_append, List.append_assoc]
    rfl

theorem pushUntilDone_finish (pieces : List (List UInt8)) {s : EventStream}
    (hd : s.done = false) : (s.pushUntilDone pieces).finish = (s.push pieces.flatten).finish := by
  induction pieces generalizing s with
  | nil => rfl
  | cons piece rest ih =>
    rw [pushUntilDone, List.flatten_cons, push_append piece rest.flatten hd]
    cases h : (s.push piece).done with
    | true => rfl
    | false => exact ih h

/-- A body in pieces comes to what it comes to as a whole. -/
theorem pushUntilDone_readBody (pieces : List (List UInt8)) :
    (pushUntilDone {} pieces).finish = readBody pieces.flatten := by
  rw [pushUntilDone_finish pieces rfl, push_eq, ← takeBytes_withBody,
    takeBytes_finish pieces.flatten rfl (by simp [withBody])]
  change answer _ (payloads ((lines lineEnd pieces.flatten).map Text.decodeLossy)) = _
  unfold readBody readLines answer wholeAnswer
  cases payloads ((lines lineEnd pieces.flatten).map Text.decodeLossy) with
  | nil =>
    have hbody : (({} : EventStream).withBody
        (pieces.flatten.reverse ++ ({} : EventStream).body)).body.reverse = pieces.flatten := by
      simp [withBody]
    simp only [hbody]
    rfl
  | cons payload rest => simp [withBody]

theorem upToLast_append {before : List (List Char)} (h : lastPayload ∈ before)
    (after : List (List Char)) : upToLast (before ++ after) = upToLast before := by
  induction before with
  | nil => simp at h
  | cons payload before ih =>
    by_cases hp : payload = lastPayload
    · simp [upToLast, hp]
    · have hm : lastPayload ∈ before := by simpa [Ne.symm hp] using h
      simp [upToLast, hp, ih hm]

def Ended (body : List UInt8) : Prop :=
  ∃ line ∈ lines lineEnd body, payload? (Text.decodeLossy line) = some lastPayload

theorem payloads_of_mem {ls : List (List Char)} {line : List Char} (hm : line ∈ ls)
    (hp : payload? line = some lastPayload) (rest : List (List Char)) :
    payloads (ls ++ rest) = payloads ls ∧ payloads ls ≠ [] := by
  have h : lastPayload ∈ ls.filterMap payload? := List.mem_filterMap.mpr ⟨line, hm, hp⟩
  unfold payloads
  rw [List.filterMap_append, upToLast_append h]
  refine ⟨rfl, ?_⟩
  cases hps : ls.filterMap payload? with
  | nil => simp [hps] at h
  | cons payload ps =>
    unfold upToLast
    split <;> simp

theorem readBody_ended {before : List UInt8} (h : Ended (before ++ [lineEnd]))
    (after : List UInt8) :
    readBody (before ++ lineEnd :: after) = readBody (before ++ [lineEnd]) := by
  obtain ⟨line, hm, hp⟩ := h
  obtain ⟨heq, hne⟩ := payloads_of_mem (List.mem_map_of_mem hm) hp
    ((lines lineEnd after).map Text.decodeLossy)
  unfold readBody readLines
  rw [lines_append, List.map_append, heq, if_pos hne, if_pos hne]

theorem lines_encode (text : List Char) :
    lines lineEnd (Text.encode text) = (lines '\n' text).map Text.encode := by
  have hmem : ∀ line : List Char, '\n' ∉ line → lineEnd ∉ Text.encode line :=
    fun line h hm => h (Text.lineFeed_mem_encode hm)
  induction text using lines_induction '\n' with
  | empty => rfl
  | last line h hne =>
    have hne' : Text.encode line ≠ [] := by
      obtain ⟨c, rest, rfl⟩ := List.exists_cons_of_ne_nil hne
      simp [Text.encode, String.utf8EncodeChar_ne_nil]
    rw [lines_of_not_mem h hne, lines_of_not_mem (hmem line h) hne']
    rfl
  | more line rest h ih =>
    have he : Text.encode (line ++ '\n' :: rest) =
        Text.encode line ++ lineEnd :: Text.encode rest :=
      Text.encode_lineFeed line rest
    rw [he, lines_cons (hmem line h), lines_cons h, ih]
    rfl

theorem readBody_encode (text : List Char) : readBody (Text.encode text) = readText text := by
  have hid : Text.decodeLossy ∘ Text.encode = id := funext Text.decodeLossy_encode
  rw [readBody, readText, lines_encode, List.map_map, hid, List.map_id, Text.decodeLossy_encode]

/-- Wherever a body is cut, it comes to what it comes to as a whole. What
follows the line that ends it does not matter, and no character is damaged. -/
theorem finish_of_pieces (pieces : List (List UInt8)) :
    (pushUntilDone {} pieces).finish = readBody pieces.flatten ∧
      (∀ before after, pieces.flatten = before ++ lineEnd :: after →
        Ended (before ++ [lineEnd]) →
        (pushUntilDone {} pieces).finish = readBody (before ++ [lineEnd])) ∧
      ∀ text, pieces.flatten = Text.encode text →
        (pushUntilDone {} pieces).finish = readText text := by
  have hwhole := pushUntilDone_readBody pieces
  refine ⟨hwhole, fun before after h he => ?_, fun text h => ?_⟩
  · rw [hwhole, h, readBody_ended he after]
  · rw [hwhole, h, readBody_encode]

def greeting : List Char :=
  "data:\x7b\"choices\":[\x7b\"delta\":\x7b\"content\":\"你\"\x7d\x7d]\x7d\ndata: [DONE]".toList

def cutGreeting : List (List UInt8) :=
  let bytes := Text.encode (greeting ++ '\n' :: greeting)
  [bytes.take 39, bytes.drop 39]

theorem cutGreeting_finish :
    cutGreeting.flatten = Text.encode greeting ++ lineEnd :: Text.encode greeting ∧
      Ended (Text.encode greeting ++ [lineEnd]) ∧
      (pushUntilDone {} cutGreeting).finish = readBody (Text.encode greeting ++ [lineEnd]) ∧
      (pushUntilDone {} cutGreeting).finish = readText (greeting ++ '\n' :: greeting) ∧
      (readText (greeting ++ '\n' :: greeting)).toOption = some "你" := by
  have he : Ended (Text.encode greeting ++ [lineEnd]) := by
    unfold Ended
    decide +kernel
  have hf : cutGreeting.flatten = Text.encode (greeting ++ '\n' :: greeting) := by
    simp [cutGreeting]
  have hl := hf.trans (Text.encode_lineFeed greeting greeting)
  obtain ⟨-, hended, htext⟩ := finish_of_pieces cutGreeting
  exact ⟨hl, he, hended _ _ hl he, htext _ hf, by decide +kernel⟩

end Cardwalk.EventStream
