import LogAdmission.Proofs.Sink.Requests
import LogAdmission.Sink.Draft

/-!
# Deliveries of lines

What becomes of records when writers fail. A sink drafts its lines in a buffer that may hold
anything from calls before; what it offers is the line of its own record all the same
(`draft_eq`), and so a call by way of a draft is the call (`handleDrafted_eq`). In a run of calls
by sinks of one family each delivery is about its own line only (`Delivery.Serves`): requests
begin with the whole line, and what is taken is a part of it from its first byte on.
-/

namespace LogAdmission

/-! ## Drafts -/

theorem appendText_eq (draft : List UInt8) (s : String) :
    appendText draft s = draft ++ Text.bytes s := rfl

theorem foldl_append_attr (qualifier : String) (as : List Attr) (draft : List UInt8) :
    as.foldl (fun draft a => draft ++ Text.bytes (Line.attr qualifier a)) draft =
      draft ++ Text.bytes (Line.attrs qualifier as) := by
  induction as generalizing draft with
  | nil => exact (List.append_nil draft).symm
  | cons a as ih =>
      rw [List.foldl_cons, ih, Line.attrs, bytes_append, List.append_assoc]

/-- A line ends with a line break. -/
theorem Line.exists_front {withTime : Bool} {qualifier preformatted line : String} {r : Record}
    (h : Line.write withTime qualifier preformatted r = .ok line) :
    ∃ front, line = front ++ "\n" := by
  unfold Line.write at h
  cases withTime with
  | false =>
      cases h
      exact ⟨_, rfl⟩
  | true =>
      cases htime : r.time.timestamp with
      | error e =>
          rw [htime] at h
          cases h
      | ok time =>
          rw [htime] at h
          cases h
          exact ⟨_, (String.append_assoc).symm⟩

namespace TextSink

/-- **A draft is the line.** Whatever is in the buffer before it stays in front, and a record
without a line leaves nothing behind. -/
theorem draft_eq (t : TextSink) (r : Record) (draft : List UInt8) :
    t.draft r draft =
      match t.line r with
      | .error e => (some e, draft)
      | .ok line => (none, draft ++ Text.bytes line) := by
  unfold TextSink.draft draftTime line Line.write
  cases t.withTime with
  | false =>
      simp only [Bool.false_eq_true, if_false, foldl_append_attr, appendText_eq, Line.body,
        bytes_append, List.append_assoc]
  | true =>
      cases r.time.timestamp with
      | error e => rfl
      | ok time =>
          simp only [if_true, Except.map, foldl_append_attr, appendText_eq, Line.body,
            bytes_append, List.append_assoc]

/-- **By way of a draft** a call does the same, whatever the buffer holds. -/
theorem handleDrafted_eq (t : TextSink) (thread : Nat) (r : Record) (d : Desk) :
    ((t.handleDrafted thread r d).1, (t.handleDrafted thread r d).2.world) =
      t.handle r d.world := by
  have hemptied : (d.drafts thread).take 0 = [] := List.take_zero
  rw [handleDrafted, handle, hemptied, t.draft_eq]
  cases t.line r with
  | error e => cases e <;> rfl
  | ok line =>
      simp only [List.nil_append]
      rcases d.world.offer t.writer (Text.bytes line) with ⟨_ | reason, w⟩
      · rfl
      · rfl

theorem bytes_line_ne_nil {t : TextSink} {r : Record} {line : String} (h : t.line r = .ok line) :
    Text.bytes line ≠ [] := by
  obtain ⟨front, rfl⟩ := Line.exists_front h
  rw [bytes_append]
  exact List.append_ne_nil_of_right_ne_nil _ (by decide)

end TextSink

/-! ## Deliveries -/

/-- How a call ends for a record without a line. -/
def TimestampError.outcome : TimestampError → Outcome
  | negativeYear => .failed .format
  | outsideCalendar => .aborted

/-- What became of one call: the requests made of the writer meanwhile, and the outcome. -/
structure Delivery where
  requests : List WriteRequest
  outcome : Outcome

namespace Delivery

/-- The bytes that the writer has taken. -/
def taken (d : Delivery) : List UInt8 :=
  d.requests.flatMap WriteRequest.taken

end Delivery

/-- The delivery is about one line, from its first byte on. -/
structure Delivery.Carries (d : Delivery) (line : List UInt8) : Prop where
  /-- The first request offers the whole line. -/
  opening : d.requests.head?.map WriteRequest.offered = some line
  /-- Every other one offers what the one before it has left. -/
  going_on : d.requests.IsChain fun q next => next.offered = q.left
  own_line : d.taken <+: line
  ok_iff : d.outcome = .ok ↔ d.taken = line
  /-- If not everything is taken, the first refusal is the reason. -/
  refused : d.taken ≠ line → ∃ reason, d.requests.findSome? WriteRequest.refusal = some reason ∧
    d.outcome = .failed (.io reason)

/-- The delivery carries the line of the record. Without a line the writer is not asked. -/
def Delivery.Serves (d : Delivery) (t : TextSink) (r : Record) : Prop :=
  match t.line r with
  | .error e => d.requests = [] ∧ d.outcome = e.outcome
  | .ok line => d.Carries (Text.bytes line)

namespace TextSink

/-- The requests of one call. -/
def requests (t : TextSink) (r : Record) (w : World) : List WriteRequest :=
  match t.line r with
  | .error _ => []
  | .ok line => LogAdmission.requests (w.scripts t.writer.number) (Text.bytes line)

/-- What a call comes to, told by its requests. -/
theorem handle_of_requests (t : TextSink) (r : Record) (w : World) :
    (t.handle r w).1 =
        (match t.line r with
        | .error e => e.outcome
        | .ok _ => ((t.requests r w).findSome? WriteRequest.refusal).elim .ok
            fun reason => .failed (.io reason)) ∧
      (t.handle r w).2.output t.writer.name =
        w.output t.writer.name ++ (t.requests r w).flatMap WriteRequest.taken ∧
      (t.handle r w).2.scripts t.writer.number =
        (w.scripts t.writer.number).drop (t.requests r w).length := by
  cases hline : t.line r with
  | error e =>
      have hrequests : t.requests r w = [] := by rw [requests, hline]
      have hhandle : t.handle r w = (e.outcome, w) := by
        rw [handle, hline]
        cases e <;> rfl
      rw [hrequests, hhandle]
      exact ⟨rfl, (List.append_nil _).symm, rfl⟩
  | ok line =>
      have hrequests : t.requests r w =
          LogAdmission.requests (w.scripts t.writer.number) (Text.bytes line) := by
        rw [requests, hline]
      obtain ⟨htaken, hfailure, hscript⟩ :=
        writeAll_requests (w.scripts t.writer.number) (Text.bytes line)
      rw [← hrequests] at htaken hfailure hscript
      rw [handle_of_line hline, w.output_offer, htaken, ← hscript, ← hfailure]
      exact ⟨rfl, rfl, w.scripts_offer t.writer (Text.bytes line)⟩

theorem response_of_getElem?_requests {t : TextSink} {r : Record} {w : World} {k : Nat}
    {q : WriteRequest} (hq : (t.requests r w)[k]? = some q) :
    q.response = (w.scripts t.writer.number)[k]?.getD .takeAll := by
  unfold requests at hq
  cases hline : t.line r with
  | error e =>
      rw [hline] at hq
      cases hq
  | ok line =>
      rw [hline] at hq
      exact LogAdmission.response_of_getElem?_requests hq

/-- **A call delivers its own line.** -/
theorem serves (t : TextSink) (r : Record) (w : World) :
    (⟨t.requests r w, (t.handle r w).1⟩ : Delivery).Serves t r := by
  have houtcome := (t.handle_of_requests r w).1
  unfold Delivery.Serves
  cases hline : t.line r with
  | error e =>
      rw [hline] at houtcome
      exact ⟨by rw [requests, hline], houtcome⟩
  | ok line =>
      have hrequests : t.requests r w =
          LogAdmission.requests (w.scripts t.writer.number) (Text.bytes line) := by
        rw [requests, hline]
      obtain ⟨rest, htaken, hall⟩ :=
        taken_requests (w.scripts t.writer.number) (Text.bytes line)
      rw [hline] at houtcome
      replace houtcome : (t.handle r w).1 =
        ((t.requests r w).findSome? WriteRequest.refusal).elim .ok
          fun reason => .failed (.io reason) := houtcome
      rw [← hrequests] at htaken hall
      -- nothing is left over if and only if no request was refused
      have hrest : (t.requests r w).flatMap WriteRequest.taken = Text.bytes line ↔ rest = [] := by
        rw [← htaken]
        exact List.self_eq_append_right
      refine ⟨?_, ?_, ⟨rest, htaken⟩, ?_, ?_⟩
      · show (t.requests r w).head?.map _ = _
        rw [hrequests]
        exact head?_requests _ (bytes_line_ne_nil hline)
      · show (t.requests r w).IsChain _
        rw [hrequests]
        exact isChain_requests _ _
      · show (t.handle r w).1 = .ok ↔ (t.requests r w).flatMap WriteRequest.taken = _
        rw [hrest, ← hall, houtcome]
        cases (t.requests r w).findSome? WriteRequest.refusal with
        | none => exact ⟨fun _ => rfl, fun _ => rfl⟩
        | some reason => simp
      · intro hnot
        have hrefused : (t.requests r w).findSome? WriteRequest.refusal ≠ none := by
          intro hnone
          exact hnot (hrest.mpr (hall.mp hnone))
        obtain ⟨reason, hreason⟩ := Option.ne_none_iff_exists'.mp hrefused
        rw [hreason] at houtcome
        exact ⟨reason, hreason, houtcome⟩

end TextSink

/-! ## Runs -/

/-- A record handled on a thread by a sink derived from the one at the start. -/
structure DraftedCall where
  thread : Nat := 0
  path : List (List Attr ⊕ String) := []
  record : Record

namespace DraftedCall

/-- Handles the record by way of a draft. -/
def perform (base : TextSink) (call : DraftedCall) (d : Desk) : Outcome × Desk :=
  (base.derive call.path).handleDrafted call.thread call.record d

/-- Handles the record. -/
def performPlainly (base : TextSink) (call : DraftedCall) (w : World) : Outcome × World :=
  (base.derive call.path).handle call.record w

/-- What becomes of the record. -/
def delivery (base : TextSink) (call : DraftedCall) (w : World) : Delivery :=
  ⟨(base.derive call.path).requests call.record w, (call.performPlainly base w).1⟩

/-- What becomes of the records of a run. -/
def deliveries (base : TextSink) : List DraftedCall → World → List Delivery
  | [], _ => []
  | call :: rest, w => call.delivery base w :: deliveries base rest (call.performPlainly base w).2

/-- By way of drafts a run is the same, whatever the buffers hold. -/
theorem performEach_perform (base : TextSink) (calls : List DraftedCall) (d : Desk) :
    performEach (performPlainly base) calls d.world =
      ((performEach (perform base) calls d).1, (performEach (perform base) calls d).2.world) :=
  performEach_part
    (fun call d => ((base.derive call.path).handleDrafted_eq call.thread call.record d).symm)
    calls d

theorem serves_deliveries (base : TextSink) (calls : List DraftedCall) (w : World) :
    List.Forall₂ (fun call (d : Delivery) => d.Serves (base.derive call.path) call.record) calls
      (deliveries base calls w) := by
  induction calls generalizing w with
  | nil => exact .nil
  | cons call rest ih => exact .cons ((base.derive call.path).serves call.record w) (ih _)

theorem outcomes_deliveries (base : TextSink) (calls : List DraftedCall) (w : World) :
    (performEach (performPlainly base) calls w).1 =
      (deliveries base calls w).map Delivery.outcome := by
  induction calls generalizing w with
  | nil => rfl
  | cons call rest ih => exact congrArg _ (ih _)

theorem deliveries_take (base : TextSink) (calls : List DraftedCall) (w : World) (k : Nat) :
    deliveries base (calls.take k) w = (deliveries base calls w).take k := by
  induction calls generalizing w k with
  | nil => simp [deliveries]
  | cons call rest ih =>
      cases k with
      | zero => rfl
      | succ k => exact congrArg _ (ih _ k)

/-- What one call adds to what its writer has taken, and uses up of its script. -/
theorem performPlainly_writes (base : TextSink) (call : DraftedCall) (w : World) :
    (call.performPlainly base w).2.output base.writer.name =
        w.output base.writer.name ++ (call.delivery base w).taken ∧
      (call.performPlainly base w).2.scripts base.writer.number =
        (w.scripts base.writer.number).drop (call.delivery base w).requests.length := by
  have hwrites := ((base.derive call.path).handle_of_requests call.record w).2
  rw [TextSink.writer_derive] at hwrites
  exact hwrites

/-- What the writer has taken in a run is what it has taken in each delivery. -/
theorem output_deliveries (base : TextSink) (calls : List DraftedCall) (w : World) :
    (performEach (performPlainly base) calls w).2.output base.writer.name =
      w.output base.writer.name ++ (deliveries base calls w).flatMap Delivery.taken := by
  induction calls generalizing w with
  | nil => exact (List.append_nil _).symm
  | cons call rest ih =>
      rw [performEach, ih, (call.performPlainly_writes base w).1, deliveries, List.flatMap_cons,
        List.append_assoc]

/-- The requests of a run are answered by the script in turn. -/
theorem response_of_deliveries {base : TextSink} {calls : List DraftedCall} {w : World} {k : Nat}
    {q : WriteRequest} (hq : ((deliveries base calls w).flatMap Delivery.requests)[k]? = some q) :
    q.response = (w.scripts base.writer.number)[k]?.getD .takeAll := by
  induction calls generalizing w k with
  | nil => cases hq
  | cons call rest ih =>
      rw [deliveries, List.flatMap_cons, List.getElem?_append] at hq
      split at hq
      · have hanswer := TextSink.response_of_getElem?_requests hq
        rw [TextSink.writer_derive] at hanswer
        exact hanswer
      · -- behind the requests of the first call, the rest of the script answers
        rename_i hlater
        have hanswer := ih hq
        rw [(call.performPlainly_writes base w).2, List.getElem?_drop,
          Nat.add_sub_of_le (Nat.le_of_not_lt hlater)] at hanswer
        exact hanswer

end DraftedCall

/-- **Failures of a writer stay with the call.** Records are handled on any threads by sinks
derived from one, which share the writer and their buffers, over any script and whatever is in the
buffers. Then each delivery carries the line of its own record: the first request offers the line
from its first byte on, what is taken is a part of the line from there, the call is successful if
and only if that is the whole line, and otherwise fails with the reason of the first refusal. For
a record without a line the writer is not asked. The deliveries up to any call are all that the
writer has taken, and the script answers their requests in turn. -/
theorem failures_stay_apart (base : TextSink) (calls : List DraftedCall) (d : Desk) :
    let run := performEach (DraftedCall.perform base) calls d
    ∃ deliveries : List Delivery,
      List.Forall₂ (fun call (d : Delivery) => d.Serves (base.derive call.path) call.record) calls
          deliveries ∧
        run.1 = deliveries.map Delivery.outcome ∧
        (∀ k, (performEach (DraftedCall.perform base) (calls.take k) d).2.world.output
            base.writer.name =
          d.world.output base.writer.name ++ (deliveries.take k).flatMap Delivery.taken) ∧
        (∀ (k : Nat) (q : WriteRequest), (deliveries.flatMap Delivery.requests)[k]? = some q →
          q.response = (d.world.scripts base.writer.number)[k]?.getD .takeAll) ∧
        performEach (DraftedCall.performPlainly base) calls d.world = (run.1, run.2.world) := by
  intro run
  have hplain : ∀ calls, performEach (DraftedCall.performPlainly base) calls d.world =
      ((performEach (DraftedCall.perform base) calls d).1,
        (performEach (DraftedCall.perform base) calls d).2.world) :=
    fun calls => DraftedCall.performEach_perform base calls d
  refine ⟨DraftedCall.deliveries base calls d.world,
    DraftedCall.serves_deliveries base calls d.world, ?_, ?_, ?_, hplain calls⟩
  · have houtcomes := DraftedCall.outcomes_deliveries base calls d.world
    rw [hplain] at houtcomes
    exact houtcomes
  · intro k
    have houtput := DraftedCall.output_deliveries base (calls.take k) d.world
    rw [hplain, DraftedCall.deliveries_take] at houtput
    exact houtput
  · intro k q hq
    exact DraftedCall.response_of_deliveries hq

/-- A record of the year 10000 has no line, but its call does not fail; it is aborted. -/
theorem late_record_aborts :
    let t : TextSink := { writer := ⟨0, "w"⟩ }
    let r : Record := ⟨.info, "a", .ofSeconds 253402300800 0, []⟩
    t.line r = .error .outsideCalendar ∧ (t.handle r {}).1 = .aborted ∧
      (t.handle r {}).1 ≠ .failed .format := by
  decide +kernel

end LogAdmission
