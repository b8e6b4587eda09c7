import LogAdmission.Sink.Text

/-!
# Drafts

A text sink drafts each line in a buffer and offers the whole draft to its writer. The buffer
is kept for the next call on the same thread, by this sink or by one derived from it, with
whatever the last call has left in it.
-/

namespace LogAdmission

/-- The outside world, and the buffers that the sinks of one family keep for their drafts, one
for each thread. -/
structure Desk where
  world : World
  drafts : Cells (List UInt8) := fun _ => []

/-- Appends a text to a draft. -/
def appendText (draft : List UInt8) (s : String) : List UInt8 :=
  draft ++ Text.bytes s

namespace TextSink

/-- Appends the time of a record, if that is wanted. -/
def draftTime (t : TextSink) (r : Record) (draft : List UInt8) :
    Option TimestampError × List UInt8 :=
  if t.withTime then
    match r.time.timestamp with
    | .error e => (some e, draft)
    | .ok time => (none, appendText (appendText (appendText draft "time=") time) " ")
  else (none, draft)

/-- Appends the line of a record piece by piece, up to a piece that fails. -/
def draft (t : TextSink) (r : Record) (draft : List UInt8) :
    Option TimestampError × List UInt8 :=
  match t.draftTime r draft with
  | (some e, draft) => (some e, draft)
  | (none, draft) =>
    let draft := appendText draft ("level=" ++ r.level.text ++ " msg=")
    let draft := appendText draft (Line.word r.message)
    let draft := appendText draft t.preformatted
    let draft := r.attrs.foldl (fun draft a => appendText draft (Line.attr t.qualifier a)) draft
    (none, appendText draft "\n")

/-- Writes a record by way of a draft. An aborted call loses the buffer that it has taken out,
and the next one on the thread begins with a new one. -/
def handleDrafted (t : TextSink) (thread : Nat) (r : Record) (d : Desk) : Outcome × Desk :=
  let emptied := (d.drafts thread).take 0
  match t.draft r emptied with
  | (some .outsideCalendar, _) => (.aborted, ⟨d.world, d.drafts.put thread []⟩)
  | (some .negativeYear, draft) => (.failed .format, ⟨d.world, d.drafts.put thread draft⟩)
  | (none, draft) =>
    match d.world.offer t.writer draft with
    | (none, w) => (.ok, ⟨w, d.drafts.put thread draft⟩)
    | (some reason, w) => (.failed (.io reason), ⟨w, d.drafts.put thread draft⟩)

end TextSink

end LogAdmission
