import LogAdmission.Proofs.Line.Contents
import LogAdmission.Proofs.Runs
import LogAdmission.Proofs.Sink.Derivation

/-!
# Streams of lines

What a writer has taken after any text sinks have handled records through it. A call that ends
well has written its whole line, however the writer cut it into pieces. So the stream of a run
is the lines of its records one behind the other, and because no line has a line break inside,
the stream falls into them again and each is read as its record.
-/

namespace LogAdmission

/-! ## What a writer takes -/

/-- The pieces taken are the bytes up to some place, and all of them unless there is a reason
to give up. -/
theorem writeAll_taken (script : List Response) (bytes : List UInt8) :
    ∃ rest, (writeAll script bytes).pieces.flatten ++ rest = bytes ∧
      ((writeAll script bytes).failure = none ↔ rest = []) := by
  fun_induction writeAll script bytes with
  | case1 script => exact ⟨[], rfl, by simp⟩
  | case2 bytes hne => exact ⟨[], by simp, by simp⟩
  | case3 script bytes hne => exact ⟨[], by simp, by simp⟩
  | case4 script bytes hne => exact ⟨bytes, rfl, by simpa using hne⟩
  | case5 limit script bytes hne hlimit ih =>
      obtain ⟨rest, htaken, hfailure⟩ := ih
      refine ⟨rest, ?_, hfailure⟩
      rw [Written.cons, List.flatten_cons, List.append_assoc, htaken, List.take_append_drop]
  | case6 script bytes hne ih => exact ih
  | case7 reason script bytes hne => exact ⟨bytes, rfl, by simpa using hne⟩

namespace Received

/-- The bytes of a piece. -/
def bytes : Received → List UInt8
  | piece bytes => bytes
  | record .. => []

end Received

namespace World

/-- The bytes received under a name, in order. -/
def output (w : World) (name : String) : List UInt8 :=
  w.received.reverse.flatMap fun item => if item.1 = name then item.2.bytes else []

theorem output_receive (w : World) (name : String) (item : Received) :
    (w.receive name item).output name = w.output name ++ item.bytes := by
  simp [output, receive]

theorem output_pieces (w : World) (name : String) (pieces : List (List UInt8)) :
    (pieces.foldl (fun w piece => w.receive name (.piece piece)) w).output name =
      w.output name ++ pieces.flatten := by
  induction pieces generalizing w with
  | nil => simp
  | cons piece pieces ih =>
      rw [List.foldl_cons, ih, output_receive, List.flatten_cons, List.append_assoc]
      rfl

theorem output_offer (w : World) (writer : Writer) (bytes : List UInt8) :
    (w.offer writer bytes).2.output writer.name =
      w.output writer.name ++ (writeAll (w.scripts writer.number) bytes).pieces.flatten :=
  output_pieces _ writer.name _

theorem scripts_offer (w : World) (writer : Writer) (bytes : List UInt8) :
    (w.offer writer bytes).2.scripts writer.number =
      (writeAll (w.scripts writer.number) bytes).script := by
  have hreceive : ∀ (pieces : List (List UInt8)) (w : World),
      (pieces.foldl (fun w piece => w.receive writer.name (.piece piece)) w).scripts =
        w.scripts := by
    intro pieces
    induction pieces with
    | nil => exact fun _ => rfl
    | cons piece pieces ih => exact fun w => ih _
  rw [offer, hreceive]
  exact Cells.put_self _ _ _

end World

namespace TextSink

/-- What a call does that has a line. -/
theorem handle_of_line {t : TextSink} {r : Record} {line : String} (h : t.line r = .ok line)
    (w : World) :
    t.handle r w =
      ((w.offer t.writer (Text.bytes line)).1.elim .ok fun reason => .failed (.io reason),
        (w.offer t.writer (Text.bytes line)).2) := by
  simp only [handle, h]
  rcases w.offer t.writer (Text.bytes line) with ⟨_ | reason, after⟩
  · rfl
  · rfl

/-- A call that ends well has written the whole line. -/
theorem handle_ok {t : TextSink} {r : Record} {w : World} (h : (t.handle r w).1 = .ok) :
    ∃ line, t.line r = .ok line ∧
      (t.handle r w).2.output t.writer.name = w.output t.writer.name ++ Text.bytes line := by
  cases hline : t.line r with
  | error e =>
      rw [handle, hline] at h
      cases e <;> cases h
  | ok line =>
      refine ⟨line, rfl, ?_⟩
      rw [handle_of_line hline] at h ⊢
      have hfailure : (writeAll (w.scripts t.writer.number) (Text.bytes line)).failure = none := by
        cases hreason : (w.offer t.writer (Text.bytes line)).1 with
        | none => exact hreason
        | some reason =>
            rw [hreason] at h
            cases h
      obtain ⟨rest, htaken, hall⟩ := writeAll_taken (w.scripts t.writer.number) (Text.bytes line)
      rw [hall.mp hfailure, List.append_nil] at htaken
      rw [w.output_offer, htaken]

end TextSink

/-! ## Runs -/

/-- A record handled by a sink derived from one that was made for a writer. -/
structure TextCall where
  minimum : Level := .info
  withTime : Bool := true
  path : List (List Attr ⊕ String) := []
  record : Record

namespace TextCall

/-- The derived sink. -/
def sink (writer : Writer) (call : TextCall) : TextSink :=
  ({ writer := writer, minimum := call.minimum, withTime := call.withTime } : TextSink).derive
    call.path

/-- Handles the record. -/
def perform (writer : Writer) (call : TextCall) (w : World) : Outcome × World :=
  (call.sink writer).handle call.record w

/-- What is to be read of the call: the level, the message, the attributes that were added by
derivation and then those of the record, all with their keys qualified. -/
def contents (call : TextCall) : Line.Contents :=
  .ofRecord call.withTime (call.record.behind call.path)

/-- The line of a call that ends well, apart from the line break at its end. -/
theorem perform_ok {writer : Writer} {call : TextCall} {w : World}
    (h : (call.perform writer w).1 = .ok) :
    ∃ (line : String) (front : List Char),
      (call.perform writer w).2.output writer.name = w.output writer.name ++ Text.bytes line ∧
      line.toList = front ++ ['\n'] ∧ '\n' ∉ front ∧
      Line.read front = some call.contents := by
  obtain ⟨line, hline, houtput⟩ := TextSink.handle_ok h
  have hwriter : (call.sink writer).writer = writer := TextSink.writer_derive _ call.path
  rw [hwriter] at houtput
  rw [sink, TextSink.line_derive] at hline
  obtain ⟨front, hend, hbreak, hread⟩ := Line.read_write hline
  exact ⟨line, front, houtput, hend, hbreak, hread⟩

end TextCall

theorem bytes_append (s t : String) : Text.bytes (s ++ t) = Text.bytes s ++ Text.bytes t := by
  simp [Text.bytes]

/-- **The stream is read as the records.** Whatever records have been handled successfully by
text sinks of one writer, with or without times and derived in any way, the writer has taken a
text that falls at its line breaks into one line for each record, in order; and one reader
gives back of each line what the record had to say. -/
theorem lines_read_back (writer : Writer) (calls : List TextCall) (w : World)
    (hok : ∀ outcome ∈ (performAll (TextCall.perform writer) calls w).1, outcome = .ok) :
    ∃ (text : String) (lines : List (List Char)),
      (performAll (TextCall.perform writer) calls w).2.output writer.name =
        w.output writer.name ++ Text.bytes text ∧
      text.toList.splitOn '\n' = lines ++ [[]] ∧
      lines.map Line.read = calls.map fun call => some call.contents := by
  induction calls generalizing w with
  | nil => exact ⟨"", [], by simp [performAll, Text.bytes], rfl, rfl⟩
  | cons call calls ih =>
      have hgoes : (call.perform writer w).1 ≠ .aborted := by
        intro haborted
        rw [performAll_cons_aborted calls haborted] at hok
        exact absurd (hok .aborted List.mem_cons_self) (by decide)
      rw [performAll_cons_of_ne calls hgoes] at hok ⊢
      obtain ⟨line, front, hfirst, hend, hbreak, hread⟩ :=
        TextCall.perform_ok (hok _ List.mem_cons_self)
      obtain ⟨text, lines, hrest, hsplit, hlines⟩ :=
        ih _ fun outcome hmem => hok outcome (List.mem_cons_of_mem _ hmem)
      refine ⟨line ++ text, front :: lines, ?_, ?_, ?_⟩
      · rw [hrest, hfirst, bytes_append, List.append_assoc]
      · rw [String.toList_append, hend, List.append_assoc, List.singleton_append,
          List.splitOn_append_cons_self_of_not_mem hbreak, hsplit, List.cons_append]
      · rw [List.map_cons, List.map_cons, hread, hlines]

/-- Texts that look like parts of a line, by a derived sink without times and by the one for
their writer. -/
def disguisedCalls : List TextCall :=
  [{ withTime := false, path := [.inr "a b", .inl [⟨"k", .str "x=\"\n"⟩], .inr ""],
      record := ⟨⟨-9⟩, "", ⟨0⟩, [⟨"", .bool true⟩]⟩ },
    { record := ⟨⟨127⟩, "level=INFO", ⟨250000000⟩, [⟨"é\u200b", .int (-1)⟩]⟩ }]

/-- A writer that takes the first line in two pieces. -/
theorem lines_read_back_disguised :
    ∃ (text : String) (lines : List (List Char)),
      (performAll (TextCall.perform ⟨0, "w"⟩) disguisedCalls
          (({} : World).addWriter "w" [.takeUpTo 30, .interrupted]).2).2.output "w" =
        Text.bytes text ∧
      text.toList.splitOn '\n' = lines ++ [[]] ∧
      lines.map Line.read =
        [some ⟨none, ⟨-9⟩, "", [("a b.k", "x=\"\n"), ("a b.", "true")]⟩,
          some ⟨some "1970-01-01T00:00:00.25Z", ⟨127⟩, "level=INFO", [("é\u200b", "-1")]⟩] := by
  have hok : ∀ outcome ∈ (performAll (TextCall.perform ⟨0, "w"⟩) disguisedCalls
      (({} : World).addWriter "w" [.takeUpTo 30, .interrupted]).2).1, outcome = .ok := by
    decide +kernel
  obtain ⟨text, lines, houtput, hsplit, hlines⟩ := lines_read_back ⟨0, "w"⟩ disguisedCalls _ hok
  have hcontents : disguisedCalls.map (fun call => some call.contents) =
      [some ⟨none, ⟨-9⟩, "", [("a b.k", "x=\"\n"), ("a b.", "true")]⟩,
        some ⟨some "1970-01-01T00:00:00.25Z", ⟨127⟩, "level=INFO", [("é\u200b", "-1")]⟩] := by
    decide +kernel
  exact ⟨text, lines, houtput, hsplit, hlines.trans hcontents⟩

end LogAdmission
