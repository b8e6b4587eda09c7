import LogAdmission.Proofs.Text.Hexadecimal
import LogAdmission.Sink.Line

/-!
# Reading the characters of a line

A scanner that takes the quotes and escapes off a line. What is left are symbols: a letter is
a character of a text, whether it was quoted or not, and a mark is a character that belongs to
the grammar of the line. A written text is scanned as its letters (`reads_word`), and the
scanner is back where it began, so that pieces of a line are scanned one after the other
(`Reads.append`).
-/

namespace LogAdmission.Line

/-- What a character of a line stands for. -/
inductive Symbol where
  /-- A character of a text. -/
  | letter (c : Char)
  /-- A character of the grammar. -/
  | mark (c : Char)
  deriving DecidableEq

/-- Where the scanner stands. -/
inductive Scan where
  /-- Outside quotes. -/
  | bare
  /-- Inside quotes. -/
  | inside
  /-- Behind a backslash. -/
  | escaped
  /-- In front of the brace of a number. -/
  | opening
  /-- In the number of a character, whose digits so far have this value. -/
  | number (value : Nat)
  deriving DecidableEq

/-- The character that a short escape stands for. -/
def shortEscape? (c : Char) : Option Char :=
  if c = '0' then some '\x00'
  else if c = 't' then some '\t'
  else if c = 'r' then some '\r'
  else if c = 'n' then some '\n'
  else if c = '"' then some '"'
  else if c = '\\' then some '\\'
  else none

namespace Scan

/-- Takes one character. No line break stands in a line. -/
def next : Scan → Char → Option (Scan × List Symbol)
  | bare, c =>
    if c = '\n' then none
    else if c = '"' then some (inside, [])
    else if c = ' ' ∨ c = '=' then some (bare, [.mark c])
    else some (bare, [.letter c])
  | inside, c =>
    if c = '\n' then none
    else if c = '"' then some (bare, [])
    else if c = '\\' then some (escaped, [])
    else some (inside, [.letter c])
  | escaped, c =>
    if c = 'u' then some (opening, []) else (shortEscape? c).map fun d => (inside, [.letter d])
  | opening, c => if c = '\x7b' then some (number 0, []) else none
  | number value, c =>
    if c = '\x7d' then some (inside, [.letter (Char.ofNat value)])
    else (Numeral.hexValue? c).map fun d => (number (16 * value + d), [])

end Scan

/-- Scans a text: where the scanner stands afterwards, and the symbols it has read. -/
def scan : Scan → List Char → Option (Scan × List Symbol)
  | s, [] => some (s, [])
  | s, c :: rest =>
    (s.next c).bind fun step => (scan step.1 rest).map fun last => (last.1, step.2 ++ last.2)

variable {s t u : Scan} {c : Char} {text : List Char} {symbols more : List Symbol}

theorem scan_cons_of_next (h : s.next c = some (t, symbols)) (rest : List Char) :
    scan s (c :: rest) = (scan t rest).map fun last => (last.1, symbols ++ last.2) := by
  rw [scan, h, Option.bind_some]

theorem scan_cons_eq_some_iff {rest : List Char} {out : List Symbol} :
    scan s (c :: rest) = some (u, out) ↔
      ∃ t first last, s.next c = some (t, first) ∧ scan t rest = some (u, last) ∧
        out = first ++ last := by
  simp only [scan, Option.bind_eq_some_iff, Option.map_eq_some_iff, Prod.exists, Prod.mk.injEq]
  constructor
  · rintro ⟨t, first, hnext, _, last, hrest, rfl, rfl⟩
    exact ⟨t, first, last, hnext, hrest, rfl⟩
  · rintro ⟨t, first, last, hnext, hrest, rfl⟩
    exact ⟨t, first, hnext, u, last, hrest, rfl, rfl⟩

theorem scan_append {front back : List Char} (h : scan s front = some (t, symbols))
    (h' : scan t back = some (u, more)) : scan s (front ++ back) = some (u, symbols ++ more) := by
  induction front generalizing s symbols with
  | nil =>
      obtain ⟨rfl, rfl⟩ := Prod.mk.inj (Option.some.inj h)
      exact h'
  | cons c front ih =>
      obtain ⟨r, first, last, hnext, hrest, rfl⟩ := scan_cons_eq_some_iff.mp h
      rw [List.append_assoc]
      exact scan_cons_eq_some_iff.mpr ⟨r, first, last ++ more, hnext, ih hrest, rfl⟩

/-- No line break is scanned. -/
theorem newline_notMem_of_scan (h : scan s text = some (t, symbols)) : '\n' ∉ text := by
  induction text generalizing s symbols with
  | nil => exact List.not_mem_nil
  | cons c rest ih =>
      obtain ⟨r, first, last, hnext, hrest, -⟩ := scan_cons_eq_some_iff.mp h
      rw [List.mem_cons, not_or]
      refine ⟨?_, ih hrest⟩
      rintro rfl
      have hnone : s.next '\n' = none := by cases s <;> rfl
      rw [hnone] at hnext
      cases hnext

/-! ## Texts -/

/-- No character of the text needs quotes. -/
def Plain (text : List Char) : Prop :=
  ∀ c ∈ text, isDelimiter c = false

instance (text : List Char) : Decidable (Plain text) :=
  List.decidableBAll (fun c => isDelimiter c = false) text

theorem next_bare (h : isDelimiter c = false) :
    Scan.next .bare c = some (.bare, [.letter c]) := by
  have hne : ∀ d, isDelimiter d = true → c ≠ d := by
    rintro d hd rfl
    rw [h] at hd
    cases hd
  simp [Scan.next, hne '\n' rfl, hne '"' rfl, hne ' ' rfl, hne '=' rfl]

theorem scan_plain (h : Plain text) : scan .bare text = some (.bare, text.map .letter) := by
  induction text with
  | nil => rfl
  | cons c rest ih =>
      have hc := next_bare (h c List.mem_cons_self)
      have hrest := ih fun d hd => h d (List.mem_cons_of_mem c hd)
      rw [scan_cons_of_next hc, hrest]
      rfl

/-- The digits of a number up to the brace behind them. -/
theorem scan_number {digits : List Char} {value n : Nat}
    (h : Numeral.readHexFrom value digits = some n) :
    scan (.number value) (digits ++ ['\x7d']) = some (.inside, [.letter (Char.ofNat n)]) := by
  induction digits generalizing value with
  | nil =>
      obtain rfl : value = n := Option.some.inj h
      rfl
  | cons c digits ih =>
      obtain ⟨d, hd, hrest⟩ := Option.bind_eq_some_iff.mp h
      have hbrace : c ≠ '\x7d' := by
        rintro rfl
        cases hd
      have hnext : Scan.next (.number value) c = some (.number (16 * value + d), []) := by
        simp [Scan.next, hbrace, hd]
      rw [List.cons_append, scan_cons_of_next hnext, ih hrest]
      rfl

/-- An escaped character is read as itself. -/
theorem scan_escape (c : Char) : scan .inside (Text.escape c) = some (.inside, [.letter c]) := by
  unfold Text.escape
  -- the six short escapes: the character is known, and the scan computes
  iterate 6
    split
    · subst c
      rfl
  rename_i hnewline hquote hbackslash
  split
  · have hnumber := scan_number (Numeral.readHexFrom_hexDigits c.toNat)
    rw [Char.ofNat_toNat] at hnumber
    have hopening : scan .inside ['\\', 'u', '\x7b'] = some (.number 0, []) := rfl
    rw [List.append_assoc]
    exact scan_append hopening hnumber
  · simp [scan, Scan.next, hnewline, hquote, hbackslash]

theorem scan_escapes (text : List Char) :
    scan .inside (text.flatMap Text.escape) = some (.inside, text.map .letter) := by
  induction text with
  | nil => rfl
  | cons c rest ih => exact scan_append (scan_escape c) ih

/-! ## Pieces of a line -/

/-- The letters of a text. -/
def letters (s : String) : List Symbol :=
  s.toList.map .letter

/-- A piece of a line with its quotes closed, and its symbols. -/
def Reads (piece : String) (symbols : List Symbol) : Prop :=
  scan .bare piece.toList = some (.bare, symbols)

theorem Reads.append {front back : String} (h : Reads front symbols) (h' : Reads back more) :
    Reads (front ++ back) (symbols ++ more) := by
  unfold Reads
  rw [String.toList_append]
  exact scan_append h h'

theorem reads_plain {s : String} (h : Plain s.toList) : Reads s (letters s) :=
  scan_plain h

theorem reads_quoted (s : String) : Reads (Text.quoted s) (letters s) := by
  have hbody : scan .inside (s.toList.flatMap Text.escape ++ ['"']) =
      some (.bare, letters s ++ []) :=
    scan_append (scan_escapes s.toList) rfl
  rw [List.append_nil] at hbody
  simp only [Reads, Text.quoted, String.toList_ofList, List.cons_append]
  rw [scan_cons_of_next (show Scan.next .bare '"' = some (.inside, []) from rfl), hbody]
  rfl

/-- **A written text is read as its letters.** -/
theorem reads_word (s : String) : Reads (word s) (letters s) := by
  unfold word
  split
  · exact reads_quoted s
  · rename_i hbare
    apply reads_plain
    intro c hc
    rw [needsQuotes, Bool.not_eq_true, Bool.or_eq_false_iff, List.any_eq_false] at hbare
    exact Bool.eq_false_of_not_eq_true (hbare.2 c hc)

end LogAdmission.Line
