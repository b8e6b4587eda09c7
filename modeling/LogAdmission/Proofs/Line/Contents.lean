import LogAdmission.Proofs.Line.Plain

/-!
# Reading lines

A reader of whole lines. It splits the symbols of a line into pairs at the blanks, and a pair
into its key and its value at the equals sign; what was quoted consists of letters and is not
split. The level is read from its name and the distance behind it. Every line is read as the
record it was written for (`read_write`).
-/

namespace LogAdmission

/-! ## Levels -/

namespace Numeral

/-- Reads a distance with its sign. Zero is not written. -/
def readSigned : List Char → Option Int
  | [] => some 0
  | '+' :: digits => some (Nat.ofDigitChars 10 digits 0)
  | '-' :: digits => some (-(Nat.ofDigitChars 10 digits 0 : Int))
  | _ => none

theorem readSigned_signed (n : Int) : readSigned (signed n).toList = some n := by
  cases n with
  | ofNat n =>
      simp only [signed, ofNat, String.toList_append, String.toList_ofList]
      exact congrArg (fun m : Nat => some (m : Int)) Nat.ofDigitChars_ten_toDigits
  | negSucc n =>
      simp only [signed, ofNat, String.toList_append, String.toList_ofList]
      exact congrArg (fun m : Nat => some (-(m : Int))) Nat.ofDigitChars_ten_toDigits

end Numeral

namespace Level

/-- The levels with names. -/
def named : List (String × Level) :=
  [("TRACE", trace), ("DEBUG", debug), ("INFO", info), ("WARN", warn), ("ERROR", error)]

/-- Reads the written form of a level: its name, and the distance behind it. -/
def read (text : String) : Option Level :=
  (named.find? fun base => base.1.toList.isPrefixOf text.toList).bind fun base =>
    (Numeral.readSigned (text.toList.drop base.1.length)).map fun offset =>
      ⟨Int8.ofInt (base.2.severity.toInt + offset)⟩

theorem base_mem_named (l : Level) : l.base ∈ named := by
  unfold base
  repeat' split
  all_goals decide

/-- No name begins another one. -/
theorem find_named {base : String × Level} (h : base ∈ named) (rest : List Char) :
    (named.find? fun other => other.1.toList.isPrefixOf (base.1.toList ++ rest)) = some base := by
  simp only [named, List.mem_cons, List.not_mem_nil, or_false] at h
  rcases h with rfl | rfl | rfl | rfl | rfl
  all_goals rfl

theorem read_append {base : String × Level} (h : base ∈ named) {rest : String} {offset : Int}
    (hrest : Numeral.readSigned rest.toList = some offset) :
    read (base.1 ++ rest) = some ⟨Int8.ofInt (base.2.severity.toInt + offset)⟩ := by
  have hdrop : (base.1.toList ++ rest.toList).drop base.1.length = rest.toList :=
    List.drop_left' String.length_toList
  rw [read, String.toList_append, find_named h, Option.bind_some, hdrop, hrest]
  rfl

theorem read_text (l : Level) : read l.text = some l := by
  let offset := l.severity.toInt - l.base.2.severity.toInt
  have hsigned : Numeral.readSigned (if offset = 0 then "" else Numeral.signed offset).toList =
      some offset := by
    split
    · rename_i hzero
      rw [hzero]
      rfl
    · exact Numeral.readSigned_signed offset
  have hsum : l.base.2.severity.toInt + offset = l.severity.toInt := by omega
  rw [text, read_append l.base_mem_named hsigned, hsum, Int8.ofInt_toInt]

end Level

namespace Line

/-! ## Pairs -/

/-- The character of a letter. -/
def Symbol.letter? : Symbol → Option Char
  | letter c => some c
  | mark _ => none

/-- The text of letters. -/
def textOf (symbols : List Symbol) : String :=
  String.ofList (symbols.filterMap Symbol.letter?)

/-- The symbols of a key and its value. -/
def pair (entry : String × String) : List Symbol :=
  letters entry.1 ++ .mark '=' :: letters entry.2

/-- Reads a key and its value. -/
def readPair (symbols : List Symbol) : Option (String × String) :=
  match symbols.splitOn (.mark '=') with
  | [key, value] => some (textOf key, textOf value)
  | _ => none

/-- The symbols of pairs, each with a blank in front. -/
def pairs (entries : List (String × String)) : List Symbol :=
  entries.flatMap fun entry => .mark ' ' :: pair entry

/-- Reads the pairs of a line. -/
def readPairs (line : List Char) : Option (List (String × String)) :=
  match scan .bare line with
  | some (.bare, symbols) => (symbols.splitOn (.mark ' ')).mapM readPair
  | _ => none

theorem mark_notMem_letters (c : Char) (s : String) : Symbol.mark c ∉ letters s := by
  simp [letters]

theorem blank_notMem_pair (entry : String × String) : Symbol.mark ' ' ∉ pair entry := by
  simp [pair, mark_notMem_letters]

@[simp] theorem textOf_letters (s : String) : textOf (letters s) = s := by
  have hletters : s.toList.filterMap (Symbol.letter? ∘ .letter) = s.toList :=
    List.filterMap_some
  rw [textOf, letters, List.filterMap_map, hletters, String.ofList_toList]

theorem readPair_pair (entry : String × String) : readPair (pair entry) = some entry := by
  rw [readPair, pair, List.splitOn_append_cons_self_of_not_mem (mark_notMem_letters _ _),
    List.splitOn_eq_singleton (mark_notMem_letters _ _)]
  simp

theorem splitOn_pairs (first : String × String) (rest : List (String × String)) :
    (pair first ++ pairs rest).splitOn (.mark ' ') = (first :: rest).map pair := by
  induction rest generalizing first with
  | nil =>
      rw [pairs, List.flatMap_nil, List.append_nil,
        List.splitOn_eq_singleton (blank_notMem_pair first)]
      rfl
  | cons entry rest ih =>
      rw [pairs, List.flatMap_cons, List.cons_append,
        List.splitOn_append_cons_self_of_not_mem (blank_notMem_pair first)]
      exact congrArg (pair first :: ·) (ih entry)

/-- Pairs are read back. -/
theorem readPairs_of_reads {line : String} {first : String × String}
    {rest : List (String × String)} (h : Reads line (pair first ++ pairs rest)) :
    readPairs line.toList = some (first :: rest) := by
  have hall : ∀ entries : List (String × String),
      (entries.map pair).mapM readPair = some entries := by
    intro entries
    induction entries with
    | nil => rfl
    | cons entry entries ih => simp [readPair_pair, ih]
  rw [readPairs, show scan .bare line.toList = _ from h]
  simp only [splitOn_pairs]
  exact hall (first :: rest)

/-! ## What a line says -/

/-- What can be read from a line. -/
structure Contents where
  time : Option String
  level : Level
  message : String
  attrs : List (String × String)
  deriving DecidableEq

namespace Contents

/-- The contents of the pairs behind the time. -/
def ofPairs (time : Option String) : List (String × String) → Option Contents
  | level :: message :: attrs =>
    if level.1 = "level" ∧ message.1 = "msg" then
      (Level.read level.2).map fun l => ⟨time, l, message.2, attrs⟩
    else none
  | _ => none

/-- What the line of a record has to say. -/
def ofRecord (withTime : Bool) (r : Record) : Contents where
  time := if withTime then r.time.timestamp.toOption else none
  level := r.level
  message := r.message
  attrs := r.attrs.map fun a => (a.key, a.value.text)

end Contents

/-- Reads a line, without the line break. -/
def read (line : List Char) : Option Contents :=
  (readPairs line).bind fun entries =>
    match entries with
    | [] => none
    | first :: rest =>
      if first.1 = "time" then Contents.ofPairs (some first.2) rest
      else Contents.ofPairs none entries

/-! ## Lines are read as they were written -/

theorem reads_attr (qualifier : String) (a : Attr) :
    Reads (attr qualifier a) (.mark ' ' :: pair (qualifier ++ a.key, a.value.text)) := by
  have hblank : Reads " " [.mark ' '] := rfl
  have hequals : Reads "=" [.mark '='] := rfl
  have h := ((hblank.append (reads_word (qualifier ++ a.key))).append hequals).append
    (reads_valueWord a.value)
  simpa [attr, pair] using h

theorem reads_attrs (qualifier : String) (as : List Attr) :
    Reads (attrs qualifier as) (pairs (as.map fun a => (qualifier ++ a.key, a.value.text))) := by
  induction as with
  | nil => rfl
  | cons a rest ih => exact (reads_attr qualifier a).append ih

/-- The line of a record, without its time and the line break. -/
theorem reads_body (r : Record) :
    Reads ("level=" ++ r.level.text ++ " msg=" ++ word r.message ++ attrs "" r.attrs)
      (pair ("level", r.level.text) ++
        pairs (("msg", r.message) :: r.attrs.map fun a => (a.key, a.value.text))) := by
  have hlevel : Reads "level=" (letters "level" ++ [.mark '=']) := rfl
  have hmessage : Reads " msg=" (.mark ' ' :: letters "msg" ++ [.mark '=']) := rfl
  have h := (((hlevel.append (reads_plain (plain_level r.level))).append hmessage).append
    (reads_word r.message)).append (reads_attrs "" r.attrs)
  simpa [pair, pairs] using h

theorem ofPairs_ofRecord (time : Option String) (r : Record) :
    Contents.ofPairs time (("level", r.level.text) :: ("msg", r.message) ::
        r.attrs.map fun a => (a.key, a.value.text)) =
      some { Contents.ofRecord false r with time := time } := by
  simp [Contents.ofPairs, Level.read_text, Contents.ofRecord]

/-- **A line is read as its record.** It has one line break, at its end. -/
theorem read_write {withTime : Bool} {r : Record} {line : String}
    (h : write withTime "" "" r = .ok line) :
    ∃ front, line.toList = front ++ ['\n'] ∧ '\n' ∉ front ∧
      read front = some (.ofRecord withTime r) := by
  have hbody := reads_body r
  cases withTime with
  | false =>
      obtain rfl : body "" "" r = line := Except.ok.inj h
      refine ⟨_, ?_, newline_notMem_of_scan hbody, ?_⟩
      · simp [body]
      · rw [read, readPairs_of_reads hbody]
        exact ofPairs_ofRecord none r
  | true =>
      cases htime : r.time.timestamp with
      | error e => simp [write, htime, Except.map] at h
      | ok time =>
          have hwhole : Reads ("time=" ++ time ++ " " ++
              ("level=" ++ r.level.text ++ " msg=" ++ word r.message ++ attrs "" r.attrs))
              (pair ("time", time) ++ pairs (("level", r.level.text) :: ("msg", r.message) ::
                r.attrs.map fun a => (a.key, a.value.text))) := by
            have hkey : Reads "time=" (letters "time" ++ [.mark '=']) := rfl
            have hblank : Reads " " [.mark ' '] := rfl
            have hall := ((hkey.append (reads_plain (plain_timestamp htime))).append hblank).append
              hbody
            simpa [pair, pairs] using hall
          obtain rfl : "time=" ++ time ++ " " ++ body "" "" r = line := by
            rw [write, if_pos rfl, htime] at h
            exact Except.ok.inj h
          refine ⟨_, ?_, newline_notMem_of_scan hwhole, ?_⟩
          · simp [body]
          · rw [read, readPairs_of_reads hwhole]
            simp [ofPairs_ofRecord, Contents.ofRecord, htime, Except.toOption]

example : read "level=WARN msg=\"a b\" g.k=\"x=\\ny\" n=-1".toList =
    some ⟨none, .warn, "a b", [("g.k", "x=\ny"), ("n", "-1")]⟩ := by
  decide +kernel

end Line

end LogAdmission
