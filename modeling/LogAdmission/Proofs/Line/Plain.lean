import LogAdmission.Proofs.Line.Symbols

/-!
# Texts that need no quotes

Some pieces of a line are written as they are, without a look at what is in them: numbers,
truth values, levels and timestamps. They consist of digits, signs, letters and points, so
nothing in them could be taken for the grammar of the line.
-/

namespace LogAdmission.Line

variable {text back : List Char}

theorem plain_append_iff : Plain (text ++ back) ↔ Plain text ∧ Plain back :=
  List.forall_mem_append

theorem Plain.mono (h : Plain text) (hsub : back ⊆ text) : Plain back :=
  fun c hc => h c (hsub hc)

/-- Zeros at the end are left out of fractions. -/
theorem Plain.dropZeros (h : Plain text) :
    Plain (text.reverse.dropWhile (· = '0')).reverse := by
  refine h.mono ?_
  intro c hc
  rw [List.mem_reverse] at hc
  exact List.mem_reverse.mp (List.dropWhile_subset _ hc)

theorem plain_replicate_zero (n : Nat) : Plain (List.replicate n '0') := by
  intro c hc
  obtain rfl : c = '0' := List.eq_of_mem_replicate hc
  rfl

theorem isDelimiter_of_isDigit {c : Char} (h : c.isDigit = true) : isDelimiter c = false := by
  have hne : ∀ d, d.isDigit = false → c ≠ d := by
    rintro d hd rfl
    rw [h] at hd
    cases hd
  have hrange : 48 ≤ c.toNat ∧ c.toNat ≤ 57 := by
    simpa [Char.isDigit, UInt32.le_iff_toNat_le] using h
  have hcontrol : isControl c = false := by
    simp only [isControl, Bool.or_eq_false_iff, Bool.and_eq_false_iff, decide_eq_false_iff_not]
    omega
  simp [isDelimiter, hcontrol, hne ' ' rfl, hne '=' rfl, hne '"' rfl]

/-! ## Numerals -/

theorem plain_toDigits (n : Nat) : Plain (Nat.toDigits 10 n) := by
  intro c hc
  exact isDelimiter_of_isDigit (Nat.isDigit_of_mem_toDigits (by decide) (by decide) hc)

theorem plain_ofNat (n : Nat) : Plain (Numeral.ofNat n).toList := by
  rw [Numeral.ofNat, String.toList_ofList]
  exact plain_toDigits n

theorem plain_ofInt (n : Int) : Plain (Numeral.ofInt n).toList := by
  cases n with
  | ofNat n => exact plain_ofNat n
  | negSucc n =>
      rw [Numeral.ofInt, String.toList_append, plain_append_iff]
      exact ⟨by decide, plain_ofNat (n + 1)⟩

theorem plain_signed (n : Int) : Plain (Numeral.signed n).toList := by
  cases n with
  | ofNat n =>
      rw [Numeral.signed, String.toList_append, plain_append_iff]
      exact ⟨by decide, plain_ofNat n⟩
  | negSucc n =>
      rw [Numeral.signed, String.toList_append, plain_append_iff]
      exact ⟨by decide, plain_ofNat (n + 1)⟩

theorem plain_padded (width n : Nat) : Plain (Numeral.padded width n).toList := by
  rw [Numeral.padded, String.toList_ofList, plain_append_iff]
  exact ⟨plain_replicate_zero _, plain_toDigits n⟩

/-! ## Doubles -/

theorem plain_ofScaled (coefficient : Nat) (scale : Int) :
    Plain (Decimal.ofScaled coefficient scale).digits :=
  (plain_toDigits coefficient).dropZeros

theorem plain_onGrid {n : Double.Neighbourhood} {scale : Int} {d : Decimal}
    (h : n.onGrid scale = some d) : Plain d.digits := by
  -- every hit is some coefficient on the grid
  have hscaled : ∃ coefficient, d = .ofScaled coefficient scale := by
    unfold Double.Neighbourhood.onGrid at h
    split at h
    simp only at h
    split at h
    · exact ⟨_, (Option.some.inj h).symm⟩
    split at h
    · exact ⟨_, (Option.some.inj h).symm⟩
    split at h
    · exact ⟨_, (Option.some.inj h).symm⟩
    split at h
    · exact ⟨_, (Option.some.inj h).symm⟩
    · cases h
  obtain ⟨coefficient, rfl⟩ := hscaled
  exact plain_ofScaled coefficient scale

theorem plain_search {n : Double.Neighbourhood} {used count : Nat} {d : Decimal}
    (h : n.search used count = some d) : Plain d.digits := by
  induction count generalizing used with
  | zero => cases h
  | succ count ih =>
      rw [Double.Neighbourhood.search] at h
      split at h
      · rename_i found hgrid
        obtain rfl : found = d := Option.some.inj h
        exact plain_onGrid hgrid
      · exact ih h

theorem plain_shortest (x : Double) : Plain x.shortest.digits := by
  rw [Double.shortest]
  cases hsearch : x.neighbourhood.search 1 17 with
  | none => exact List.forall_mem_nil _
  | some d => exact plain_search hsearch

theorem plain_writePositional {d : Decimal} (h : Plain d.digits) :
    Plain (Double.plain.writePositional d).toList := by
  unfold Double.Layout.writePositional
  split
  · simp only [String.toList_append, String.toList_ofList, plain_append_iff]
    exact ⟨by decide, plain_replicate_zero _, h⟩
  · simp only [String.toList_append, String.toList_ofList, plain_append_iff]
    exact ⟨by decide, h⟩
  · split
    · simp only [String.toList_append, String.toList_ofList, plain_append_iff]
      exact ⟨⟨h, plain_replicate_zero _⟩, by decide⟩
    · simp only [String.toList_append, String.toList_ofList, plain_append_iff]
      exact ⟨⟨h.mono (List.take_subset _ _), by decide⟩, h.mono (List.drop_subset _ _)⟩

theorem plain_double (x : Double) : Plain (Double.plain.write x).toList := by
  unfold Double.Layout.write
  split
  · decide
  · rw [String.toList_append, plain_append_iff]
    constructor
    · split <;> decide
    · split
      · decide
      split
      · decide
      · exact plain_writePositional (plain_shortest x)

/-! ## Values, levels and times -/

/-- **A written value is read as the letters of its text.** Only texts are ever quoted. -/
theorem reads_valueWord (v : Value) : Reads (valueWord v) (letters v.text) := by
  cases v with
  | str s => exact reads_word s
  | int n => exact reads_plain (plain_ofInt n.toInt)
  | uint n => exact reads_plain (plain_ofNat n.toNat)
  | double x => exact reads_plain (plain_double x)
  | bool b => exact reads_plain (show Plain (Value.boolText b).toList by cases b <;> decide)

theorem plain_level (l : Level) : Plain l.text.toList := by
  have hname : Plain l.base.1.toList := by
    unfold Level.base
    repeat' split
    all_goals decide
  rw [Level.text, String.toList_append, plain_append_iff]
  refine ⟨hname, ?_⟩
  split
  · decide
  · exact plain_signed _

theorem plain_fractionText (nanos : Nat) : Plain (Instant.fractionText nanos).toList := by
  unfold Instant.fractionText
  split
  · decide
  · simp only [String.toList_append, String.toList_ofList, plain_append_iff]
    exact ⟨by decide, (plain_padded 9 nanos).dropZeros⟩

theorem plain_timestamp {t : Instant} {time : String} (h : t.timestamp = .ok time) :
    Plain time.toList := by
  unfold Instant.timestamp at h
  simp only at h
  split at h
  · cases h
  split at h
  · cases h
  · obtain rfl := Except.ok.inj h
    simp only [String.toList_append, plain_append_iff, plain_padded, plain_fractionText, true_and,
      and_true]
    decide

end LogAdmission.Line
