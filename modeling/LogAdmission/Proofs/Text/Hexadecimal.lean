import LogAdmission.Text.Numeral
import Mathlib.Data.List.Induction
import Mathlib.Data.Nat.Digits.Defs
import Mathlib.Tactic.IntervalCases

/-!
# Hexadecimal digits

Writing a number in hexadecimal digits and reading it back. A field of a fixed width is read
exactly if it is what the number is written as (`readHexField_eq_some_iff`), and the number is
the value of the digits at their places (`readHexField_eq_some_iff_value`).
-/

namespace LogAdmission.Numeral

/-- The lowercase hexadecimal digits in the order of their values. -/
def hexAlphabet : List Char :=
  ['0', '1', '2', '3', '4', '5', '6', '7', '8', '9', 'a', 'b', 'c', 'd', 'e', 'f']

/-- A field of exactly `width` lowercase hexadecimal digits. -/
def IsHexField (width : Nat) (field : List Char) : Prop :=
  field.length = width ∧ ∀ c ∈ field, c ∈ hexAlphabet

/-- The value of hexadecimal digits, the last of which stands for the ones. -/
def placeValue (field : List Char) : Nat :=
  Nat.ofDigits 16 (field.reverse.map fun c => hexAlphabet.idxOf c)

theorem placeValue_append_singleton (field : List Char) (c : Char) :
    placeValue (field ++ [c]) = 16 * placeValue field + hexAlphabet.idxOf c := by
  simp [placeValue, Nat.ofDigits_cons, Nat.add_comm]

/-! ## One digit -/

theorem hexValue?_digitChar {d : Nat} (h : d < 16) : hexValue? (Nat.digitChar d) = some d := by
  interval_cases d <;> rfl

theorem hexValue?_of_mem {c : Char} (h : c ∈ hexAlphabet) :
    hexValue? c = some (hexAlphabet.idxOf c) := by
  have hall : hexAlphabet.all (fun d => hexValue? d = some (hexAlphabet.idxOf d)) = true := by
    decide
  exact of_decide_eq_true (List.all_eq_true.mp hall c h)

/-- Characters from `low` on, up to `count` of them. -/
theorem exists_ofNat_of_le {low c : Char} {count : Nat} (hlow : low ≤ c)
    (hhigh : c.toNat < low.toNat + count) : ∃ d < count, c = Char.ofNat (low.toNat + d) := by
  have hle : low.toNat ≤ c.toNat := hlow
  refine ⟨c.toNat - low.toNat, by omega, ?_⟩
  rw [Nat.add_sub_cancel' hle, Char.ofNat_toNat]

/-- A character with a value is the digit of that value. -/
theorem digitChar_of_hexValue? {c : Char} {d : Nat} (h : hexValue? c = some d) :
    d < 16 ∧ c = Nat.digitChar d := by
  unfold hexValue? at h
  split at h
  · rename_i hdigit
    obtain ⟨k, hk, rfl⟩ : ∃ k < 10, c = Char.ofNat ('0'.toNat + k) :=
      exists_ofNat_of_le hdigit.1 (Nat.lt_succ_of_le hdigit.2)
    interval_cases k <;> cases h <;> exact ⟨by decide, rfl⟩
  · split at h
    · rename_i hletter
      obtain ⟨k, hk, rfl⟩ : ∃ k < 6, c = Char.ofNat ('a'.toNat + k) :=
        exists_ofNat_of_le hletter.1 (Nat.lt_succ_of_le hletter.2)
      interval_cases k <;> cases h <;> exact ⟨by decide, rfl⟩
    · cases h

theorem digitChar_mem {d : Nat} (h : d < 16) : Nat.digitChar d ∈ hexAlphabet := by
  interval_cases d <;> decide

theorem hexValue?_eq_some_iff {c : Char} {d : Nat} :
    hexValue? c = some d ↔ c ∈ hexAlphabet ∧ d = hexAlphabet.idxOf c := by
  constructor
  · intro h
    obtain ⟨hd, rfl⟩ := digitChar_of_hexValue? h
    have hmem := digitChar_mem hd
    rw [hexValue?_of_mem hmem] at h
    exact ⟨hmem, (Option.some.inj h).symm⟩
  · rintro ⟨hmem, rfl⟩
    exact hexValue?_of_mem hmem

/-! ## Digits in a row -/

theorem readHexFrom_append (value : Nat) (field rest : List Char) :
    readHexFrom value (field ++ rest) =
      (readHexFrom value field).bind fun n => readHexFrom n rest := by
  induction field generalizing value with
  | nil => rfl
  | cons c field ih =>
      rw [List.cons_append, readHexFrom, readHexFrom, Option.bind_assoc]
      congr 1
      funext d
      exact ih _

/-- The last digit stands for the ones. -/
theorem readHexFrom_append_singleton_eq_some_iff {value n : Nat} {field : List Char} {c : Char} :
    readHexFrom value (field ++ [c]) = some n ↔
      ∃ m d, readHexFrom value field = some m ∧ hexValue? c = some d ∧ n = 16 * m + d := by
  simp only [readHexFrom_append, readHexFrom, Option.bind_eq_some_iff, Option.some.injEq]
  constructor
  · rintro ⟨m, hm, d, hd, rfl⟩
    exact ⟨m, d, hm, hd, rfl⟩
  · rintro ⟨m, d, hm, hd, rfl⟩
    exact ⟨m, hm, d, hd, rfl⟩

theorem readHexFrom_eq_some_iff_value {field : List Char} {n : Nat} :
    readHexFrom 0 field = some n ↔ (∀ c ∈ field, c ∈ hexAlphabet) ∧ n = placeValue field := by
  induction field using List.reverseRecOn generalizing n with
  | nil => simp [readHexFrom, placeValue, eq_comm]
  | append_singleton field c ih =>
      rw [readHexFrom_append_singleton_eq_some_iff, placeValue_append_singleton]
      simp only [ih, hexValue?_eq_some_iff, List.mem_append, List.mem_singleton]
      constructor
      · rintro ⟨m, d, ⟨hfield, rfl⟩, ⟨hc, rfl⟩, rfl⟩
        refine ⟨?_, rfl⟩
        rintro x (hx | rfl)
        · exact hfield x hx
        · exact hc
      · rintro ⟨hall, rfl⟩
        exact ⟨_, _, ⟨fun x hx => hall x (.inl hx), rfl⟩, ⟨hall c (.inr rfl), rfl⟩, rfl⟩

/-- Digits without leading zeros read back. -/
theorem readHexFrom_hexDigits (n : Nat) : readHexFrom 0 (hexDigits n) = some n := by
  induction n using Nat.strongRecOn with
  | ind n ih =>
      rw [hexDigits, Nat.toDigits_eq_if (by decide)]
      split
      · rename_i hsmall
        simp [readHexFrom, hexValue?_digitChar hsmall]
      · have hquot := ih (n / 16) (by omega)
        rw [readHexFrom_append_singleton_eq_some_iff]
        exact ⟨n / 16, n % 16, hquot, hexValue?_digitChar (Nat.mod_lt _ (by decide)), by omega⟩

/-! ## Fields -/

@[simp] theorem length_hexField (width n : Nat) : (hexField width n).length = width := by
  induction width generalizing n with
  | zero => rfl
  | succ width ih => simp [hexField, ih]

theorem readHexFrom_hexField {width n : Nat} (h : n < 16 ^ width) :
    readHexFrom 0 (hexField width n) = some n := by
  induction width generalizing n with
  | zero =>
      obtain rfl : n = 0 := by simpa using h
      rfl
  | succ width ih =>
      rw [Nat.pow_succ] at h
      have hquot : readHexFrom 0 (hexField width (n / 16)) = some (n / 16) := ih (by omega)
      rw [hexField, readHexFrom_append_singleton_eq_some_iff]
      exact ⟨n / 16, n % 16, hquot, hexValue?_digitChar (Nat.mod_lt _ (by decide)), by omega⟩

/-- Digits that have been read are those that the number is written in. -/
theorem hexField_of_readHexFrom {field : List Char} {n : Nat} (h : readHexFrom 0 field = some n) :
    n < 16 ^ field.length ∧ hexField field.length n = field := by
  induction field using List.reverseRecOn generalizing n with
  | nil =>
      obtain rfl : 0 = n := Option.some.inj h
      exact ⟨Nat.one_pos, rfl⟩
  | append_singleton field c ih =>
      obtain ⟨m, d, hm, hd, rfl⟩ := readHexFrom_append_singleton_eq_some_iff.mp h
      obtain ⟨hlt, hfield⟩ := ih hm
      obtain ⟨hd, rfl⟩ := digitChar_of_hexValue? hd
      have hquot : (16 * m + d) / 16 = m := by omega
      have hrest : (16 * m + d) % 16 = d := by omega
      rw [List.length_append, List.length_singleton, Nat.pow_succ, hexField, hquot, hrest, hfield]
      exact ⟨by omega, rfl⟩

/-- **A field is read exactly if it is written.** -/
theorem readHexField_eq_some_iff {width n : Nat} {field : List Char} :
    readHexField width field = some n ↔ n < 16 ^ width ∧ field = hexField width n := by
  unfold readHexField
  constructor
  · intro h
    split at h
    · rename_i hlen
      obtain ⟨hlt, hfield⟩ := hexField_of_readHexFrom h
      rw [hlen] at hlt hfield
      exact ⟨hlt, hfield.symm⟩
    · cases h
  · rintro ⟨hlt, rfl⟩
    rw [if_pos (length_hexField width n), readHexFrom_hexField hlt]

/-- A field is read if and only if it is one, and as the value of its digits. -/
theorem readHexField_eq_some_iff_value {width n : Nat} {field : List Char} :
    readHexField width field = some n ↔ IsHexField width field ∧ n = placeValue field := by
  unfold readHexField IsHexField
  split
  · rename_i hlen
    simp [readHexFrom_eq_some_iff_value, hlen]
  · rename_i hlen
    simp [hlen]

theorem hexField_zero (width : Nat) : hexField width 0 = List.replicate width '0' := by
  induction width with
  | zero => rfl
  | succ width ih =>
      rw [hexField, Nat.zero_div, ih, List.replicate_succ']
      rfl

/-- Only zeros have the value zero. -/
theorem placeValue_eq_zero_iff {width : Nat} {field : List Char} (h : IsHexField width field) :
    placeValue field = 0 ↔ field = List.replicate width '0' := by
  have hread : readHexField width field = some (placeValue field) :=
    readHexField_eq_some_iff_value.mpr ⟨h, rfl⟩
  rw [← hexField_zero]
  constructor
  · intro hzero
    rw [hzero] at hread
    exact (readHexField_eq_some_iff.mp hread).2
  · rintro rfl
    have hzero : readHexField width (hexField width 0) = some 0 :=
      readHexField_eq_some_iff.mpr ⟨Nat.pow_pos (by decide), rfl⟩
    exact Option.some.inj (hread.symm.trans hzero)

/-- What is written is a field. -/
theorem isHexField_hexField {width n : Nat} (h : n < 16 ^ width) :
    IsHexField width (hexField width n) ∧ placeValue (hexField width n) = n := by
  have hread : readHexField width (hexField width n) = some n :=
    readHexField_eq_some_iff.mpr ⟨h, rfl⟩
  obtain ⟨hfield, hvalue⟩ := readHexField_eq_some_iff_value.mp hread
  exact ⟨hfield, hvalue.symm⟩

end LogAdmission.Numeral
