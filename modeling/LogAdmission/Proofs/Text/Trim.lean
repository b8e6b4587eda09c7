import LogAdmission.Text.Blank

/-!
# Text without its blank ends

What is left of a text without the blank characters at its ends, told without a program, and
that `trim` leaves just this.
-/

namespace LogAdmission.Text

/-- `text` is `full` without the blank characters at both ends. -/
structure Trimmed (full text : List Char) : Prop where
  blank_around : ∃ before after, full = before ++ text ++ after ∧
    (∀ c ∈ before, isBlank c = true) ∧ ∀ c ∈ after, isBlank c = true
  first : ∀ c, text.head? = some c → isBlank c = false
  last : ∀ c, text.getLast? = some c → isBlank c = false

theorem dropWhile_of_head? {text : List Char} (h : ∀ c, text.head? = some c → isBlank c = false) :
    text.dropWhile isBlank = text := by
  cases text with
  | nil => rfl
  | cons c rest => simp [h c rfl]

theorem head?_dropWhile {text : List Char} {c : Char}
    (h : (text.dropWhile isBlank).head? = some c) : isBlank c = false := by
  have hnot := List.head?_dropWhile_not isBlank text
  rw [h] at hnot
  simpa using hnot

theorem isBlank_of_mem_takeWhile {text : List Char} {c : Char}
    (h : c ∈ text.takeWhile isBlank) : isBlank c = true :=
  List.all_eq_true.mp List.all_takeWhile c h

theorem trimmed_trim (full : List Char) : Trimmed full (trim full) := by
  let after := ((full.dropWhile isBlank).reverse.takeWhile isBlank).reverse
  have hrest : trim full ++ after = full.dropWhile isBlank := by
    rw [trim, ← List.reverse_append, List.takeWhile_append_dropWhile, List.reverse_reverse]
  have hfull : full = full.takeWhile isBlank ++ trim full ++ after := by
    rw [List.append_assoc, hrest, List.takeWhile_append_dropWhile]
  refine ⟨⟨_, after, hfull, fun c => isBlank_of_mem_takeWhile, ?_⟩, ?_, ?_⟩
  · intro c hc
    exact isBlank_of_mem_takeWhile (List.mem_reverse.mp hc)
  · intro c hc
    -- the first character is also the first after the blank ones in front
    have hfirst : (full.dropWhile isBlank).head? = some c := by
      rw [← hrest, List.head?_append, hc]
      rfl
    exact head?_dropWhile hfirst
  · intro c hc
    rw [trim, List.getLast?_reverse] at hc
    exact head?_dropWhile hc

theorem Trimmed.eq_trim {full text : List Char} (h : Trimmed full text) : text = trim full := by
  obtain ⟨before, after, rfl, hbefore, hafter⟩ := h.blank_around
  have hfront :
      (before ++ text ++ after).dropWhile isBlank = (text ++ after).dropWhile isBlank := by
    rw [List.append_assoc, List.dropWhile_append_of_pos hbefore]
  have hback : (text ++ after).reverse.dropWhile isBlank = text.reverse := by
    rw [List.reverse_append,
      List.dropWhile_append_of_pos fun c hc => hafter c (List.mem_reverse.mp hc)]
    apply dropWhile_of_head?
    intro c hc
    rw [List.head?_reverse] at hc
    exact h.last c hc
  cases text with
  | nil =>
      have hnone : (after ++ []).dropWhile isBlank = [] := by
        rw [List.dropWhile_append_of_pos hafter]
        rfl
      rw [trim, hfront, List.nil_append, ← List.append_nil after, hnone]
      rfl
  | cons c rest =>
      have hstay : (c :: rest ++ after).dropWhile isBlank = c :: rest ++ after :=
        dropWhile_of_head? fun d hd => h.first d hd
      rw [trim, hfront, hstay, hback, List.reverse_reverse]

end LogAdmission.Text
