/-!
# Cells

Total maps from numbers, changed one cell at a time. State that is shared by
reference is kept in cells, and a reference is the number of its cell.
-/

namespace LogAdmission

/-- One value for every number. -/
abbrev Cells (α : Type) := Nat → α

namespace Cells

/-- The cells with `x` in place `i`. -/
def put {α : Type} (cells : Cells α) (i : Nat) (x : α) : Cells α :=
  fun j => if j = i then x else cells j

@[simp] theorem put_self {α : Type} (cells : Cells α) (i : Nat) (x : α) :
    cells.put i x i = x := by
  simp [put]

@[simp] theorem put_ne {α : Type} (cells : Cells α) {i j : Nat} (x : α) (h : j ≠ i) :
    cells.put i x j = cells j := by
  simp [put, h]

theorem put_read {α : Type} (cells : Cells α) (i : Nat) : cells.put i (cells i) = cells := by
  funext j
  by_cases h : j = i
  · simp [h]
  · simp [h]

theorem put_put {α : Type} (cells : Cells α) (i : Nat) (x y : α) :
    (cells.put i x).put i y = cells.put i y := by
  funext j
  by_cases h : j = i
  · simp [h]
  · simp [h]

theorem put_comm {α : Type} (cells : Cells α) {i j : Nat} (h : i ≠ j) (x y : α) :
    (cells.put i x).put j y = (cells.put j y).put i x := by
  funext k
  by_cases hi : k = i
  · subst hi
    simp [h]
  · by_cases hj : k = j
    · subst hj
      simp [hi]
    · simp [hi, hj]

/-- What holds of the new value of a cell, and of every other cell as before. -/
theorem put_forall {α : Type} {cells : Cells α} {i : Nat} {x : α} {P : Nat → α → Prop}
    (hnew : P i x) (hold : ∀ j, j ≠ i → P j (cells j)) (j : Nat) : P j (cells.put i x j) := by
  by_cases h : j = i
  · rw [h, put_self]
    exact hnew
  · rw [put_ne _ _ h]
    exact hold j h

/-- What the new value of a cell has in common with the old one, all cells keep. -/
theorem put_keeps {α β : Type} (cells : Cells α) {i : Nat} {x : α} (f : α → β)
    (h : f x = f (cells i)) : ∀ j, f (cells.put i x j) = f (cells j) :=
  put_forall (P := fun j y => f y = f (cells j)) h fun _ _ => rfl

end Cells

end LogAdmission
