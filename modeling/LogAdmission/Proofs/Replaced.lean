/-!
# Lists in which one element is replaced

Callers and buffers are kept in lists, and a step replaces one of them. What this does to the
elements, to what they contribute and to the number of those of a kind.
-/

namespace LogAdmission

variable {β γ : Type} {l : List β} {i j : Nat} {old new x y : β} {kind : β → Bool}

theorem getElem?_replaced (new : β) (hi : l[i]? = some old) : (l.set i new)[i]? = some new := by
  obtain ⟨hlt, -⟩ := List.getElem?_eq_some_iff.mp hi
  exact List.getElem?_set_self hlt

/-- Each element is the new one or one of the others. -/
theorem mem_replaced (h : (l.set i new)[j]? = some x) :
    (j = i ∧ x = new) ∨ (j ≠ i ∧ l[j]? = some x) := by
  by_cases hij : i = j
  · subst hij
    have hlt : i < l.length := by
      have hlen := (List.getElem?_eq_some_iff.mp h).1
      rwa [List.length_set] at hlen
    rw [List.getElem?_set_self hlt] at h
    exact .inl ⟨rfl, (Option.some.inj h).symm⟩
  · rw [List.getElem?_set_ne hij] at h
    exact .inr ⟨Ne.symm hij, h⟩

/-- What the elements contribute. -/
theorem flatMap_replaced (f : β → List γ) (new : β) (h : l[i]? = some old) :
    (f old ++ (l.set i new).flatMap f).Perm (f new ++ l.flatMap f) := by
  induction l generalizing i with
  | nil => cases h
  | cons x rest ih =>
      cases i with
      | zero =>
          obtain rfl : x = old := Option.some.inj h
          simp only [List.set_cons_zero, List.flatMap_cons, ← List.append_assoc]
          exact List.perm_append_comm.append_right _
      | succ i =>
          have hrest := ih (i := i) h
          simp only [List.set_cons_succ, List.flatMap_cons]
          calc
            (f old ++ (f x ++ (rest.set i new).flatMap f)).Perm
                (f x ++ (f old ++ (rest.set i new).flatMap f)) := List.perm_append_comm_assoc ..
            List.Perm _ (f x ++ (f new ++ rest.flatMap f)) := hrest.append_left _
            List.Perm _ (f new ++ (f x ++ rest.flatMap f)) := List.perm_append_comm_assoc ..

theorem countP_replaced (kind : β → Bool) (hi : l[i]? = some old) (new : β) :
    (l.set i new).countP kind + (if kind old then 1 else 0) =
      l.countP kind + if kind new then 1 else 0 := by
  obtain ⟨hlt, rfl⟩ := List.getElem?_eq_some_iff.mp hi
  have hone : (if kind l[i] then 1 else 0) ≤ l.countP kind := by
    by_cases hk : kind l[i] = true
    · rw [if_pos hk]
      exact List.countP_pos_iff.mpr ⟨_, List.getElem_mem hlt, hk⟩
    · rw [if_neg hk]
      exact Nat.zero_le _
  rw [List.countP_set hlt]
  omega

theorem countP_replaced_same (hi : l[i]? = some old) (hsame : kind new = kind old) :
    (l.set i new).countP kind = l.countP kind := by
  have hset := countP_replaced kind hi new
  rw [hsame] at hset
  omega

/-- If at most one element is of a kind, two elements of it are the same. -/
theorem eq_of_countP_le_one (h : l.countP kind ≤ 1) (hx : x ∈ l) (hy : y ∈ l)
    (hkx : kind x = true) (hky : kind y = true) : x = y := by
  induction l with
  | nil => cases hx
  | cons z rest ih =>
      rw [List.countP_cons] at h
      -- a second one in the rest would be one too many
      have hrest : kind z = true → ∀ w ∈ rest, kind w = false := by
        intro hz w hw
        rw [if_pos hz] at h
        exact Bool.eq_false_iff.mpr (List.countP_eq_zero.mp (by omega) w hw)
      rcases List.mem_cons.mp hx with rfl | hx
      · rcases List.mem_cons.mp hy with rfl | hy
        · rfl
        · exact absurd hky (Bool.eq_false_iff.mp (hrest hkx y hy))
      · rcases List.mem_cons.mp hy with heq | hy
        · exact absurd hkx (Bool.eq_false_iff.mp (hrest (heq ▸ hky) x hx))
        · exact ih (by omega) hx hy

end LogAdmission
