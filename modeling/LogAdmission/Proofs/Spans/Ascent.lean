import LogAdmission.Spans.Registry

/-!
# Ascents

An event is in the span it belongs to, in the parent of that span, and so on up to a span
without a parent. `Registry.Ascent` tells these spans, the innermost first; there is one such
list for every start (`Ascent.unique`, `Grown.exists_ascent`), and attachments do not change it
(`Alike.attach`, `Alike.ascent`). The context that holds in a span is the first one attached along
its ascent (`Ascent.nearestAttached_eq`).
-/

namespace LogAdmission

/-! ## Spans by number -/

variable {f : Span → Span} {s : Span} {spans : List Span} {n m : Nat}

theorem lt_length_of_spanAt? (h : spanAt? spans n = some s) : n < spans.length := by
  induction spans with
  | nil => cases h
  | cons s' older ih =>
      rw [List.length_cons]
      by_cases hn : n = older.length
      · omega
      · rw [spanAt?, if_neg hn] at h
        exact Nat.lt_succ_of_lt (ih h)

@[simp] theorem length_changeSpan (f : Span → Span) (spans : List Span) (n : Nat) :
    (changeSpan f spans n).length = spans.length := by
  induction spans with
  | nil => rfl
  | cons s older ih =>
      rw [changeSpan]
      split
      · rfl
      · rw [List.length_cons, ih, List.length_cons]

theorem spanAt?_changeSpan_self (f : Span → Span) (spans : List Span) (n : Nat) :
    spanAt? (changeSpan f spans n) n = (spanAt? spans n).map f := by
  induction spans with
  | nil => rfl
  | cons s older ih =>
      by_cases hn : n = older.length
      · simp [changeSpan, spanAt?, hn]
      · simp [changeSpan, spanAt?, hn, ih]

theorem spanAt?_changeSpan_ne (f : Span → Span) (spans : List Span) (hne : m ≠ n) :
    spanAt? (changeSpan f spans n) m = spanAt? spans m := by
  induction spans with
  | nil => rfl
  | cons s older ih =>
      by_cases hn : n = older.length
      · have hm : m ≠ older.length := hn ▸ hne
        simp [changeSpan, spanAt?, hn, hm]
      · simp [changeSpan, spanAt?, hn, ih]

/-- A span after a change: the changed one, or another one as it was. -/
theorem spanAt?_changeSpan_eq_some (h : spanAt? (changeSpan f spans n) m = some s) :
    (∃ before, m = n ∧ spanAt? spans n = some before ∧ s = f before) ∨
      (m ≠ n ∧ spanAt? spans m = some s) := by
  by_cases hm : m = n
  · subst hm
    rw [spanAt?_changeSpan_self, Option.map_eq_some_iff] at h
    obtain ⟨before, hbefore, hs⟩ := h
    exact .inl ⟨before, rfl, hbefore, hs.symm⟩
  · rw [spanAt?_changeSpan_ne f spans hm] at h
    exact .inr ⟨hm, h⟩

theorem spanAt?_of_findOpen? {p : Place} (h : findOpen? spans p = some n) :
    ∃ s, spanAt? spans n = some s ∧ s.isOpen = true := by
  induction spans with
  | nil => cases h
  | cons s older ih =>
      rw [findOpen?] at h
      split at h
      · next hfound =>
          cases h
          exact ⟨s, if_pos rfl, hfound.1⟩
      · obtain ⟨s', hs', hopen⟩ := ih h
        have hne : n ≠ older.length := Nat.ne_of_lt (lt_length_of_spanAt? hs')
        exact ⟨s', (if_neg hne).trans hs', hopen⟩

/-- A change that a search does not see. -/
theorem findOpen?_changeSpan (h : ∀ s, (f s).isOpen = s.isOpen ∧ (f s).place = s.place)
    (spans : List Span) (n : Nat) (p : Place) :
    findOpen? (changeSpan f spans n) p = findOpen? spans p := by
  induction spans with
  | nil => rfl
  | cons s older ih =>
      rw [changeSpan]
      split
      · simp only [findOpen?, h]
      · simp only [findOpen?, ih, length_changeSpan]

/-! ## The nearest attached context -/

/-- Where there is no span, no context is attached. -/
theorem nearestAttached_eq_none (h : spanAt? spans n = none) : nearestAttached spans n = none := by
  induction spans with
  | nil => rfl
  | cons s older ih =>
      rw [spanAt?] at h
      split at h
      · cases h
      · next hn =>
          rw [nearestAttached, if_neg hn]
          exact ih h

/-- The context of a span is its own one, or else that of its parent. -/
theorem nearestAttached_eq (h : spanAt? spans n = some s) (hparent : ∀ p ∈ s.parent, p < n) :
    nearestAttached spans n = s.attached.or (s.parent.bind (nearestAttached spans)) := by
  induction spans with
  | nil => cases h
  | cons s' older ih =>
      -- the parent is not the latest span, so that the search above it does not see that one
      have hle : n ≤ older.length := Nat.lt_succ_iff.mp (lt_length_of_spanAt? h)
      have habove : s.parent.bind (nearestAttached (s' :: older)) =
          s.parent.bind (nearestAttached older) := by
        cases hp : s.parent with
        | none => rfl
        | some p =>
            have hne : p ≠ older.length := Nat.ne_of_lt (Nat.lt_of_lt_of_le (hparent p hp) hle)
            simp only [Option.bind_some, nearestAttached, if_neg hne]
      rw [habove, nearestAttached]
      rw [spanAt?] at h
      split at h
      · next hn =>
          obtain rfl := Option.some.inj h
          rw [if_pos hn]
          cases s'.attached with
          | none => rfl
          | some cx => rfl
      · next hn =>
          rw [if_neg hn]
          exact ih h

namespace Registry

variable {g : Registry}

theorem openSpan?_eq_some_iff :
    g.openSpan? n = some s ↔ spanAt? g.spans n = some s ∧ s.isOpen = true := by
  rw [openSpan?, Option.filter_eq_some_iff]

theorem isOpen_of_findOpen? {p : Place} (h : g.findOpen? p = some n) :
    ∃ s, g.openSpan? n = some s := by
  obtain ⟨s, hs⟩ := spanAt?_of_findOpen? h
  exact ⟨s, openSpan?_eq_some_iff.mpr hs⟩

theorem isOpen_of_current (h : g.current = some n) : ∃ s, g.openSpan? n = some s := by
  rw [current, Option.filter_eq_some_iff] at h
  exact Option.isSome_iff_exists.mp h.2

theorem attach_of_isOpen (h : g.openSpan? n = some s) (cx : Context) :
    g.attach n cx = (true, g.change n fun s => { s with attached := some cx }) := by
  rw [attach, h]

theorem attach_of_not_isOpen (h : g.openSpan? n = none) (cx : Context) :
    g.attach n cx = (false, g) := by
  rw [attach, h]

/-- Every span is younger than its parent, and a closed one has neither parent nor context. -/
structure Grown (g : Registry) : Prop where
  parent_lt : ∀ {n s}, spanAt? g.spans n = some s → ∀ p ∈ s.parent, p < n
  of_closed : ∀ {n s}, spanAt? g.spans n = some s → s.isOpen = false →
    s.parent = none ∧ s.attached = none

/-- The open spans from the given one up to one that has no parent, or whose parent has closed.
There are none outside of all spans. -/
inductive Ascent (g : Registry) : Option Nat → List Nat → Prop where
  | outside : Ascent g none []
  | gone {n : Nat} (h : g.openSpan? n = none) : Ascent g (some n) []
  | inside {n : Nat} {s : Span} {chain : List Nat} (h : g.openSpan? n = some s)
      (above : Ascent g s.parent chain) : Ascent g (some n) (n :: chain)

/-- The parent of a span is told by the registry, so there is only one ascent. -/
theorem Ascent.unique {start : Option Nat} {chain chain' : List Nat}
    (h : g.Ascent start chain) (h' : g.Ascent start chain') : chain = chain' := by
  induction h generalizing chain' with
  | outside =>
      cases h'
      rfl
  | gone hgone =>
      cases h' with
      | gone _ => rfl
      | inside hs _ => simp [hgone] at hs
  | inside hs _ ih =>
      cases h' with
      | gone hgone => simp [hgone] at hs
      | inside hs' above' =>
          obtain rfl := Option.some.inj (hs.symm.trans hs')
          rw [ih above']

/-- Registries that differ in the attached contexts only, as far as events can tell. -/
structure Alike (g g' : Registry) : Prop where
  stack : g'.stack = g.stack
  parent : ∀ n, (g'.openSpan? n).map Span.parent = (g.openSpan? n).map Span.parent
  placeOf? : ∀ n, g'.placeOf? n = g.placeOf? n
  findOpen? : ∀ p, g'.findOpen? p = g.findOpen? p

namespace Alike

variable {g' : Registry}

theorem refl (g : Registry) : g.Alike g where
  stack := rfl
  parent := fun _ => rfl
  placeOf? := fun _ => rfl
  findOpen? := fun _ => rfl

theorem current (h : g.Alike g') : g'.current = g.current := by
  have hopen : ∀ n, (g'.openSpan? n).isSome = (g.openSpan? n).isSome := by
    intro n
    have hparent := congrArg Option.isSome (h.parent n)
    rwa [Option.isSome_map, Option.isSome_map] at hparent
  simp only [Registry.current, h.stack, hopen]

theorem ascent (h : g.Alike g') {start : Option Nat} {chain : List Nat}
    (hchain : g.Ascent start chain) : g'.Ascent start chain := by
  induction hchain with
  | outside => exact .outside
  | @gone n hgone =>
      have hparent := h.parent n
      rw [hgone, Option.map_none, Option.map_eq_none_iff] at hparent
      exact .gone hparent
  | @inside n s chain hs _ ih =>
      have hparent := h.parent n
      rw [hs, Option.map_some, Option.map_eq_some_iff] at hparent
      obtain ⟨s', hs', hsame⟩ := hparent
      exact .inside hs' (hsame ▸ ih)

theorem attach (g : Registry) (n : Nat) (cx : Context) : g.Alike (g.attach n cx).2 := by
  unfold Registry.attach
  split
  · refine
      { stack := rfl, parent := fun m => ?_, placeOf? := fun m => ?_, findOpen? := fun p => ?_ }
    · by_cases hm : m = n
      · subst hm
        simp only [openSpan?, change, spanAt?_changeSpan_self]
        cases spanAt? g.spans m with
        | none => rfl
        | some s =>
            simp only [Option.map_some, Option.filter_some, Span.isOpen]
            split <;> rfl
      · simp only [openSpan?, change, spanAt?_changeSpan_ne _ _ hm]
    · by_cases hm : m = n
      · subst hm
        simp only [Registry.placeOf?, change, spanAt?_changeSpan_self, Option.map_map]
        rfl
      · simp only [Registry.placeOf?, change, spanAt?_changeSpan_ne _ _ hm]
    · refine findOpen?_changeSpan ?_ g.spans n p
      exact fun _ => ⟨rfl, rfl⟩
  · exact refl g

end Alike

/-- The ascent from a span ends, for parents are older. -/
theorem Grown.exists_ascent (hg : g.Grown) (start : Option Nat) :
    ∃ chain, g.Ascent start chain := by
  cases start with
  | none => exact ⟨[], .outside⟩
  | some n =>
      induction n using Nat.strongRecOn with
      | ind n ih =>
          cases hs : g.openSpan? n with
          | none => exact ⟨[], .gone hs⟩
          | some s =>
              cases hp : s.parent with
              | none => exact ⟨[n], .inside hs (hp ▸ .outside)⟩
              | some p =>
                  have hlt := hg.parent_lt (openSpan?_eq_some_iff.mp hs).1 p hp
                  obtain ⟨chain, hchain⟩ := ih p hlt
                  exact ⟨n :: chain, .inside hs (hp ▸ hchain)⟩

/-- The context that holds in a span is the first one attached along the ascent from it. -/
theorem Ascent.nearestAttached_eq {start : Option Nat} {chain : List Nat}
    (h : g.Ascent start chain) (hg : g.Grown) :
    start.bind (nearestAttached g.spans) =
      chain.findSome? fun n => (g.openSpan? n).bind Span.attached := by
  induction h with
  | outside => rfl
  | @gone n hgone =>
      rw [Option.bind_some, List.findSome?_nil]
      cases hs : spanAt? g.spans n with
      | none => exact nearestAttached_eq_none hs
      | some s =>
          have hclosed : s.isOpen = false := by
            cases hopen : s.isOpen with
            | false => rfl
            | true => simp [openSpan?_eq_some_iff.mpr ⟨hs, hopen⟩] at hgone
          obtain ⟨hparent, hattached⟩ := hg.of_closed hs hclosed
          rw [LogAdmission.nearestAttached_eq hs (hg.parent_lt hs), hparent, hattached]
          rfl
  | @inside n s chain hs _ ih =>
      have hspan := (openSpan?_eq_some_iff.mp hs).1
      rw [Option.bind_some, LogAdmission.nearestAttached_eq hspan (hg.parent_lt hspan), ih,
        List.findSome?_cons, hs, Option.bind_some]
      cases s.attached with
      | none => rfl
      | some cx => rfl

end Registry

end LogAdmission
