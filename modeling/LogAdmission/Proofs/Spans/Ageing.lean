import LogAdmission.Proofs.Spans.Ascent

/-!
# Ageing

Most of what happens to the spans of a registry only lets them age (`Registry.Ages`): they are
held more or less often, or close for good. What a registry remembers (`Registry.Remembers`),
on every open span the context that was attached to it last, it remembers while its spans age;
only an attachment changes that, for its own span.
-/

namespace LogAdmission

/-- What may become of a span: it stays as it is, but for its place and how often it is held,
or it has closed. -/
inductive Span.Kept (s s' : Span) : Prop where
  | held (isOpen : s'.isOpen = s.isOpen) (parent : s'.parent = s.parent)
      (attached : s'.attached = s.attached)
  | closed (isOpen : s'.isOpen = false) (parent : s'.parent = none) (attached : s'.attached = none)

theorem Span.Kept.trans {s s' s'' : Span} (h : s.Kept s') (h' : s'.Kept s'') : s.Kept s'' := by
  cases h' with
  | closed isOpen parent attached => exact .closed isOpen parent attached
  | held isOpen' parent' attached' =>
      cases h with
      | held isOpen parent attached =>
          exact .held (isOpen'.trans isOpen) (parent'.trans parent) (attached'.trans attached)
      | closed isOpen parent attached =>
          exact .closed (isOpen'.trans isOpen) (parent'.trans parent) (attached'.trans attached)

namespace Registry

variable {g g' g'' : Registry} {n : Nat} {s : Span}

/-- What may become of a registry without new spans and new attachments. -/
structure Ages (g g' : Registry) : Prop where
  length_eq : g'.spans.length = g.spans.length
  kept : ∀ {n s'}, spanAt? g'.spans n = some s' → ∃ s, spanAt? g.spans n = some s ∧ s.Kept s'

namespace Ages

theorem of_spans_eq (h : g'.spans = g.spans) : g.Ages g' where
  length_eq := congrArg List.length h
  kept := fun {_ s'} hs => ⟨s', h ▸ hs, .held rfl rfl rfl⟩

theorem trans (h : g.Ages g') (h' : g'.Ages g'') : g.Ages g'' where
  length_eq := h'.length_eq.trans h.length_eq
  kept := by
    intro n s'' hs''
    obtain ⟨s', hs', hkept'⟩ := h'.kept hs''
    obtain ⟨s, hs, hkept⟩ := h.kept hs'
    exact ⟨s, hs, hkept.trans hkept'⟩

theorem change {f : Span → Span} (h : ∀ s, spanAt? g.spans n = some s → s.Kept (f s)) :
    g.Ages (g.change n f) where
  length_eq := length_changeSpan f g.spans n
  kept := by
    intro m s' hs'
    rcases spanAt?_changeSpan_eq_some hs' with ⟨s, rfl, hs, rfl⟩ | ⟨-, hs⟩
    · exact ⟨s, hs, h s hs⟩
    · exact ⟨s', hs, .held rfl rfl rfl⟩

theorem hold (h : g.openSpan? n = some s) : g.Ages (g.hold n) := by
  obtain ⟨hs, hopen⟩ := openSpan?_eq_some_iff.mp h
  refine change fun s' hs' => ?_
  obtain rfl := Option.some.inj (hs.symm.trans hs')
  exact .held ((decide_eq_true (Nat.succ_pos _)).trans hopen.symm) rfl rfl

theorem loosen (g : Registry) (n : Nat) : g.Ages (g.loosen n).2 := by
  unfold Registry.loosen
  split
  · exact of_spans_eq rfl
  · next s hs =>
      obtain ⟨hspan, hopen⟩ := openSpan?_eq_some_iff.mp hs
      split
      · next hmany =>
          refine change fun s' hs' => ?_
          obtain rfl := Option.some.inj (hspan.symm.trans hs')
          exact .held ((decide_eq_true (Nat.sub_pos_of_lt hmany)).trans hopen.symm) rfl rfl
      · exact change fun _ _ => .closed rfl rfl rfl

/-- The spans above one that closes age with it. -/
theorem release (g : Registry) (n : Nat) : g.Ages (g.release n).2 := by
  fun_induction g.release n with
  | case1 g n g' h => simpa [h] using loosen g n
  | case2 g n g' h => simpa [h] using loosen g n
  | case3 g n place g' h =>
      have hloosened : g.Ages g' := by simpa [h] using loosen g n
      exact hloosened.trans (of_spans_eq rfl)
  | case4 g n place parent g' h hlt g'' hr ih =>
      have hloosened : g.Ages g' := by simpa [h] using loosen g n
      have hreleased : g'.Ages g'' := by simpa [hr] using ih
      exact (hloosened.trans hreleased).trans (of_spans_eq rfl)
  | case5 g n place parent g' h hlt g'' hr ih =>
      have hloosened : g.Ages g' := by simpa [h] using loosen g n
      have hreleased : g'.Ages g'' := by simpa [hr] using ih
      exact hloosened.trans hreleased
  | case6 g n place parent g' h hle => simpa [h] using loosen g n

theorem grown (h : g.Ages g') (hg : g.Grown) : g'.Grown where
  parent_lt := by
    intro n s' hs' p hp
    obtain ⟨s, hs, hkept⟩ := h.kept hs'
    cases hkept with
    | held _ parent _ => exact hg.parent_lt hs p (parent ▸ hp)
    | closed _ parent _ => simp [parent] at hp
  of_closed := by
    intro n s' hs' hclosed
    obtain ⟨s, hs, hkept⟩ := h.kept hs'
    cases hkept with
    | held isOpen parent attached =>
        obtain ⟨hparent, hattached⟩ := hg.of_closed hs (isOpen.symm.trans hclosed)
        exact ⟨parent.trans hparent, attached.trans hattached⟩
    | closed _ parent attached => exact ⟨parent, attached⟩

/-- An open span was open before, with the same context. -/
theorem attached_eq {s' : Span} (h : g.Ages g') (hs' : g'.openSpan? n = some s') :
    ∃ s, g.openSpan? n = some s ∧ s'.attached = s.attached := by
  obtain ⟨hspan', hopen'⟩ := openSpan?_eq_some_iff.mp hs'
  obtain ⟨s, hspan, hkept⟩ := h.kept hspan'
  cases hkept with
  | held isOpen _ attached =>
      exact ⟨s, openSpan?_eq_some_iff.mpr ⟨hspan, isOpen.symm.trans hopen'⟩, attached⟩
  | closed isOpen _ _ => simp [isOpen] at hopen'

end Ages

theorem spans_takePlace (g : Registry) : g.takePlace.2.spans = g.spans := by
  unfold takePlace
  split <;> rfl

/-- A new span is put in front of the others, of which its parent is held once more. -/
theorem spans_create (g : Registry) (parent : Option Nat) :
    ∃ place, (g.create parent).2.spans =
      ⟨place, parent, none, 1⟩ :: (parent.elim g g.hold).spans := by
  cases parent with
  | none => exact ⟨g.takePlace.1, congrArg _ g.spans_takePlace⟩
  | some p => exact ⟨(g.hold p).takePlace.1, congrArg _ (g.hold p).spans_takePlace⟩

/-! ## What a registry remembers -/

/-- A registry has on every open span the context that was attached to it last, if any. -/
structure Remembers (g : Registry) (last : Nat → Option Context) : Prop where
  grown : g.Grown
  attached_eq : ∀ {n s}, g.openSpan? n = some s → s.attached = last n
  eq_none : ∀ {n}, g.spans.length ≤ n → last n = none

namespace Remembers

variable {last : Nat → Option Context}

theorem empty : ({} : Registry).Remembers fun _ => none where
  grown := { parent_lt := nofun, of_closed := nofun }
  attached_eq := nofun
  eq_none := fun _ => rfl

theorem ages (h : g.Remembers last) (hages : g.Ages g') : g'.Remembers last where
  grown := hages.grown h.grown
  attached_eq := by
    intro n s' hs'
    obtain ⟨s, hs, hattached⟩ := hages.attached_eq hs'
    exact hattached.trans (h.attached_eq hs)
  eq_none := fun hle => h.eq_none (hages.length_eq ▸ hle)

/-- A new span has no context yet, and its number has not been used. -/
theorem push (h : g.Remembers last) {place : Place} {parent : Option Nat}
    (hparent : ∀ p ∈ parent, p < g.spans.length)
    (hspans : g'.spans = ⟨place, parent, none, 1⟩ :: g.spans) : g'.Remembers last where
  grown := by
    refine { parent_lt := fun {n s} hs => ?_, of_closed := fun {n s} hs hclosed => ?_ }
    · rw [hspans, spanAt?] at hs
      split at hs
      · next hn =>
          cases hs
          exact hn ▸ hparent
      · exact h.grown.parent_lt hs
    · rw [hspans, spanAt?] at hs
      split at hs
      · cases hs
        simp [Span.isOpen] at hclosed
      · exact h.grown.of_closed hs hclosed
  attached_eq := by
    intro n s hs
    obtain ⟨hspan, hopen⟩ := openSpan?_eq_some_iff.mp hs
    rw [hspans, spanAt?] at hspan
    split at hspan
    · next hn =>
        cases hspan
        exact (h.eq_none (Nat.le_of_eq hn.symm)).symm
    · exact h.attached_eq (openSpan?_eq_some_iff.mpr ⟨hspan, hopen⟩)
  eq_none := by
    intro n hle
    rw [hspans, List.length_cons] at hle
    exact h.eq_none (Nat.le_of_succ_le hle)

theorem create (h : g.Remembers last) {parent : Option Nat}
    (hparent : ∀ p ∈ parent, ∃ s, g.openSpan? p = some s) :
    (g.create parent).2.Remembers last := by
  obtain ⟨place, hspans⟩ := g.spans_create parent
  have hages : g.Ages (parent.elim g g.hold) := by
    cases parent with
    | none => exact .of_spans_eq rfl
    | some p =>
        obtain ⟨s, hs⟩ := hparent p rfl
        exact .hold hs
  refine (h.ages hages).push (fun p hp => ?_) hspans
  obtain ⟨s, hs⟩ := hparent p hp
  rw [hages.length_eq]
  exact lt_length_of_spanAt? (openSpan?_eq_some_iff.mp hs).1

/-- An attachment changes what is remembered of its own span. -/
theorem attach (h : g.Remembers last) (hs : g.openSpan? n = some s) (cx : Context)
    {last' : Nat → Option Context} (hself : last' n = some cx)
    (hother : ∀ m, m ≠ n → last' m = last m) : (g.attach n cx).2.Remembers last' := by
  obtain ⟨hspan, hopen⟩ := openSpan?_eq_some_iff.mp hs
  have hlt := lt_length_of_spanAt? hspan
  rw [attach_of_isOpen hs]
  have hat : ∀ {m s'}, spanAt? (g.change n fun s => { s with attached := some cx }).spans m =
      some s' → (m = n ∧ s' = { s with attached := some cx }) ∨
        (m ≠ n ∧ spanAt? g.spans m = some s') := by
    intro m s' hs'
    rcases spanAt?_changeSpan_eq_some hs' with ⟨before, rfl, hbefore, rfl⟩ | hother
    · obtain rfl := Option.some.inj (hspan.symm.trans hbefore)
      exact .inl ⟨rfl, rfl⟩
    · exact .inr hother
  refine { grown := { parent_lt := ?_, of_closed := ?_ }, attached_eq := ?_, eq_none := ?_ }
  · intro m s' hs'
    rcases hat hs' with ⟨rfl, rfl⟩ | ⟨-, hbefore⟩
    · intro p hp
      exact h.grown.parent_lt hspan p hp
    · exact h.grown.parent_lt hbefore
  · intro m s' hs' hclosed
    rcases hat hs' with ⟨rfl, rfl⟩ | ⟨-, hbefore⟩
    · exact absurd (hopen.symm.trans hclosed) (by decide)
    · exact h.grown.of_closed hbefore hclosed
  · intro m s' hs'
    obtain ⟨hspan', hopen'⟩ := openSpan?_eq_some_iff.mp hs'
    rcases hat hspan' with ⟨rfl, rfl⟩ | ⟨hm, hbefore⟩
    · exact hself.symm
    · rw [hother m hm]
      exact h.attached_eq (openSpan?_eq_some_iff.mpr ⟨hbefore, hopen'⟩)
  · intro m hle
    simp only [Registry.change, length_changeSpan] at hle
    rw [hother m (by omega)]
    exact h.eq_none hle

/-- The context that holds in a span is the one attached last to the nearest span, from there
upwards, to which any was. -/
theorem nearestAttached_eq (h : g.Remembers last) {start : Option Nat} {chain : List Nat}
    (hchain : g.Ascent start chain) :
    start.bind (nearestAttached g.spans) = chain.findSome? last := by
  rw [hchain.nearestAttached_eq h.grown]
  induction hchain with
  | outside => rfl
  | gone _ => rfl
  | inside hs _ ih =>
      rw [List.findSome?_cons, List.findSome?_cons, ih, hs, Option.bind_some, h.attached_eq hs]

end Remembers

end Registry

end LogAdmission
