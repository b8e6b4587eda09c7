import LogAdmission.Proofs.Handler.Frame
import LogAdmission.Proofs.Tenancy.Witness
import LogAdmission.Sink.Endpoint

/-!
# Families of derived chains

Chains that are derived from one root share its counters, its pools and its samplers, and differ
in their sinks only. So it makes no difference to what is let through, held back and given up
which member of the family a call is made of (`family_admits_alike`); it does to the sink that a
record comes to, and that is the one derived by the path of the member, however late the record
comes.
-/

namespace LogAdmission

variable {κ σ : Type}

/-! ## Derived chains -/

/-- The sink derived by adding attributes and group names in turn. -/
def Sink.derive [Sink κ σ] (k : κ) (path : List (List Attr ⊕ String)) : κ :=
  path.foldl (fun k => Sum.elim (Sink.withAttrs k) (Sink.withGroup k)) k

namespace Handler

variable [Sink κ σ]

theorem derive_sink (k : κ) (path : List (List Attr ⊕ String)) :
    (sink k).derive path = sink (Sink.derive k path) := by
  induction path generalizing k with
  | nil => rfl
  | cons d path ih =>
      cases d with
      | inl attrs => exact ih (Sink.withAttrs k attrs)
      | inr name => exact ih (Sink.withGroup k name)

/-- What is derived from a sampling buffer shares its policy, and with it the pool. -/
theorem derive_sampled (policy : Policy σ) (next : Handler κ σ)
    (path : List (List Attr ⊕ String)) :
    (sampled policy next).derive path = sampled policy (next.derive path) := by
  induction path generalizing next with
  | nil => rfl
  | cons d path ih =>
      cases d with
      | inl attrs => exact ih (next.withAttrs attrs)
      | inr name => exact ih (next.withGroup name)

/-- A derivation goes past sharing. -/
theorem derive_shared (next : Handler κ σ) (path : List (List Attr ⊕ String)) :
    (shared next).derive path = shared next ∧ path = [] ∨
      (shared next).derive path = next.derive path := by
  cases path with
  | nil => exact .inl ⟨rfl, rfl⟩
  | cons d path =>
      cases d with
      | inl attrs => exact .inr rfl
      | inr name => exact .inr rfl

/-- **A derived chain is like its root**, except for the sink. -/
theorem alike_derive {alike : σ → σ → Prop} (h : Handler κ σ) (path : List (List Attr ⊕ String))
    (hsamplers : ∀ {w w'}, alike w w' → ∀ view, h.SamplersAgree view w w') :
    Alike (fun k k' => k = Sink.derive h.leaf path ∧ k' = h.leaf) alike (h.derive path) h := by
  induction h with
  | sink k =>
      rw [derive_sink]
      exact .sink ⟨rfl, rfl⟩
  | limited limits table next ih =>
      rw [derive_limited]
      exact .limited limits table (ih hsamplers)
  | sampled policy next ih =>
      rw [derive_sampled]
      refine .sampled ?_ policy.minimum policy.pool (ih fun hw view => (hsamplers hw view).2)
      exact fun _ _ hw view => (hsamplers hw view).1
  | shared next ih =>
      rcases derive_shared next path with ⟨hshared, rfl⟩ | hpast
      · rw [hshared]
        exact .sharedLeft (.sharedRight (ih hsamplers))
      · rw [hpast]
        exact .sharedRight (ih hsamplers)

end Handler

/-- A sink whose derivations all enable the same, and handle records with the same outcome, as
the sink itself would in another world that is alike; and the worlds stay alike. -/
structure Indifferent [Sink κ σ] (alike : σ → σ → Prop) (k : κ) : Prop where
  enabled : ∀ path view level {w w'}, alike w w' →
    Sink.enabled (Sink.derive k path) view level w = Sink.enabled k view level w'
  handle : ∀ path view r {w w'}, alike w w' →
    Agree alike (Sink.handle (Sink.derive k path) view r w) (Sink.handle k view r w')

/-! ## Calls of a family -/

/-- A call of a member of the family, named by its path from the root, or another event. -/
inductive FamilyCall (σ : Type) where
  | openScope (path : List (List Attr ⊕ String)) (stage : Nat) (cx : ScopedContext)
  | handle (path : List (List Attr ⊕ String)) (cx : ScopedContext) (r : Record)
  | enabled (path : List (List Attr ⊕ String)) (cx : ScopedContext) (level : Level)
  | release (lease : Nat)
  | outside (change : σ → σ)

namespace FamilyCall

/-- The call, made of the chain that stands for the member. -/
def through (member : List (List Attr ⊕ String) → Handler κ σ) : FamilyCall σ → ChainCall κ σ
  | openScope path stage cx => .openScope (member path) stage cx
  | handle path cx r => .handle (member path) cx r
  | enabled path cx level => .enabled (member path) cx level
  | release lease => .release lease
  | outside change => .outside change

/-- A change of the outside world that keeps worlds alike. -/
def Keeps (alike : σ → σ → Prop) : FamilyCall σ → Prop
  | outside change => ∀ w w', alike w w' → alike (change w) (change w')
  | _ => True

end FamilyCall

/-- A record arrives at a derived sink as it does at the sink of the root: the number of the call
that it comes from is the same, and in that call the record was logged through a member that is
derived by just the path that leads to the sink. -/
structure Arrival [Sink κ σ] (leaf : κ) (calls : List (FamilyCall σ))
    (x y : SinkCall Nat κ) : Prop where
  mark_eq : x.mark = y.mark
  view_eq : x.view = y.view
  record_eq : x.record = y.record
  root_eq : y.sink = leaf
  logged : ∃ path cx, calls[x.mark]? = some (.handle path cx x.record) ∧
    x.sink = Sink.derive leaf path

namespace Indifferent

variable [Sink κ σ] {alike : σ → σ → Prop} {leaf : κ}

/-- The sinks of members are like the sink of the root for the records that are logged through
these members. -/
def likeness (hleaf : Indifferent alike leaf) (calls : List (FamilyCall σ)) :
    Likeness (Watched Nat κ) (Watched Nat κ) where
  worlds w w' := alike w.world w'.world ∧
    List.Forall₂ (Arrival leaf calls) w.journal w'.journal
  sinks r x y := x.mark = y.mark ∧ y.sink = leaf ∧
    ∃ path cx, calls[x.mark]? = some (.handle path cx r) ∧ x.sink = Sink.derive leaf path
  handle := by
    rintro r ⟨mark, k⟩ ⟨mark', k'⟩ ⟨hmark, hroot, path, cx, hcall, hderived⟩ view w w'
      ⟨hworld, hjournal⟩
    obtain rfl : mark = mark' := hmark
    obtain rfl : k' = leaf := hroot
    obtain rfl : k = Sink.derive k' path := hderived
    obtain ⟨hout, hafter⟩ := hleaf.handle path view r hworld
    have harrival : Arrival k' calls ⟨mark, Sink.derive k' path, view, r⟩ ⟨mark, k', view, r⟩ :=
      ⟨rfl, rfl, rfl, rfl, path, cx, hcall, rfl⟩
    exact ⟨hout, hafter, List.rel_append hjournal (.cons harrival .nil)⟩

/-- A call of a member and the same call of the root, both watched under the number of the
call. -/
theorem calls_alike {root : Handler κ σ} (hleaf : Indifferent alike root.leaf)
    {calls : List (FamilyCall σ)}
    (hsamplers : ∀ {w w'}, alike w w' → ∀ view, root.SamplersAgree view w w')
    (hchanges : ∀ call ∈ calls, call.Keeps alike) {i : Nat} {call : FamilyCall σ}
    (hi : calls[i]? = some call) :
    (hleaf.likeness calls).Calls ((call.through root.derive).watched i)
      ((call.through fun _ => root).watched i) := by
  have hwatched : ∀ path, Handler.Alike
      (fun x y => x = ⟨i, Sink.derive root.leaf path⟩ ∧ y = ⟨i, root.leaf⟩)
      (hleaf.likeness calls).worlds ((root.derive path).watched i) (root.watched i) := by
    intro path
    refine (root.alike_derive path hsamplers).watched i ?_ fun _ _ hw => hw.1
    rintro ⟨hderived, -⟩
    rw [hderived]
    exact ⟨rfl, rfl⟩
  cases call with
  | openScope path stage cx => exact .openScope (hwatched path).pools_eq stage cx
  | release lease => exact .release lease
  | outside change =>
      refine .outside ?_
      rintro w w' ⟨hworld, hjournal⟩
      exact ⟨hchanges _ (List.mem_of_getElem? hi) _ _ hworld, hjournal⟩
  | handle path cx r =>
      refine .handle ((hwatched path).mono ?_) cx
      rintro x y ⟨rfl, rfl⟩
      exact ⟨rfl, rfl, path, cx, hi, rfl⟩
  | enabled path cx level =>
      refine .enabled ?_ cx
      intro w w' hw view
      refine (hwatched path).enabled_eq ?_ view level hw
      rintro x y ⟨rfl, rfl⟩ w w' hw view level
      exact hleaf.enabled path view level hw.1

end Indifferent

/-- **Deriving never changes admission.** A run of calls, each made of any member of the family
that is derived from a root, and the run in which all of them are made of the root. If the sink is
indifferent to derivation and samplers decide the same whenever the worlds are alike, then both
runs give the same answers; in both the same records come to the sink during the same calls and in
the same order; and each of them comes to the sink derived by the path of the member that it was
logged through, also when it was held back and a call of another member brought it out. -/
theorem family_admits_alike [Sink κ σ] (root : Handler κ σ) (st : Store κ σ)
    (calls : List (FamilyCall σ)) {alike : σ → σ → Prop} (hleaf : Indifferent alike root.leaf)
    (hsamplers : ∀ {w w'}, alike w w' → ∀ view, root.SamplersAgree view w w')
    (hchanges : ∀ call ∈ calls, call.Keeps alike) (hstart : alike st.world st.world)
    (hempty : ∀ i, (st.buffers i).pending = []) :
    let family := calls.map (FamilyCall.through root.derive)
    let plain := calls.map (FamilyCall.through fun _ => root)
    (Tenancy.run family ⟨st, []⟩).1 = (Tenancy.run plain ⟨st, []⟩).1 ∧
      (Tenancy.witness family st).map Prod.fst = (Tenancy.run family ⟨st, []⟩).1 ∧
      (Tenancy.witness plain st).map Prod.fst = (Tenancy.run plain ⟨st, []⟩).1 ∧
      List.Forall₂ (fun x y => x.1 = y.1 ∧ List.Forall₂ (Arrival root.leaf calls) x.2 y.2)
        (Tenancy.witness family st) (Tenancy.witness plain st) := by
  intro family plain
  have hstores : (hleaf.likeness calls).Stores (st.watched 0) (st.watched 0) := by
    refine ⟨⟨⟨hstart, .nil⟩, rfl⟩, ?_, rfl, rfl⟩
    intro i
    have hnone : ((st.watched 0).buffers i).pending = [] := by
      simpa [Store.watched, RecordBuffer.map, RecordBuffer.pending] using hempty i
    exact .of_empty rfl rfl hnone hnone
  have hseen : List.Forall₂
      (fun x y => x.1 = y.1 ∧ List.Forall₂ (Arrival root.leaf calls) x.2 y.2)
      (Tenancy.witness family st) (Tenancy.witness plain st) := by
    apply Tenancy.seen_alike (L := hleaf.likeness calls) (fun hw => hw.2)
      (fun hw => ⟨hw.1, .nil⟩) calls 0 _ ⟨hstores, rfl⟩
    intro i call hi
    rw [Nat.zero_add]
    exact hleaf.calls_alike hsamplers hchanges hi
  have hanswers : (Tenancy.witness family st).map Prod.fst =
      (Tenancy.witness plain st).map Prod.fst := by
    rw [← List.forall₂_eq_eq_eq, List.forall₂_map_left_iff, List.forall₂_map_right_iff]
    exact hseen.imp fun _ _ h => h.1
  have hfamily := Tenancy.witness_answers family st
  have hplain := Tenancy.witness_answers plain st
  exact ⟨by rw [← hfamily, ← hplain, hanswers], hfamily, hplain, hseen⟩

/-! ## Families of recorders -/

theorem derive_recorder (k : Recorder) (path : List (List Attr ⊕ String)) :
    Sink.derive (.recorder k : Endpoint) path = .recorder { k with path := k.path ++ path } := by
  induction path generalizing k with
  | nil => simp [Sink.derive]
  | cons d path ih =>
      cases d with
      | inl attrs => exact (ih (k.withAttrs attrs)).trans (by simp [Recorder.withAttrs])
      | inr name => exact (ih (k.withGroup name)).trans (by simp [Recorder.withGroup])

/-- To recorders, and to samplers that follow switches, worlds are alike when their switches
are. -/
theorem indifferent_recorder (k : Recorder) :
    Indifferent (fun w w' : World => w.switches = w'.switches) (.recorder k : Endpoint) where
  enabled path view level w w' _ := by
    rw [derive_recorder]
    rfl
  handle path view r w w' hswitches := by
    rw [derive_recorder]
    exact ⟨rfl, hswitches⟩

/-- Records of two members are held back in one scope, and a record of the root brings them out.
Then the switch is set that the sampler follows. -/
theorem family_admits_alike_recorded :
    let alike : World → World → Prop := fun w w' => w.switches = w'.switches
    let recorder (path : List (List Attr ⊕ String)) : Endpoint :=
      .recorder { name := "r", path := path }
    let root : Handler Endpoint World :=
      .limited ⟨9, 0, ⟨1⟩⟩ 0 (.shared (.sampled ⟨.switched "s", .error, 0⟩ (.sink (recorder []))))
    let st : Store Endpoint World := .ofWorld {}
    let say (path : List (List Attr ⊕ String)) (level : Level) : FamilyCall World :=
      .handle path { opening := some 0 } ⟨level, "m", ⟨0⟩, []⟩
    let calls : List (FamilyCall World) :=
      [.openScope [.inr "g"] 0 {}, say [.inr "g"] .info,
        say [.inl [⟨"a", .bool true⟩], .inr "h"] .info, say [] .error,
        .outside fun w => w.setSwitch "s" true, say [.inr "g"] .info]
    let family := calls.map (FamilyCall.through root.derive)
    let plain := calls.map (FamilyCall.through fun _ => root)
    Indifferent alike root.leaf ∧ (∀ call ∈ calls, call.Keeps alike) ∧
      (Tenancy.run family ⟨st, []⟩).1 = (Tenancy.run plain ⟨st, []⟩).1 ∧
      List.Forall₂ (fun x y => x.1 = y.1 ∧ List.Forall₂ (Arrival root.leaf calls) x.2 y.2)
        (Tenancy.witness family st) (Tenancy.witness plain st) ∧
      (Tenancy.witness family st).map (fun x => x.2.map fun c => (c.mark, c.sink)) =
        [[], [], [],
          [(1, recorder [.inr "g"]), (2, recorder [.inl [⟨"a", .bool true⟩], .inr "h"]),
            (3, recorder [])],
          [], [(5, recorder [.inr "g"])]] := by
  intro alike recorder root st say calls family plain
  have hleaf : Indifferent alike root.leaf := indifferent_recorder _
  have hsamplers : ∀ {w w'}, alike w w' → ∀ view, root.SamplersAgree view w w' :=
    fun hw _ => ⟨congrFun hw "s", trivial⟩
  have hchanges : ∀ call ∈ calls, call.Keeps alike := by
    simp only [calls, say, List.forall_mem_cons]
    refine ⟨trivial, trivial, trivial, trivial, ?_, trivial, by simp⟩
    intro w w' hw
    simp only [alike, World.setSwitch]
    rw [show w.switches = w'.switches from hw]
  obtain ⟨hanswers, -, -, hseen⟩ :=
    family_admits_alike root st calls hleaf hsamplers hchanges rfl fun _ => rfl
  exact ⟨hleaf, hchanges, hanswers, hseen, by decide +kernel⟩

end LogAdmission
