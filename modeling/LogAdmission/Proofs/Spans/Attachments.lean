import LogAdmission.Host
import LogAdmission.Proofs.Spans.Ageing

/-!
# Attachments

A program creates spans, enters and leaves them, gives them up, and attaches contexts to
them, under subscribers that come and go (`Host.perform`). `Host.attachments` tells what it has
attached, and `Host.Faithful` that every registry still remembers it. One call preserves that
(`Faithful.perform`), and so does a run (`Faithful.after`). Hence the context of an event can be
read off the attachments (`Faithful.eventContext_eq`).
-/

namespace LogAdmission

/-- A context attached to a span. -/
structure Attachment where
  span : SpanRef
  context : Context
  deriving DecidableEq

/-- The last attachment to a span; attachments are told with the latest first. -/
def lastAttachment? (history : List Attachment) (s : SpanRef) : Option Attachment :=
  history.find? fun a => a.span = s

/-- The context that was attached last to each span of a registry. -/
def lastContext? (history : List Attachment) (registry n : Nat) : Option Context :=
  (lastAttachment? history ⟨registry, n⟩).map Attachment.context

/-- The last attachment to the nearest span of a chain that has any. -/
def nearestAttachment? (history : List Attachment) (registry : Nat) (chain : List Nat) :
    Option Attachment :=
  chain.findSome? fun n => lastAttachment? history ⟨registry, n⟩

/-- The context that holds along a chain, empty where none is attached. -/
def contextAlong (history : List Attachment) (registry : Nat) (chain : List Nat) : Context :=
  ((nearestAttachment? history registry chain).map Attachment.context).getD .empty

section

variable {history : List Attachment} {a : Attachment} {s : SpanRef}

theorem span_of_lastAttachment? (h : lastAttachment? history s = some a) : a.span = s := by
  have hfound := List.find?_some h
  exact of_decide_eq_true hfound

theorem lastAttachment?_cons_self (a : Attachment) (history : List Attachment) :
    lastAttachment? (a :: history) a.span = some a :=
  List.find?_cons_of_pos (decide_eq_true rfl)

theorem lastAttachment?_cons_ne (hne : a.span ≠ s) :
    lastAttachment? (a :: history) s = lastAttachment? history s :=
  List.find?_cons_of_neg fun heq => hne (of_decide_eq_true heq)

end

/-- A call of a program. -/
inductive HostCall (κ σ : Type) where
  /-- Installs a subscriber with a registry and layers of chains. -/
  | install (layers : List (Handler κ σ))
  /-- Installs a subscriber that ignores everything. -/
  | ignore
  | uninstall
  | create (parent : Parent)
  | enter (h : SpanHandle)
  | exit (h : SpanHandle)
  | drop (h : SpanHandle)
  | attach (h : SpanHandle) (cx : Context)
  | emit (parent : Parent) (level : EventLevel) (fields : List Field)
  /-- Whatever else is done with handlers, scopes and the world. -/
  | work (change : Store κ σ → Store κ σ)
  | wait (now : Instant)

namespace Host

variable {κ σ : Type} {host host' host'' : Host κ σ} {history : List Attachment}

/-- The attachment that a call makes, if it makes one. -/
def attachment? (host : Host κ σ) : HostCall κ σ → Option Attachment
  | .attach (.kept s) cx => if (host.attachContext (.kept s) cx).1 then some ⟨s, cx⟩ else none
  | _ => none

theorem onRegistry_id (host : Host κ σ) (i : Nat) :
    (host.onRegistry i fun _ => host.registries i) = host := by
  rw [onRegistry, Cells.put_read]

/-- A context can be attached to a span that a registry keeps and that is open, and nowhere
else. -/
theorem attachContext_iff {h : SpanHandle} {cx : Context} :
    (host.attachContext h cx).1 = true ↔
      ∃ s span, h = .kept s ∧ (host.registries s.registry).openSpan? s.span = some span := by
  cases h with
  | empty => simp [attachContext]
  | unkept => simp [attachContext]
  | kept s =>
      cases hs : (host.registries s.registry).openSpan? s.span with
      | none => simp [attachContext, Registry.attach_of_not_isOpen hs, hs]
      | some span => simp [attachContext, Registry.attach_of_isOpen hs, hs]

/-- What could not be attached has changed nothing. -/
theorem attachContext_of_false {h : SpanHandle} {cx : Context}
    (hnot : (host.attachContext h cx).1 = false) : (host.attachContext h cx).2 = host := by
  cases h with
  | empty => rfl
  | unkept => rfl
  | kept s =>
      cases hs : (host.registries s.registry).openSpan? s.span with
      | none => simp [attachContext, Registry.attach_of_not_isOpen hs, onRegistry_id]
      | some span =>
          rw [attachContext_iff.mpr ⟨s, span, rfl, hs⟩] at hnot
          cases hnot

theorem attachment?_of_false {h : SpanHandle} {cx : Context}
    (hnot : (host.attachContext h cx).1 = false) : host.attachment? (.attach h cx) = none := by
  cases h with
  | empty => rfl
  | unkept => rfl
  | kept s => simp [attachment?, hnot]

theorem kept_of_attachContext {h : SpanHandle} {cx : Context}
    (hattached : (host.attachContext h cx).1 = true) : ∃ s, h = .kept s := by
  obtain ⟨s, -, hkept, -⟩ := attachContext_iff.mp hattached
  exact ⟨s, hkept⟩

/-! ## Ageing hosts -/

/-- All registries of a host age, under the same subscriber. -/
structure Ages (host host' : Host κ σ) : Prop where
  registries : ∀ i, (host.registries i).Ages (host'.registries i)
  freshRegistry : host'.freshRegistry = host.freshRegistry
  subscriber : host'.subscriber = host.subscriber

namespace Ages

theorem refl (host : Host κ σ) : host.Ages host where
  registries := fun _ => .of_spans_eq rfl
  freshRegistry := rfl
  subscriber := rfl

theorem trans (h : host.Ages host') (h' : host'.Ages host'') : host.Ages host'' where
  registries := fun i => (h.registries i).trans (h'.registries i)
  freshRegistry := h'.freshRegistry.trans h.freshRegistry
  subscriber := h'.subscriber.trans h.subscriber

theorem onRegistry (host : Host κ σ) {i : Nat} {f : Registry → Registry}
    (h : (host.registries i).Ages (f (host.registries i))) : host.Ages (host.onRegistry i f) where
  registries := Cells.put_forall (P := fun j g => (host.registries j).Ages g) h
    fun _ _ => .of_spans_eq rfl
  freshRegistry := rfl
  subscriber := rfl

theorem putRegistry (host : Host κ σ) {i : Nat} {g : Registry}
    (h : (host.registries i).Ages g) : host.Ages (host.onRegistry i fun _ => g) :=
  onRegistry host (f := fun _ => g) h

theorem releaseInstalled (host : Host κ σ) (s : SpanRef) :
    host.Ages (host.releaseInstalled s).2 := by
  unfold Host.releaseInstalled
  split
  · split
    · exact putRegistry host (.release _ _)
    · exact refl host
  · exact refl host

theorem vacate (host : Host κ σ) (i : Nat) (place : Place) :
    host.Ages (host.onRegistry i (·.vacate place)) :=
  onRegistry host (f := (·.vacate place)) (.of_spans_eq rfl)

theorem dropSpan (host : Host κ σ) (h : SpanHandle) : host.Ages (host.dropSpan h).2 := by
  cases h with
  | empty => exact refl host
  | unkept => exact refl host
  | kept s =>
      have hg := putRegistry host (Registry.Ages.loosen (host.registries s.registry) s.span)
      rcases hl : (host.registries s.registry).loosen s.span with ⟨loosened, g⟩
      rw [hl] at hg
      cases loosened with
      | absent => simpa only [Host.dropSpan, hl] using hg
      | held => simpa only [Host.dropSpan, hl] using hg
      | closed place parent =>
          cases parent with
          | none => simpa [Host.dropSpan, hl] using hg.trans (vacate _ s.registry place)
          | some p =>
              -- the parent is given up in the installed registry, where it may not be found
              have hfreed := hg.trans (releaseInstalled _ ⟨s.registry, p⟩)
              rcases hr : (host.onRegistry s.registry fun _ => g).releaseInstalled ⟨s.registry, p⟩
                with ⟨found, freed⟩
              rw [hr] at hfreed
              cases found with
              | false => simpa [Host.dropSpan, hl, hr] using hfreed
              | true =>
                  simpa [Host.dropSpan, hl, hr] using hfreed.trans (vacate _ s.registry place)

theorem enterSpan (host : Host κ σ) (h : SpanHandle) : host.Ages (host.enterSpan h).2 := by
  cases h with
  | empty => exact refl host
  | unkept => exact refl host
  | kept s =>
      cases hs : (host.registries s.registry).openSpan? s.span with
      | none => simpa [Host.enterSpan, hs] using refl host
      | some span =>
          have hentered : host.Ages
              (host.onRegistry s.registry fun g => (g.hold s.span).enter s.span) :=
            onRegistry host ((Registry.Ages.hold hs).trans (.of_spans_eq rfl))
          simpa only [Host.enterSpan, hs] using hentered

theorem exitSpan (host : Host κ σ) (h : SpanHandle) : host.Ages (host.exitSpan h).2 := by
  cases h with
  | empty => exact dropSpan host .empty
  | unkept => exact dropSpan host .unkept
  | kept s =>
      have hleft : host.Ages (host.onRegistry s.registry (·.exit s.span)) :=
        onRegistry host (.of_spans_eq rfl)
      exact hleft.trans (dropSpan _ (.kept s))

end Ages

/-! ## Hosts that remember -/

/-- Every registry remembers the contexts that were attached last, and the next one to be used
has no spans yet. -/
structure Faithful (host : Host κ σ) (history : List Attachment) : Prop where
  remembers : ∀ i, (host.registries i).Remembers (lastContext? history i)
  fresh : ∀ i, host.freshRegistry ≤ i → (host.registries i).spans = []
  installed : ∀ {i layers}, host.subscriber = some (.layered i layers) → i < host.freshRegistry

namespace Faithful

theorem ofWorld (world : σ) (now : Instant) : (Host.ofWorld world now : Host κ σ).Faithful [] where
  remembers := fun _ => .empty
  fresh := fun _ _ => rfl
  installed := nofun

theorem ages (h : host.Faithful history) (hages : host.Ages host') : host'.Faithful history where
  remembers := fun i => (h.remembers i).ages (hages.registries i)
  fresh := by
    intro i hi
    rw [hages.freshRegistry] at hi
    have hlength := (hages.registries i).length_eq
    rw [h.fresh i hi] at hlength
    exact List.length_eq_zero_iff.mp hlength
  installed := by
    intro i layers hi
    rw [hages.subscriber] at hi
    rw [hages.freshRegistry]
    exact h.installed hi

/-- A change of one registry that is in use. -/
theorem putRegistry {history' : List Attachment} {i : Nat} {g : Registry}
    (h : host.Faithful history) (hi : i < host.freshRegistry)
    (hg : g.Remembers (lastContext? history' i))
    (hother : ∀ j, j ≠ i → lastContext? history' j = lastContext? history j) :
    (host.onRegistry i fun _ => g).Faithful history' where
  remembers := by
    refine Cells.put_forall (P := fun j g => Registry.Remembers g (lastContext? history' j)) hg ?_
    intro j hj
    rw [hother j hj]
    exact h.remembers j
  fresh := by
    intro j hj
    have hne : j ≠ i := by
      rintro rfl
      exact absurd hi (Nat.not_lt.mpr hj)
    exact (congrArg Registry.spans (Cells.put_ne _ _ hne)).trans (h.fresh j hj)
  installed := h.installed

theorem install (h : host.Faithful history) (layers : List (Handler κ σ)) :
    (host.install layers).Faithful history where
  remembers := by
    refine Cells.put_forall (P := fun j g => Registry.Remembers g (lastContext? history j)) ?_
      fun j _ => h.remembers j
    have hspans := h.fresh host.freshRegistry (Nat.le_refl _)
    exact (h.remembers host.freshRegistry).ages (.of_spans_eq hspans.symm)
  fresh := by
    intro i hi
    have hne : i ≠ host.freshRegistry := Nat.ne_of_gt hi
    exact (congrArg Registry.spans (Cells.put_ne _ _ hne)).trans (h.fresh i (Nat.le_of_succ_le hi))
  installed := by
    intro i layers' hi
    cases hi
    exact Nat.lt_succ_self _

/-- The span above a new one is open. -/
theorem isOpen_of_above? {i : Nat} {parent : Parent} {above : Option Nat}
    (habove : host.above? i parent = some above) :
    ∀ p ∈ above, ∃ s, (host.registries i).openSpan? p = some s := by
  rintro p rfl
  cases parent with
  | current => exact Registry.isOpen_of_current (Option.some.inj habove)
  | root => cases habove
  | span h =>
      cases h with
      | empty => cases habove
      | unkept => cases habove
      | kept s =>
          rw [above?, Option.map_eq_some_iff] at habove
          obtain ⟨n, hn, hp⟩ := habove
          obtain rfl := Option.some.inj hp
          rw [standIn?, Option.bind_eq_some_iff] at hn
          obtain ⟨place, -, hfound⟩ := hn
          exact Registry.isOpen_of_findOpen? hfound

theorem createSpan? (h : host.Faithful history) (parent : Parent) :
    (host.createSpan? parent).2.Faithful history := by
  unfold Host.createSpan?
  split
  · next i layers hsub =>
      split
      · next above habove =>
          exact h.putRegistry (h.installed hsub)
            ((h.remembers i).create (isOpen_of_above? habove)) fun _ _ => rfl
      · exact h
  · exact h

/-- A registry that has an open span is in use. -/
theorem inUse {i n : Nat} {s : Span} (h : host.Faithful history)
    (hs : (host.registries i).openSpan? n = some s) : i < host.freshRegistry := by
  have hlt := lt_length_of_spanAt? (Registry.openSpan?_eq_some_iff.mp hs).1
  refine Nat.lt_of_not_le fun hle => ?_
  rw [h.fresh i hle] at hlt
  exact Nat.not_lt_zero _ hlt

theorem attachContext {s : SpanRef} {cx : Context} (h : host.Faithful history)
    (hattached : (host.attachContext (.kept s) cx).1 = true) :
    (host.attachContext (.kept s) cx).2.Faithful (⟨s, cx⟩ :: history) := by
  obtain ⟨_, span, hkept, hs⟩ := attachContext_iff.mp hattached
  obtain rfl := SpanHandle.kept.inj hkept
  refine h.putRegistry (h.inUse hs) ?_ fun j hj => ?_
  · have hself : lastContext? (⟨s, cx⟩ :: history) s.registry s.span = some cx :=
      congrArg _ (lastAttachment?_cons_self ⟨s, cx⟩ history)
    refine (h.remembers s.registry).attach hs cx hself fun n hn => ?_
    exact congrArg _ (lastAttachment?_cons_ne fun heq => hn (congrArg SpanRef.span heq).symm)
  · funext n
    exact congrArg _
      (lastAttachment?_cons_ne fun heq => hj (congrArg SpanRef.registry heq).symm)

/-! ## Contexts of events -/

/-- The spans that an event is in: from its own one up to the root. -/
theorem exists_ascent (h : host.Faithful history) (i : Nat) (parent : Parent) :
    ∃ chain, (host.registries i).Ascent (host.eventSpan? i parent) chain :=
  (h.remembers i).grown.exists_ascent _

/-- The context of an event is told by the attachments to the spans that it is in. -/
theorem eventContext_eq {i : Nat} {parent : Parent} {chain : List Nat}
    (h : host.Faithful history)
    (hchain : (host.registries i).Ascent (host.eventSpan? i parent) chain) :
    host.eventContext i parent = contextAlong history i chain := by
  have hnearest := (h.remembers i).nearestAttached_eq hchain
  have halong : contextAlong history i chain =
      (chain.findSome? (lastContext? history i)).getD .empty := by
    rw [contextAlong, nearestAttachment?, List.map_findSome?]
    rfl
  rw [halong, ← hnearest, eventContext]
  cases host.eventSpan? i parent with
  | none => rfl
  | some n => rfl

end Faithful

section Alike

variable {i : Nat} {parent : Parent}

theorem eventSpan?_of_alike (hregistries : ∀ j, (host.registries j).Alike (host'.registries j)) :
    host'.eventSpan? i parent = host.eventSpan? i parent := by
  cases parent with
  | current => exact (hregistries i).current
  | root => rfl
  | span h =>
      cases h with
      | empty => rfl
      | unkept => rfl
      | kept s =>
          have hfind : (host'.registries i).findOpen? = (host.registries i).findOpen? :=
            funext (hregistries i).findOpen?
          simp only [eventSpan?, standIn?, (hregistries s.registry).placeOf?, hfind]

theorem alike_attachContext (host : Host κ σ) (h : SpanHandle) (cx : Context) (j : Nat) :
    (host.registries j).Alike ((host.attachContext h cx).2.registries j) := by
  cases h with
  | empty => exact .refl _
  | unkept => exact .refl _
  | kept s =>
      exact Cells.put_forall (P := fun j g => (host.registries j).Alike g)
        (.attach (host.registries s.registry) s.span cx) (fun _ _ => .refl _) j

/-- An attachment leaves the spans that an event is in. -/
theorem ascent_attachContext {chain : List Nat} (h : SpanHandle) (cx : Context)
    (hchain : (host.registries i).Ascent (host.eventSpan? i parent) chain) :
    ((host.attachContext h cx).2.registries i).Ascent
      ((host.attachContext h cx).2.eventSpan? i parent) chain := by
  rw [eventSpan?_of_alike (host.alike_attachContext h cx)]
  exact (host.alike_attachContext h cx i).ascent hchain

end Alike

/-! ## Runs -/

section Runs

variable [Sink κ σ]

/-- What a call makes of a host. -/
def perform (host : Host κ σ) : HostCall κ σ → Host κ σ
  | .install layers => host.install layers
  | .ignore => { host with subscriber := some .ignoring }
  | .uninstall => { host with subscriber := none }
  | .create parent => (host.createSpan? parent).2
  | .enter h => (host.enterSpan h).2
  | .exit h => (host.exitSpan h).2
  | .drop h => (host.dropSpan h).2
  | .attach h cx => (host.attachContext h cx).2
  | .emit parent level fields => (host.emit parent level fields).2
  | .work change => { host with store := change host.store }
  | .wait now => { host with now := now }

/-- What calls make of a host. -/
def after (host : Host κ σ) (calls : List (HostCall κ σ)) : Host κ σ :=
  calls.foldl perform host

/-- The attachments that calls make, the latest first. -/
def attachments (host : Host κ σ) : List (HostCall κ σ) → List Attachment
  | [] => []
  | call :: rest => (host.perform call).attachments rest ++ (host.attachment? call).toList

/-- An event changes the store alone. -/
theorem exists_emit_eq (host : Host κ σ) (parent : Parent) (level : EventLevel)
    (fields : List Field) :
    ∃ store, (host.emit parent level fields).2 = { host with store := store } := by
  unfold emit
  split
  · exact ⟨_, rfl⟩
  · exact ⟨host.store, rfl⟩

/-- With layers installed, an event goes to all of them in its context. -/
theorem emit_of_installed {i : Nat} {layers : List (Handler κ σ)}
    (hinstalled : host.subscriber = some (.layered i layers)) (parent : Parent)
    (level : EventLevel) (fields : List Field) :
    host.emit parent level fields =
      let (finished, store) :=
        bridgeAll layers (host.eventContext i parent) host.now level fields host.store
      (finished, { host with store := store }) := by
  rw [emit, hinstalled]

namespace Faithful

/-- **One call.** What a host remembers is what was attached before, and what the call attaches. -/
theorem perform (h : host.Faithful history) (call : HostCall κ σ) :
    (host.perform call).Faithful ((host.attachment? call).toList ++ history) := by
  cases call with
  | install layers => exact h.install layers
  | ignore => exact { h with installed := nofun }
  | uninstall => exact { h with installed := nofun }
  | create parent => exact h.createSpan? parent
  | enter handle => exact h.ages (.enterSpan host handle)
  | exit handle => exact h.ages (.exitSpan host handle)
  | drop handle => exact h.ages (.dropSpan host handle)
  | attach handle cx =>
      cases hattached : (host.attachContext handle cx).1 with
      | false =>
          rw [attachment?_of_false hattached, Host.perform, attachContext_of_false hattached]
          exact h
      | true =>
          obtain ⟨s, rfl⟩ := kept_of_attachContext hattached
          have hmade : host.attachment? (.attach (.kept s) cx) = some ⟨s, cx⟩ := if_pos hattached
          rw [hmade]
          exact h.attachContext hattached
  | emit parent level fields =>
      obtain ⟨store, hstore⟩ := host.exists_emit_eq parent level fields
      rw [Host.perform, hstore]
      exact { h with }
  | work change => exact { h with }
  | wait now => exact { h with }

/-- **A run.** -/
theorem after (h : host.Faithful history) (calls : List (HostCall κ σ)) :
    (host.after calls).Faithful (host.attachments calls ++ history) := by
  induction calls generalizing host history with
  | nil => exact h
  | cons call rest ih =>
      rw [attachments, List.append_assoc]
      exact ih (h.perform call)

end Faithful

end Runs

end Host
end LogAdmission
