import LogAdmission.Logger
import LogAdmission.Proofs.Runs
import LogAdmission.Proofs.Spans.Attachments
import LogAdmission.Sink.Endpoint

/-!
# Bridging

The bridge and the logger are two ways into a chain. For an event the bridge does what a logger
does with the level, the message and the attributes of the event, in the context that was
attached last to the nearest span (`bridge_agrees_with_logger`). What the logger makes of an
event is `logEvent`.
-/

namespace LogAdmission

/-! ## The nearest attachment -/

section Nearest

variable {history : List Attachment} {a : Attachment} {i : Nat} {chain : List Nat}

/-- What is found on the nearest span is the last attachment to it. -/
theorem lastAttachment?_of_nearest (h : nearestAttachment? history i chain = some a) :
    lastAttachment? history a.span = some a := by
  obtain ⟨n, -, hn⟩ := List.exists_of_findSome?_eq_some h
  rwa [span_of_lastAttachment? hn]

/-- A new attachment is not seen from where another span is nearest. -/
theorem nearestAttachment?_cons_ne
    (hne : (nearestAttachment? (a :: history) i chain).map Attachment.span ≠ some a.span) :
    nearestAttachment? (a :: history) i chain = nearestAttachment? history i chain := by
  induction chain with
  | nil => rfl
  | cons n chain ih =>
      rw [nearestAttachment?, List.findSome?_cons] at hne ⊢
      by_cases hn : a.span = ⟨i, n⟩
      · rw [← hn, lastAttachment?_cons_self] at hne
        exact absurd rfl hne
      · rw [nearestAttachment?, List.findSome?_cons, lastAttachment?_cons_ne hn]
        rw [lastAttachment?_cons_ne hn] at hne
        cases hlast : lastAttachment? history ⟨i, n⟩ with
        | none =>
            rw [hlast] at hne
            exact ih hne
        | some b => rfl

end Nearest

/-- The context in which an event is handled after an attachment: the attached one if the span is
now the nearest one with a context, and otherwise the same as before. -/
theorem contextAlong_cons (history : List Attachment) (a : Attachment) (i : Nat)
    (chain : List Nat) :
    ((nearestAttachment? (a :: history) i chain).map Attachment.span = some a.span →
      contextAlong (a :: history) i chain = a.context) ∧
    ((nearestAttachment? (a :: history) i chain).map Attachment.span ≠ some a.span →
      contextAlong (a :: history) i chain = contextAlong history i chain) := by
  constructor
  · intro hspan
    obtain ⟨b, hb, hba⟩ := Option.map_eq_some_iff.mp hspan
    have hlast := lastAttachment?_of_nearest hb
    rw [hba, lastAttachment?_cons_self] at hlast
    obtain rfl := Option.some.inj hlast
    rw [contextAlong, hb]
    rfl
  · intro hne
    rw [contextAlong, contextAlong, nearestAttachment?_cons_ne hne]

/-! ## Two ways into a chain -/

variable {κ σ : Type} [Sink κ σ]

/-- What a logger makes of an event, in the context `cx` at the time `now`. -/
def logEvent (cx : Context) (now : Instant) (level : EventLevel) (fields : List Field)
    (h : Handler κ σ) (st : Store κ σ) : Outcome × Store κ σ :=
  let c := Collected.ofFields fields
  Logger.log ⟨h⟩ now cx level.level c.message c.attrs st

section Agreement

variable (cx : Context) (now : Instant) (level : EventLevel) (fields : List Field)

/-- A logger asks the chain first, and makes a record only if the level is enabled. -/
theorem logEvent_of_disabled {h : Handler κ σ} {st : Store κ σ}
    (hdisabled : h.enabled (st.view cx) level.level st.world = false) :
    logEvent cx now level fields h st = (.ok, st) := by
  simp [logEvent, Logger.log, Logger.enabled, hdisabled]

theorem logEvent_of_enabled {h : Handler κ σ} {st : Store κ σ}
    (henabled : h.enabled (st.view cx) level.level st.world = true) :
    logEvent cx now level fields h st = h.handle cx (eventRecord level fields now) st := by
  simp [logEvent, Logger.log, Logger.enabled, henabled, eventRecord]

/-- The bridge does what the logger does, and looks only at whether the call returned. -/
theorem bridgeEvent_eq (h : Handler κ σ) (st : Store κ σ) :
    bridgeEvent h cx now level fields st =
      (decide ((logEvent cx now level fields h st).1 ≠ .aborted),
        (logEvent cx now level fields h st).2) := by
  unfold bridgeEvent
  cases henabled : h.enabled (st.view cx) level.level st.world with
  | false =>
      rw [logEvent_of_disabled cx now level fields henabled]
      rfl
  | true =>
      rw [logEvent_of_enabled cx now level fields henabled, if_pos rfl]
      rcases h.handle cx (eventRecord level fields now) st with ⟨outcome, st'⟩
      cases outcome with
      | ok => rfl
      | failed e => rfl
      | aborted => rfl

/-- All layers together do what loggers for them do in turn. -/
theorem bridgeAll_eq (layers : List (Handler κ σ)) (st : Store κ σ) :
    bridgeAll layers cx now level fields st =
      (decide (.aborted ∉ (performAll (logEvent cx now level fields) layers st).1),
        (performAll (logEvent cx now level fields) layers st).2) := by
  induction layers generalizing st with
  | nil => rfl
  | cons h rest ih =>
      rw [bridgeAll, bridgeEvent_eq]
      by_cases haborted : (logEvent cx now level fields h st).1 = .aborted
      · rw [performAll_cons_aborted rest haborted]
        simp [haborted]
      · rw [performAll_cons_of_ne rest haborted]
        simp [haborted, ih, Ne.symm haborted]

end Agreement

/-- **The bridge agrees with the logger.** After any calls of a program whose subscriber has
layers, an event is in the spans of one chain, and has the effect of logging it with a logger for
each layer in turn, in the context that was attached last to the nearest span of the chain that
has one. Both ask a layer first whether the level is enabled in this context, and leave the layer
alone if it is not; the bridge forgets the result. An attachment changes the context of those
events only for which its span is then the nearest one, and if it fails it changes nothing. -/
theorem bridge_agrees_with_logger (world : σ) (now : Instant) (calls : List (HostCall κ σ))
    {i : Nat} {layers : List (Handler κ σ)}
    (hinstalled : ((Host.ofWorld world now).after calls).subscriber = some (.layered i layers))
    (parent : Parent) :
    let host := (Host.ofWorld world now).after calls
    let history := (Host.ofWorld world now).attachments calls
    ∃ chain, (host.registries i).Ascent (host.eventSpan? i parent) chain ∧
      (∀ (level : EventLevel) (fields : List Field),
        let cx := contextAlong history i chain
        let logged := logEvent cx host.now level fields
        host.emit parent level fields =
            (decide (.aborted ∉ (performAll logged layers host.store).1),
              { host with store := (performAll logged layers host.store).2 }) ∧
          ∀ (h : Handler κ σ) (st : Store κ σ),
            bridgeEvent h cx host.now level fields st =
                (decide ((logged h st).1 ≠ .aborted), (logged h st).2) ∧
              (h.enabled (st.view cx) level.level st.world = false → logged h st = (.ok, st)) ∧
              (h.enabled (st.view cx) level.level st.world = true →
                logged h st = h.handle cx (eventRecord level fields host.now) st)) ∧
      ∀ (handle : SpanHandle) (cx : Context),
        let attached := host.attachContext handle cx
        (attached.1 = false → attached.2 = host) ∧
          (attached.1 = true → ∃ s, handle = .kept s ∧
            (attached.2.registries i).Ascent (attached.2.eventSpan? i parent) chain ∧
              let nearest := nearestAttachment? (⟨s, cx⟩ :: history) i chain
              (nearest.map Attachment.span = some s → attached.2.eventContext i parent = cx) ∧
                (nearest.map Attachment.span ≠ some s →
                  attached.2.eventContext i parent = host.eventContext i parent)) := by
  intro host history
  have hfaithful : host.Faithful history := by
    have hrun : host.Faithful (history ++ []) := (Host.Faithful.ofWorld world now).after calls
    rwa [List.append_nil] at hrun
  obtain ⟨chain, hchain⟩ := hfaithful.exists_ascent i parent
  have hcontext := hfaithful.eventContext_eq hchain
  refine ⟨chain, hchain, fun level fields => ⟨?_, fun h st => ⟨?_, ?_, ?_⟩⟩,
    fun handle cx => ⟨?_, ?_⟩⟩
  · rw [Host.emit_of_installed hinstalled, hcontext, bridgeAll_eq]
  · exact bridgeEvent_eq _ _ level fields h st
  · exact logEvent_of_disabled _ _ level fields
  · exact logEvent_of_enabled _ _ level fields
  · exact Host.attachContext_of_false
  · intro hattached
    obtain ⟨s, rfl⟩ := Host.kept_of_attachContext hattached
    have hchain' := Host.ascent_attachContext (.kept s) cx hchain
    obtain ⟨hnear, hfar⟩ := contextAlong_cons history ⟨s, cx⟩ i chain
    rw [← (hfaithful.attachContext hattached).eventContext_eq hchain'] at hnear hfar
    rw [← hcontext] at hfar
    exact ⟨s, rfl, hchain', hnear, hfar⟩

/-- An event in a span without a context, below one whose context was replaced: the recorder is
shown the trace of the later one. -/
theorem bridge_agrees_with_logger_replaced :
    let layers : List (Handler Endpoint World) := [.sink (.recorder { name := "r" })]
    let outer : SpanHandle := .kept ⟨0, 0⟩
    let inner : SpanHandle := .kept ⟨0, 1⟩
    let earlier : Context := { trace := some ⟨1, 1, 1⟩, binding := some ⟨0, 1⟩ }
    let later : Context := { trace := some ⟨2, 2, 1⟩, binding := some ⟨0, 2⟩ }
    let calls : List (HostCall Endpoint World) :=
      [.install layers, .create .root, .attach outer earlier, .enter outer, .create .current,
        .attach outer later]
    let fields : List Field := [⟨"message", .str "a"⟩]
    let host := (Host.ofWorld {} ⟨0⟩).after calls
    let logged := performAll (logEvent later host.now .info fields) layers host.store
    host.subscriber = some (.layered 0 layers) ∧
      host.emit (.span inner) .info fields = (true, { host with store := logged.2 }) ∧
      logged.2.world.received.filterMap
          (fun
            | (_, .record _ _ view _) => view.trace
            | (_, .piece _) => none) =
        [⟨2, 2, 1⟩] := by
  intro layers outer inner earlier later calls fields host logged
  have hinstalled : host.subscriber = some (.layered 0 layers) := rfl
  obtain ⟨chain, hchain, hevents, -⟩ :=
    bridge_agrees_with_logger ({} : World) ⟨0⟩ calls hinstalled (.span inner)
  have hspan : host.eventSpan? 0 (.span inner) = some 1 := by decide +kernel
  have hinner : (host.registries 0).openSpan? 1 = some ⟨⟨1, 0⟩, some 0, none, 1⟩ := by
    decide +kernel
  have houter : (host.registries 0).openSpan? 0 = some ⟨⟨0, 0⟩, none, some later, 3⟩ := by
    decide +kernel
  rw [hspan] at hchain
  obtain rfl := hchain.unique (.inside hinner (.inside houter .outside))
  have hcx : contextAlong ((Host.ofWorld {} ⟨0⟩).attachments calls) 0 [1, 0] = later := by
    decide +kernel
  have hreturned : Outcome.aborted ∉ logged.1 := by decide +kernel
  obtain ⟨hemitted, -⟩ := hevents .info fields
  rw [hcx, decide_eq_true hreturned] at hemitted
  exact ⟨hinstalled, hemitted, by decide +kernel⟩

end LogAdmission
