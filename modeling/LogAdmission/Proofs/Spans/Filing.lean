import LogAdmission.Proofs.Replaced
import LogAdmission.Proofs.Spans.Bridging

/-!
# Filing

What becomes of the fields of an event. The rule goes by name (`Record.FiledByName`): the field
named `message` is the message of the record, and the others are its attributes. The fields are
filed one by one, though, by name and by type: only a text is taken as the message
(`Collected.foldl_file`). So the rule is kept unless a number or a truth value is named `message`
(`events_filed_by_name`).
-/

namespace LogAdmission

namespace FieldValue

/-- Whether the value is recorded as a text: its own, or that for debugging. -/
def isText : FieldValue → Bool
  | str _ | debug _ => true
  | int _ | uint _ | double _ | bool _ => false

/-- A text is a message as it is shown; nothing else is a message. -/
theorem messageText?_eq (v : FieldValue) :
    v.messageText? = if v.isText then some v.value.text else none := by
  cases v with
  | str s => rfl
  | debug text => rfl
  | int n => rfl
  | uint n => rfl
  | double x => rfl
  | bool b => rfl

end FieldValue

namespace Field

/-- The attribute with the name of the field, and its value in its type. -/
def attr (f : Field) : Attr :=
  ⟨f.name, f.value.value⟩

/-- The field as a line shows it, whatever its type. -/
def text (f : Field) : String :=
  f.value.value.text

def isMessage (f : Field) : Bool :=
  f.name = "message"

/-- Whether the field is taken as the message: it has the name, and is a text. -/
def isTaken (f : Field) : Bool :=
  f.isMessage && f.value.isText

theorem isTaken_eq_isMessage {f : Field} (h : f.isMessage = true → f.value.isText = true) :
    f.isTaken = f.isMessage := by
  cases hmessage : f.isMessage with
  | true => rw [isTaken, hmessage, h hmessage, Bool.and_true]
  | false => rw [isTaken, hmessage, Bool.false_and]

end Field

/-- **The rule.** The message of a record is the text of the field named `message`, whatever its
type, and empty if there is none. The attributes are the other fields, in their order. -/
structure Record.FiledByName (r : Record) (fields : List Field) : Prop where
  message : r.message = ((fields.find? Field.isMessage).map Field.text).getD ""
  attrs : r.attrs = (fields.filter fun f => !f.isMessage).map Field.attr

/-! ## One field after the other -/

namespace Collected

/-- One field is either the message from now on, or one more attribute. -/
theorem file_eq (c : Collected) (f : Field) :
    c.file f =
      if f.isTaken then { c with message := f.text }
      else { c with attrs := c.attrs ++ [f.attr] } := by
  rw [file, FieldValue.messageText?_eq]
  by_cases hname : f.name = "message"
  · cases htext : f.value.isText with
    | true => simp [Field.isTaken, Field.isMessage, hname, htext, Field.text]
    | false => simp [Field.isTaken, Field.isMessage, hname, htext, Field.attr]
  · simp [Field.isTaken, Field.isMessage, hname, Field.attr]

/-- Of the fields that are taken as the message the last one counts, and all other fields follow
the attributes in their order. -/
theorem foldl_file (c : Collected) (fields : List Field) :
    fields.foldl file c =
      { message := ((fields.filter Field.isTaken).getLast?.map Field.text).getD c.message
        attrs := c.attrs ++ (fields.filter fun f => !f.isTaken).map Field.attr } := by
  induction fields generalizing c with
  | nil => simp
  | cons f rest ih =>
      rw [List.foldl_cons, ih, file_eq]
      cases htaken : f.isTaken with
      | true =>
          -- `f` is the message unless a later field is
          rw [if_pos rfl, List.filter_cons_of_pos htaken, List.getLast?_cons,
            List.filter_cons_of_neg (by simp [htaken])]
          cases (rest.filter Field.isTaken).getLast? with
          | none => rfl
          | some g => rfl
      | false =>
          rw [if_neg Bool.false_ne_true, List.filter_cons_of_neg (by simp [htaken]),
            List.filter_cons_of_pos (by simp [htaken]), List.map_cons, List.append_assoc,
            List.singleton_append]

end Collected

section Records

variable (level : EventLevel) (now : Instant) {fields : List Field}

/-- The record of an event, whatever its fields are. -/
theorem eventRecord_eq (fields : List Field) :
    eventRecord level fields now =
      { level := level.level
        message := ((fields.filter Field.isTaken).getLast?.map Field.text).getD ""
        time := now
        attrs := (fields.filter fun f => !f.isTaken).map Field.attr } := by
  simp only [eventRecord, Collected.ofFields, Collected.foldl_file, List.nil_append]

/-- Of two texts named `message` the last one counts. -/
example : (eventRecord .info [⟨"message", .str "a"⟩, ⟨"message", .debug "b"⟩] now).message = "b" :=
  rfl

/-- If a search can have one result only, it does not matter from where it starts. -/
theorem getLast?_filter_of_countP_le_one {α : Type} {kind : α → Bool} {l : List α}
    (hone : l.countP kind ≤ 1) : (l.filter kind).getLast? = l.find? kind := by
  rw [List.countP_eq_length_filter] at hone
  rw [← List.head?_filter]
  match l.filter kind, hone with
  | [], _ => rfl
  | [x], _ => rfl

/-- If the message is a text, the rule is kept. -/
theorem filedByName_of_isText (hone : fields.countP Field.isMessage ≤ 1)
    (htext : ∀ f ∈ fields, f.isMessage = true → f.value.isText = true) :
    (eventRecord level fields now).FiledByName fields := by
  have htaken : ∀ f ∈ fields, f.isTaken = f.isMessage :=
    fun f hf => Field.isTaken_eq_isMessage (htext f hf)
  have hmessage : fields.filter Field.isTaken = fields.filter Field.isMessage :=
    List.filter_congr htaken
  have hattrs : (fields.filter fun f => !f.isTaken) = fields.filter fun f => !f.isMessage :=
    List.filter_congr fun f hf => congrArg (! ·) (htaken f hf)
  rw [eventRecord_eq, hmessage, hattrs, getLast?_filter_of_countP_le_one hone]
  exact ⟨rfl, rfl⟩

/-- A message that is no text is filed as an attribute, like all other fields. -/
theorem eventRecord_of_not_isText (hone : fields.countP Field.isMessage ≤ 1) {f : Field}
    (hf : f ∈ fields) (hmessage : f.isMessage = true) (hnot : f.value.isText = false) :
    (eventRecord level fields now).message = "" ∧
      (eventRecord level fields now).attrs = fields.map Field.attr := by
  have hnone : ∀ g ∈ fields, g.isTaken = false := by
    intro g hg
    refine Bool.eq_false_iff.mpr fun htaken => ?_
    obtain ⟨hgmessage, hgtext⟩ := Bool.and_eq_true_iff.mp htaken
    -- there is one message only, and it is no text
    obtain rfl := eq_of_countP_le_one hone hf hg hmessage hgmessage
    rw [hnot] at hgtext
    cases hgtext
  have htaken : fields.filter Field.isTaken = [] :=
    List.filter_eq_nil_iff.mpr fun g hg => Bool.eq_false_iff.mp (hnone g hg)
  have hall : (fields.filter fun g => !g.isTaken) = fields :=
    List.filter_eq_self.mpr fun g hg => by rw [hnone g hg]; rfl
  rw [eventRecord_eq, htaken, hall]
  exact ⟨rfl, rfl⟩

/-- By the rule, a field named `message` is not among the attributes. -/
theorem Record.FiledByName.length_attrs_lt {r : Record} (h : r.FiledByName fields) {f : Field}
    (hf : f ∈ fields) (hmessage : f.isMessage = true) : r.attrs.length < fields.length := by
  rw [h.attrs, List.length_map]
  refine List.length_filter_lt_length_iff_exists.mpr ⟨f, hf, ?_⟩
  rw [hmessage]
  exact Bool.false_ne_true

/-- The rule is kept if and only if the message, if there is one, is a text. -/
theorem filedByName_iff (hone : fields.countP Field.isMessage ≤ 1) :
    (eventRecord level fields now).FiledByName fields ↔
      ∀ f ∈ fields, f.isMessage = true → f.value.isText = true := by
  constructor
  · intro hfiled f hf hmessage
    cases htext : f.value.isText with
    | true => rfl
    | false =>
        obtain ⟨-, hattrs⟩ := eventRecord_of_not_isText level now hone hf hmessage htext
        have hlt := hfiled.length_attrs_lt hf hmessage
        rw [hattrs, List.length_map] at hlt
        exact absurd hlt (Nat.lt_irrefl _)
  · exact filedByName_of_isText level now hone

end Records

/-! ## What reaches the layers -/

variable {κ σ : Type} [Sink κ σ]

/-- Gives a record to a chain, if the level of the record is enabled in the context. -/
def handOver (cx : Context) (r : Record) (h : Handler κ σ) (st : Store κ σ) :
    Outcome × Store κ σ :=
  if h.enabled (st.view cx) r.level st.world then h.handle cx r st else (.ok, st)

/-- With layers installed, the record of an event is given to one after the other. -/
theorem Host.emit_handOver {host : Host κ σ} {i : Nat} {layers : List (Handler κ σ)}
    (hinstalled : host.subscriber = some (.layered i layers)) (parent : Parent)
    (level : EventLevel) (fields : List Field) :
    let given := performAll
      (handOver (host.eventContext i parent) (eventRecord level fields host.now)) layers host.store
    host.emit parent level fields =
      (decide (.aborted ∉ given.1), { host with store := given.2 }) := by
  rw [Host.emit_of_installed hinstalled, bridgeAll_eq]
  rfl

/-- **Fields are filed by name, unless a number or a truth value is named `message`.** The layers
are given the record of the event in turn, up to one whose call is aborted, each if the level is
enabled there; it has the level and the time of the event. Where at most one field is named
`message`, the record is filed by name if and only if no such field is a number or a truth value.
Otherwise the message is empty, and all fields are attributes, in order and in their types, the
one named `message` among them. -/
theorem events_filed_by_name (host : Host κ σ) {i : Nat} {layers : List (Handler κ σ)}
    (hinstalled : host.subscriber = some (.layered i layers)) (parent : Parent)
    (level : EventLevel) {fields : List Field} (hone : fields.countP Field.isMessage ≤ 1) :
    let r := eventRecord level fields host.now
    let given := performAll (handOver (host.eventContext i parent) r) layers host.store
    host.emit parent level fields =
        (decide (.aborted ∉ given.1), { host with store := given.2 }) ∧
      r.level = level.level ∧ r.time = host.now ∧
      (r.FiledByName fields ↔ ∀ f ∈ fields, f.isMessage = true → f.value.isText = true) ∧
      (¬ r.FiledByName fields → r.message = "" ∧ r.attrs = fields.map Field.attr) := by
  intro r given
  refine ⟨Host.emit_handOver hinstalled parent level fields, rfl, rfl,
    filedByName_iff level host.now hone, fun hnot => ?_⟩
  rw [filedByName_iff level host.now hone] at hnot
  simp only [Classical.not_forall] at hnot
  obtain ⟨f, hf, hmessage, hntext⟩ := hnot
  exact eventRecord_of_not_isText level host.now hone hf hmessage (Bool.eq_false_iff.mpr hntext)

/-- A message for debugging between attributes, two of them of the same name. -/
theorem events_filed_by_name_debugged :
    let layers : List (Handler Endpoint World) := [.sink (.recorder { name := "r" })]
    let host : Host Endpoint World := (Host.ofWorld {} ⟨0⟩).install layers
    let fields : List Field :=
      [⟨"user", .str "alice"⟩, ⟨"message", .debug "loading profile"⟩, ⟨"attempt", .uint 1⟩,
        ⟨"user", .bool true⟩]
    let r : Record :=
      ⟨.info, "loading profile", ⟨0⟩,
        [⟨"user", .str "alice"⟩, ⟨"attempt", .uint 1⟩, ⟨"user", .bool true⟩]⟩
    host.subscriber = some (.layered 0 layers) ∧ fields.countP Field.isMessage ≤ 1 ∧
      host.emit .current .info fields =
        (true, { host with store := (performAll (handOver .empty r) layers host.store).2 }) ∧
      r.FiledByName fields := by
  intro layers host fields r
  have hinstalled : host.subscriber = some (.layered 0 layers) := rfl
  have hone : fields.countP Field.isMessage ≤ 1 := by decide
  obtain ⟨hemitted, -, -, hfiled, -⟩ := events_filed_by_name host hinstalled .current .info hone
  exact ⟨hinstalled, hone, hemitted, hfiled.mpr (by decide)⟩

/-- The number 5 named `message` does not become the message; it is one more attribute. -/
theorem number_misfiled :
    let host : Host Endpoint World :=
      (Host.ofWorld {} ⟨0⟩).install [.sink (.recorder { name := "r" })]
    let fields : List Field := [⟨"code", .int 503⟩, ⟨"message", .int 5⟩]
    let r : Record := ⟨.info, "", ⟨0⟩, [⟨"code", .int 503⟩, ⟨"message", .int 5⟩]⟩
    fields.countP Field.isMessage ≤ 1 ∧
      (host.emit .current .info fields).2.store.world.received =
        [("r", .record [] false ⟨none, false⟩ r)] ∧
      ¬ r.FiledByName fields := by
  intro host fields r
  refine ⟨by decide, rfl, fun hfiled => ?_⟩
  have hmessage : "" = "5" := hfiled.message
  exact absurd hmessage (by decide)

end LogAdmission
