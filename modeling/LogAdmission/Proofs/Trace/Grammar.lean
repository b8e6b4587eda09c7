import LogAdmission.Proofs.Text.Hexadecimal
import LogAdmission.Proofs.Text.Trim
import LogAdmission.Trace.Header

/-!
# The grammar of headers

What a header looks like (`HeaderParts`), told without a reader, and that the reader accepts
the headers of this form and no others. Every other text is refused for exactly one of three
reasons, and the reasons do not overlap: each of the four cases has a lemma that gives the
answer, and the cases exhaust all texts.
-/

namespace LogAdmission

open Numeral

/-- The parts of a header: four fields, and the text after a further dash, if there is one. -/
structure HeaderParts where
  version : List Char
  traceId : List Char
  spanId : List Char
  flags : List Char
  more : Option (List Char)

namespace HeaderParts

/-- The parts behind one another. -/
def text (p : HeaderParts) : List Char :=
  p.version ++ '-' :: p.traceId ++ '-' :: p.spanId ++ '-' :: p.flags ++ p.more.elim [] ('-' :: ·)

/-- The grammar. -/
structure WellFormed (p : HeaderParts) : Prop where
  version : IsHexField 2 p.version
  traceId : IsHexField 32 p.traceId
  spanId : IsHexField 16 p.spanId
  flags : IsHexField 2 p.flags
  supported : p.version ≠ ['f', 'f']
  /-- Only later versions go on after the flags. -/
  ending : p.version = ['0', '0'] → p.more = none

/-- Whether one of the ids has no digit other than zero. -/
def HasZeroId (p : HeaderParts) : Prop :=
  p.traceId = List.replicate 32 '0' ∨ p.spanId = List.replicate 16 '0'

instance (p : HeaderParts) : Decidable p.HasZeroId :=
  inferInstanceAs (Decidable (_ ∨ _))

/-- The trace that the digits stand for. -/
structure Denotes (p : HeaderParts) (t : TraceContext) : Prop where
  traceId : t.traceId.toNat = placeValue p.traceId
  spanId : t.spanId.toNat = placeValue p.spanId
  flags : t.flags.toNat = placeValue p.flags

end HeaderParts

/-- The version of a text has no reader: it is reserved, or goes on where it must not. -/
def VersionRefused (text : List Char) : Prop :=
  4 ≤ (text.splitOn '-').length ∧
    ((text.splitOn '-').head? = some ['f', 'f'] ∨
      (text.splitOn '-').head? = some ['0', '0'] ∧ 4 < (text.splitOn '-').length)

namespace TraceContext

variable {header : String} {version traceId spanId flags : List Char} {more : List (List Char)}

theorem dashFields_eq_splitOn (text : List Char) : dashFields text = text.splitOn '-' := by
  induction text with
  | nil => rfl
  | cons c rest ih =>
      rw [dashFields, ih, List.splitOn_cons_eq_if_modifyHead]
      simp only [beq_iff_eq]
      split
      · rfl
      · obtain ⟨field, fields, heq⟩ := List.exists_cons_of_ne_nil (List.splitOn_ne_nil '-' rest)
        rw [heq]
        rfl

theorem dash_notMem {width : Nat} {field : List Char} (h : IsHexField width field) :
    '-' ∉ field := by
  intro hmem
  have hdigit := h.2 '-' hmem
  revert hdigit
  decide

/-- The fields of a text in the grammar. -/
theorem splitOn_text {p : HeaderParts} (h : p.WellFormed) :
    p.text.splitOn '-' =
      p.version :: p.traceId :: p.spanId :: p.flags :: p.more.elim [] (·.splitOn '-') := by
  simp only [HeaderParts.text, List.append_assoc, List.cons_append]
  rw [List.splitOn_append_cons_self_of_not_mem (dash_notMem h.version),
    List.splitOn_append_cons_self_of_not_mem (dash_notMem h.traceId),
    List.splitOn_append_cons_self_of_not_mem (dash_notMem h.spanId)]
  cases p.more with
  | none =>
      rw [Option.elim_none, List.append_nil, List.splitOn_eq_singleton (dash_notMem h.flags)]
      rfl
  | some rest =>
      rw [Option.elim_some, List.splitOn_append_cons_self_of_not_mem (dash_notMem h.flags)]
      rfl

/-- A text with four fields and more has the parts of a header. -/
theorem exists_parts {text : List Char}
    (h : text.splitOn '-' = version :: traceId :: spanId :: flags :: more) :
    ∃ rest, (HeaderParts.mk version traceId spanId flags rest).text = text ∧
      (more = [] → rest = none) := by
  have htext : ['-'].intercalate (text.splitOn '-') = text := List.intercalate_splitOn '-'
  rw [h] at htext
  simp only [List.intercalate_cons_cons] at htext
  cases more with
  | nil =>
      refine ⟨none, ?_, fun _ => rfl⟩
      rw [← htext]
      simp [HeaderParts.text, List.intercalate]
  | cons field fields =>
      refine ⟨some (['-'].intercalate (field :: fields)), ?_, nofun⟩
      rw [← htext, List.intercalate_cons_cons]
      simp [HeaderParts.text]

/-! ## The answers -/

theorem readHexField_of_isHexField {width : Nat} {field : List Char}
    (h : IsHexField width field) : readHexField width field = some (placeValue field) :=
  readHexField_eq_some_iff_value.mpr ⟨h, rfl⟩

/-- The value of a version has one spelling. -/
theorem version_eq {value : Nat} (h : readHexField 2 version = some value) :
    (value = 0xff ↔ version = ['f', 'f']) ∧ (value = 0 ↔ version = ['0', '0']) := by
  obtain ⟨-, rfl⟩ := readHexField_eq_some_iff.mp h
  have hinjective : ∀ n, readHexField 2 (hexField 2 value) = some n ↔ value = n := by
    intro n
    rw [h, Option.some.injEq]
  constructor
  · refine ⟨fun hv => hv ▸ rfl, fun hv => ?_⟩
    rw [← hinjective, hv]
    rfl
  · refine ⟨fun hv => hv ▸ rfl, fun hv => ?_⟩
    rw [← hinjective, hv]
    rfl

theorem ofHeader_of_fields {value : Nat} (hfields : (Text.trim header.toList).splitOn '-' =
      version :: traceId :: spanId :: flags :: more)
    (hversion : readHexField 2 version = some value) :
    ofHeader header =
      if value = 0xff ∨ (value = 0 ∧ more ≠ []) then .error .version
      else ofFields traceId spanId flags := by
  simp only [ofHeader, dashFields_eq_splitOn, hfields, hversion]

/-- A text in the grammar is refused only for its ids. -/
theorem ofHeader_of_wellFormed {p : HeaderParts} (h : p.WellFormed)
    (htext : Text.trim header.toList = p.text) :
    ofHeader header = ofFields p.traceId p.spanId p.flags := by
  have hread := readHexField_of_isHexField h.version
  obtain ⟨hreserved, hfirst⟩ := version_eq hread
  rw [ofHeader_of_fields (htext ▸ splitOn_text h) hread, if_neg]
  rintro (hff | ⟨hzero, hmore⟩)
  · exact h.supported (hreserved.mp hff)
  · apply hmore
    rw [h.ending (hfirst.mp hzero)]
    rfl

theorem ofFields_of_isHexField {p : HeaderParts} (h : p.WellFormed) :
    ofFields p.traceId p.spanId p.flags =
      if p.HasZeroId then .error .zeroId
      else .ok ⟨BitVec.ofNat 128 (placeValue p.traceId), BitVec.ofNat 64 (placeValue p.spanId),
        BitVec.ofNat 8 (placeValue p.flags)⟩ := by
  have hids : (placeValue p.traceId = 0 ∨ placeValue p.spanId = 0) = p.HasZeroId := by
    rw [placeValue_eq_zero_iff h.traceId, placeValue_eq_zero_iff h.spanId, HeaderParts.HasZeroId]
  simp only [ofFields, readHexField_of_isHexField h.traceId, readHexField_of_isHexField h.spanId,
    readHexField_of_isHexField h.flags, hids]

theorem ofHeader_of_hasZeroId {p : HeaderParts} (h : p.WellFormed)
    (htext : Text.trim header.toList = p.text) (hzero : p.HasZeroId) :
    ofHeader header = .error .zeroId := by
  rw [ofHeader_of_wellFormed h htext, ofFields_of_isHexField h, if_pos hzero]

/-- A word holds the value of as many digits as fit into it. -/
theorem toNat_ofNat_placeValue {width : Nat} {field : List Char} (h : IsHexField width field)
    (bits : Nat) (hfits : 16 ^ width = 2 ^ bits) :
    (BitVec.ofNat bits (placeValue field)).toNat = placeValue field := by
  have hlt := (readHexField_eq_some_iff.mp (readHexField_of_isHexField h)).1
  rw [BitVec.toNat_ofNat, Nat.mod_eq_of_lt (hfits ▸ hlt)]

theorem ofHeader_of_ids {p : HeaderParts} (h : p.WellFormed)
    (htext : Text.trim header.toList = p.text) (hids : ¬p.HasZeroId) (t : TraceContext) :
    ofHeader header = .ok t ↔ p.Denotes t := by
  have htrace := toNat_ofNat_placeValue h.traceId 128 (by decide)
  have hspan := toNat_ofNat_placeValue h.spanId 64 (by decide)
  have hflags := toNat_ofNat_placeValue h.flags 8 (by decide)
  rw [ofHeader_of_wellFormed h htext, ofFields_of_isHexField h, if_neg hids, Except.ok.injEq]
  constructor
  · rintro rfl
    exact ⟨htrace, hspan, hflags⟩
  · intro hdenotes
    obtain ⟨traceId, spanId, flags⟩ := t
    simp only [mk.injEq, ← BitVec.toNat_inj, htrace, hspan, hflags]
    exact ⟨hdenotes.traceId.symm, hdenotes.spanId.symm, hdenotes.flags.symm⟩

theorem exists_four_fields {fields : List (List Char)} (h : 4 ≤ fields.length) :
    ∃ version traceId spanId flags more,
      fields = version :: traceId :: spanId :: flags :: more := by
  match fields, h with
  | version :: traceId :: spanId :: flags :: more, _ => exact ⟨_, _, _, _, _, rfl⟩

/-- Of four fields and more, one of the version `00` has more than four if any follow. -/
theorem four_lt_length_iff :
    4 < (version :: traceId :: spanId :: flags :: more).length ↔ more ≠ [] := by
  rw [← List.length_pos_iff]
  simp only [List.length_cons]
  omega

theorem ofHeader_of_versionRefused (h : VersionRefused (Text.trim header.toList)) :
    ofHeader header = .error .version := by
  obtain ⟨hfour, hversion⟩ := h
  obtain ⟨version, traceId, spanId, flags, more, hfields⟩ := exists_four_fields hfour
  rw [hfields, four_lt_length_iff] at hversion
  rcases hversion with hff | ⟨hzero, hmore⟩
  · obtain rfl : version = ['f', 'f'] := Option.some.inj hff
    have hread : readHexField 2 ['f', 'f'] = some 0xff := rfl
    rw [ofHeader_of_fields hfields hread, if_pos (.inl rfl)]
  · obtain rfl : version = ['0', '0'] := Option.some.inj hzero
    have hread : readHexField 2 ['0', '0'] = some 0 := rfl
    rw [ofHeader_of_fields hfields hread, if_pos (.inr ⟨rfl, hmore⟩)]

theorem ofFields_of_not_isHexField
    (h : ¬(IsHexField 32 traceId ∧ IsHexField 16 spanId ∧ IsHexField 2 flags)) :
    ofFields traceId spanId flags = .error .format := by
  unfold ofFields
  split
  · rename_i t s f htrace hspan hflags
    exact absurd ⟨(readHexField_eq_some_iff_value.mp htrace).1,
      (readHexField_eq_some_iff_value.mp hspan).1,
      (readHexField_eq_some_iff_value.mp hflags).1⟩ h
  · rfl

/-- A text that has neither the form of a header nor a version to refuse. -/
theorem ofHeader_of_formless (hversion : ¬VersionRefused (Text.trim header.toList))
    (hform : ∀ p : HeaderParts, p.WellFormed → p.text ≠ Text.trim header.toList) :
    ofHeader header = .error .format := by
  by_cases hfour : 4 ≤ ((Text.trim header.toList).splitOn '-').length
  · obtain ⟨version, traceId, spanId, flags, more, hfields⟩ := exists_four_fields hfour
    cases hread : readHexField 2 version with
    | none => simp only [ofHeader, dashFields_eq_splitOn, hfields, hread]
    | some value =>
        obtain ⟨hreserved, hfirst⟩ := version_eq hread
        have hsupported : ¬(value = 0xff ∨ (value = 0 ∧ more ≠ [])) := by
          intro hrefused
          apply hversion
          refine ⟨hfour, ?_⟩
          rw [hfields, four_lt_length_iff]
          rcases hrefused with hff | ⟨hzero, hmore⟩
          · exact .inl (congrArg some (hreserved.mp hff))
          · exact .inr ⟨congrArg some (hfirst.mp hzero), hmore⟩
        rw [ofHeader_of_fields hfields hread, if_neg hsupported]
        apply ofFields_of_not_isHexField
        rintro ⟨htrace, hspan, hflags⟩
        obtain ⟨rest, htext, hrest⟩ := exists_parts hfields
        refine hform ⟨version, traceId, spanId, flags, rest⟩ ?_ htext
        refine ⟨(readHexField_eq_some_iff_value.mp hread).1, htrace, hspan, hflags, ?_, ?_⟩
        · exact fun hff => hsupported (.inl (hreserved.mpr hff))
        · intro hzero
          apply hrest
          apply Classical.byContradiction
          exact fun hmore => hsupported (.inr ⟨hfirst.mpr hzero, hmore⟩)
  · unfold ofHeader
    split
    · rename_i version traceId spanId flags more hfields
      rw [dashFields_eq_splitOn] at hfields
      rw [hfields] at hfour
      exact absurd (Nat.le_add_left 4 more.length) hfour
    · rfl

/-- The four cases, each with its answer. -/
inductive Verdict (text : List Char) : Except HeaderError TraceContext → Prop where
  | accepted (p : HeaderParts) (t : TraceContext) (form : p.WellFormed) (parts : p.text = text)
      (ids : ¬p.HasZeroId) (denotes : p.Denotes t) : Verdict text (.ok t)
  | version (refused : VersionRefused text) : Verdict text (.error .version)
  | zeroId (p : HeaderParts) (form : p.WellFormed) (parts : p.text = text)
      (zero : p.HasZeroId) : Verdict text (.error .zeroId)
  | format (version : ¬VersionRefused text)
      (formless : ∀ p : HeaderParts, p.WellFormed → p.text ≠ text) : Verdict text (.error .format)

/-- The cases exhaust all texts. -/
theorem verdict_ofHeader (header : String) :
    Verdict (Text.trim header.toList) (ofHeader header) := by
  by_cases hversion : VersionRefused (Text.trim header.toList)
  · rw [ofHeader_of_versionRefused hversion]
    exact .version hversion
  · by_cases hform : ∃ p : HeaderParts, p.WellFormed ∧ p.text = Text.trim header.toList
    · obtain ⟨p, hp, htext⟩ := hform
      by_cases hzero : p.HasZeroId
      · rw [ofHeader_of_hasZeroId hp htext.symm hzero]
        exact .zeroId p hp htext hzero
      · have hok := ofHeader_of_wellFormed hp htext.symm
        rw [ofFields_of_isHexField hp, if_neg hzero] at hok
        have hdenotes := (ofHeader_of_ids hp htext.symm hzero _).mp hok
        rw [hok]
        exact .accepted p _ hp htext hzero hdenotes
    · have hnone : ∀ p : HeaderParts, p.WellFormed → p.text ≠ Text.trim header.toList :=
        fun p hp htext => hform ⟨p, hp, htext⟩
      rw [ofHeader_of_formless hversion hnone]
      exact .format hversion hnone

/-- **Every text is classified.** Without the blank characters around it, a text is read if
and only if it is in the grammar and neither id is zero, and as the trace that its digits
stand for. It is refused for its version if and only if its first of at least four fields is
`ff`, or is `00` and there are more than four; for an id if and only if it is in the grammar
except that an id is zero; and for its form in every other case. -/
theorem ofHeader_classifies (header : String) :
    ∃ text, Text.Trimmed header.toList text ∧
      (∀ t, ofHeader header = .ok t ↔
        ∃ p : HeaderParts, p.WellFormed ∧ p.text = text ∧ ¬p.HasZeroId ∧ p.Denotes t) ∧
      (ofHeader header = .error .version ↔ VersionRefused text) ∧
      (ofHeader header = .error .zeroId ↔
        ∃ p : HeaderParts, p.WellFormed ∧ p.text = text ∧ p.HasZeroId) ∧
      (ofHeader header = .error .format ↔
        ¬VersionRefused text ∧ ∀ p : HeaderParts, p.WellFormed → p.text ≠ text) := by
  have hverdict := verdict_ofHeader header
  refine ⟨Text.trim header.toList, Text.trimmed_trim _, ?_, ?_, ?_, ?_⟩
  · intro t
    constructor
    · intro h
      rw [h] at hverdict
      cases hverdict with
      | accepted p t hp htext hids hdenotes => exact ⟨p, hp, htext, hids, hdenotes⟩
    · rintro ⟨p, hp, htext, hids, hdenotes⟩
      exact (ofHeader_of_ids hp htext.symm hids t).mpr hdenotes
  · constructor
    · intro h
      rw [h] at hverdict
      cases hverdict with
      | version hversion => exact hversion
    · exact ofHeader_of_versionRefused
  · constructor
    · intro h
      rw [h] at hverdict
      cases hverdict with
      | zeroId p hp htext hzero => exact ⟨p, hp, htext, hzero⟩
    · rintro ⟨p, hp, htext, hzero⟩
      exact ofHeader_of_hasZeroId hp htext.symm hzero
  · constructor
    · intro h
      rw [h] at hverdict
      cases hverdict with
      | format hversion hform => exact ⟨hversion, hform⟩
    · rintro ⟨hversion, hform⟩
      exact ofHeader_of_formless hversion hform

end TraceContext

end LogAdmission
