import LogAdmission.Proofs.Trace.Grammar

/-!
# Writing and reading headers

A written header is a text in the grammar, of version `00` and with nothing after the flags,
that stands for the trace it was written from. By the classification of all texts it is read
as that trace. In the other direction the digits of a header are determined by the trace that
they stand for, so that a header that has been read is written again except for its version
and what follows its flags.
-/

namespace LogAdmission

open Numeral

namespace TraceContext

/-- The parts of the header that is written for a trace. -/
def parts (t : TraceContext) : HeaderParts where
  version := ['0', '0']
  traceId := hexField 32 t.traceId.toNat
  spanId := hexField 16 t.spanId.toNat
  flags := hexField 2 t.flags.toNat
  more := none

theorem toList_toHeader (t : TraceContext) : t.toHeader.toList = t.parts.text := by
  simp [toHeader, HeaderParts.text, parts]

/-- A word of four bits for each digit fits into a field. -/
theorem isHexField_word {bits : Nat} (width : Nat) (hfits : 16 ^ width = 2 ^ bits)
    (x : BitVec bits) :
    IsHexField width (hexField width x.toNat) ∧ placeValue (hexField width x.toNat) = x.toNat :=
  isHexField_hexField (hfits ▸ x.isLt)

theorem wellFormed_parts (t : TraceContext) : t.parts.WellFormed where
  version := ⟨rfl, by simp [parts, hexAlphabet]⟩
  traceId := (isHexField_word 32 (by decide) t.traceId).1
  spanId := (isHexField_word 16 (by decide) t.spanId).1
  flags := (isHexField_word 2 (by decide) t.flags).1
  supported := by simp [parts]
  ending _ := rfl

theorem denotes_parts (t : TraceContext) : t.parts.Denotes t where
  traceId := (isHexField_word 32 (by decide) t.traceId).2.symm
  spanId := (isHexField_word 16 (by decide) t.spanId).2.symm
  flags := (isHexField_word 2 (by decide) t.flags).2.symm

end TraceContext

/-! ## What the digits of a header determine -/

namespace HeaderParts

variable {p : HeaderParts} {t : TraceContext}

/-- Digits of one value are the same. -/
theorem field_eq_hexField {width n : Nat} {field : List Char} (h : IsHexField width field)
    (hvalue : n = placeValue field) : field = hexField width n :=
  (readHexField_eq_some_iff.mp (readHexField_eq_some_iff_value.mpr ⟨h, hvalue⟩)).2

/-- The fields are those that the trace is written in. -/
theorem fields_eq (h : p.WellFormed) (hdenotes : p.Denotes t) :
    p.traceId = t.parts.traceId ∧ p.spanId = t.parts.spanId ∧ p.flags = t.parts.flags :=
  ⟨field_eq_hexField h.traceId hdenotes.traceId, field_eq_hexField h.spanId hdenotes.spanId,
    field_eq_hexField h.flags hdenotes.flags⟩

theorem hasZeroId_iff (h : p.WellFormed) (hdenotes : p.Denotes t) :
    p.HasZeroId ↔ t.isValid = false := by
  rw [HasZeroId, ← placeValue_eq_zero_iff h.traceId, ← placeValue_eq_zero_iff h.spanId,
    ← hdenotes.traceId, ← hdenotes.spanId]
  simp [TraceContext.isValid, ← BitVec.toNat_inj, or_iff_not_imp_left]

/-- Written again, a header of version `00` is the same. -/
theorem text_of_first_version (h : p.WellFormed) (hdenotes : p.Denotes t)
    (hversion : p.version = ['0', '0']) : p.text = t.parts.text := by
  obtain ⟨htrace, hspan, hflags⟩ := fields_eq h hdenotes
  have hmore : p.more = none := h.ending hversion
  simp only [text, hversion, hmore, htrace, hspan, hflags]
  rfl

theorem take_version (h : p.WellFormed) : p.text.take 2 = p.version := by
  have hlen : p.version.length = 2 := h.version.1
  simp only [text, List.append_assoc]
  exact List.take_left' hlen

/-- The dashes and fields between the version and the end of the flags. -/
theorem take_fields (h : p.WellFormed) :
    (p.text.drop 2).take 53 = '-' :: p.traceId ++ '-' :: p.spanId ++ '-' :: p.flags := by
  have hversion : p.version.length = 2 := h.version.1
  have hlen : ('-' :: p.traceId ++ '-' :: p.spanId ++ '-' :: p.flags).length = 53 := by
    simp [h.traceId.1, h.spanId.1, h.flags.1]
  have htext : p.text = p.version ++ (('-' :: p.traceId ++ '-' :: p.spanId ++ '-' :: p.flags) ++
      p.more.elim [] ('-' :: ·)) := by
    simp [text]
  rw [htext, List.drop_left' hversion, List.take_left' hlen]

end HeaderParts

namespace TraceContext

variable {header : String}

/-- A written header begins with a digit and ends in one. -/
theorem trimmed_toHeader (t : TraceContext) {before after : List Char}
    (hbefore : ∀ c ∈ before, Text.isBlank c = true) (hafter : ∀ c ∈ after, Text.isBlank c = true) :
    Text.Trimmed (before ++ t.toHeader.toList ++ after) t.toHeader.toList := by
  refine ⟨⟨before, after, rfl, hbefore, hafter⟩, ?_, ?_⟩
  · intro c hc
    rw [toList_toHeader] at hc
    obtain rfl : '0' = c := by simpa [HeaderParts.text, parts] using hc
    rfl
  · intro c hc
    have hflags : IsHexField 2 t.parts.flags := t.wellFormed_parts.flags
    have hlast : c ∈ t.parts.flags := by
      have hne : t.parts.flags ≠ [] := List.ne_nil_of_length_pos (by rw [hflags.1]; decide)
      have htext : t.parts.text =
          t.parts.version ++ '-' :: t.parts.traceId ++ '-' :: t.parts.spanId ++ ['-'] ++
            t.parts.flags := by
        simp [HeaderParts.text, parts]
      rw [toList_toHeader, htext, List.getLast?_append,
        Option.or_of_isSome (List.getLast?_isSome.mpr hne)] at hc
      exact List.mem_of_getLast? hc
    have hdigits : hexAlphabet.all (fun d => !Text.isBlank d) = true := by decide
    simpa using List.all_eq_true.mp hdigits c (hflags.2 c hlast)

/-- A written header is read as its trace if that can be. -/
theorem ofHeader_toHeader {t : TraceContext}
    (htext : Text.trim header.toList = t.toHeader.toList) :
    ofHeader header = if t.isValid then .ok t else .error .zeroId := by
  rw [toList_toHeader] at htext
  have hids := HeaderParts.hasZeroId_iff t.wellFormed_parts t.denotes_parts
  split
  · rename_i hvalid
    have hnot : ¬t.parts.HasZeroId := by simp [hids, hvalid]
    exact (ofHeader_of_ids t.wellFormed_parts htext hnot t).mpr t.denotes_parts
  · rename_i hvalid
    apply ofHeader_of_hasZeroId t.wellFormed_parts htext
    rw [hids]
    exact eq_false_of_ne_true hvalid

/-- A header that has been read, and how its trace is written. -/
theorem toHeader_of_ofHeader {t : TraceContext} (h : ofHeader header = .ok t) :
    t.isValid = true ∧
      t.toHeader.toList =
        if (Text.trim header.toList).take 2 = ['0', '0'] then Text.trim header.toList
        else ['0', '0'] ++ ((Text.trim header.toList).drop 2).take 53 := by
  have hverdict := verdict_ofHeader header
  rw [h] at hverdict
  cases hverdict with
  | accepted p t form parts ids denotes =>
      rw [HeaderParts.hasZeroId_iff form denotes, Bool.not_eq_false] at ids
      refine ⟨ids, ?_⟩
      rw [toList_toHeader, ← parts, HeaderParts.take_version form]
      split
      · rename_i hversion
        exact (HeaderParts.text_of_first_version form denotes hversion).symm
      · obtain ⟨htrace, hspan, hflags⟩ := HeaderParts.fields_eq form denotes
        rw [HeaderParts.take_fields form, htrace, hspan, hflags]
        simp [HeaderParts.text, TraceContext.parts]

/-- **Writing and reading are inverse.** With any blank characters around it, the header
written for a trace is read as that trace, or refused for its ids if one is zero. A trace that
has been read is valid, and what is written for it is read as the same trace again: this is
the header without the blank characters around it if its version is `00`, and otherwise the
version `00` in front of the header's characters 2 to 54. -/
theorem header_round_trip (t : TraceContext) :
    (∀ before after : String, (∀ c ∈ before.toList, Text.isBlank c = true) →
      (∀ c ∈ after.toList, Text.isBlank c = true) →
        ofHeader (before ++ t.toHeader ++ after) =
          if t.isValid then .ok t else .error .zeroId) ∧
    ∀ header, ofHeader header = .ok t →
      t.isValid = true ∧ ofHeader t.toHeader = .ok t ∧
      ∃ text, Text.Trimmed header.toList text ∧
        t.toHeader.toList =
          if text.take 2 = ['0', '0'] then text else ['0', '0'] ++ (text.drop 2).take 53 := by
  constructor
  · intro before after hbefore hafter
    apply ofHeader_toHeader
    simp only [String.toList_append]
    exact (t.trimmed_toHeader hbefore hafter).eq_trim.symm
  · intro header h
    obtain ⟨hvalid, hwritten⟩ := toHeader_of_ofHeader h
    refine ⟨hvalid, ?_, Text.trim header.toList, Text.trimmed_trim _, hwritten⟩
    have htrimmed : Text.Trimmed t.toHeader.toList t.toHeader.toList := by
      simpa using t.trimmed_toHeader (List.forall_mem_nil _) (List.forall_mem_nil _)
    rw [ofHeader_toHeader htrimmed.eq_trim.symm, if_pos hvalid]

/-- A header of a later version that goes on after its flags, and blank characters around what
is written for its trace. -/
theorem header_round_trip_later_version :
    ∃ t, ofHeader "\n01-0af7651916cd43dd8448eb211c80319c-00f067aa0ba902b7-01-more " = .ok t ∧
      t.isValid = true ∧
      t.toHeader = "00-0af7651916cd43dd8448eb211c80319c-00f067aa0ba902b7-01" ∧
      ofHeader ("\t" ++ t.toHeader ++ "\r\n") = .ok t := by
  let t : TraceContext := ⟨0x0af7651916cd43dd8448eb211c80319c, 0x00f067aa0ba902b7, 1⟩
  have hread :
      ofHeader "\n01-0af7651916cd43dd8448eb211c80319c-00f067aa0ba902b7-01-more " = .ok t := rfl
  obtain ⟨hvalid, -, text, htrimmed, hwritten⟩ := (header_round_trip t).2 _ hread
  have haround := (header_round_trip t).1 "\t" "\r\n" (List.all_eq_true.mp (by decide))
    (List.all_eq_true.mp (by decide))
  rw [htrimmed.eq_trim] at hwritten
  refine ⟨t, hread, hvalid, String.toList_inj.mp (hwritten.trans (by decide)), ?_⟩
  rw [haround, if_pos hvalid]

end TraceContext

end LogAdmission
