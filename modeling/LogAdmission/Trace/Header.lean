import LogAdmission.Text.Blank
import LogAdmission.Trace.Basic

/-!
# The traceparent header

Reading and writing `version-traceid-spanid-flags`. All four fields are
lowercase hexadecimal digits of fixed width. Version `ff` is reserved, version
`00` ends after the flags, and later versions may append fields.
-/

namespace LogAdmission

/-- Why a header is refused. -/
inductive HeaderError where
  /-- The text does not have the four fields. -/
  | format
  /-- The version is reserved, or has fields that it must not have. -/
  | version
  /-- One of the ids is zero. -/
  | zeroId
  deriving DecidableEq

namespace HeaderError

/-- The wording of the refusal. -/
def message : HeaderError → String
  | format => "traceparent must be `version-traceid-spanid-flags`"
  | version => "unsupported traceparent version"
  | zeroId => "trace id and span id must be non-zero"

end HeaderError

namespace TraceContext

/-- The fields between the dashes of a text. There is always at least one. -/
def dashFields : List Char → List (List Char)
  | [] => [[]]
  | c :: rest =>
    if c = '-' then [] :: dashFields rest
    else
      match dashFields rest with
      | [] => [[c]]
      | field :: fields => (c :: field) :: fields

/-- Reads the three fields after a supported version. -/
def ofFields (traceId spanId flags : List Char) : Except HeaderError TraceContext :=
  match Numeral.readHexField 32 traceId, Numeral.readHexField 16 spanId,
      Numeral.readHexField 2 flags with
  | some t, some s, some f =>
    if t = 0 ∨ s = 0 then .error .zeroId
    else .ok ⟨BitVec.ofNat 128 t, BitVec.ofNat 64 s, BitVec.ofNat 8 f⟩
  | _, _, _ => .error .format

/-- Reads a header; blank characters around it do not count. -/
def ofHeader (header : String) : Except HeaderError TraceContext :=
  match dashFields (Text.trim header.toList) with
  | version :: traceId :: spanId :: flags :: more =>
    match Numeral.readHexField 2 version with
    | none => .error .format
    | some v =>
      if v = 0xff ∨ (v = 0 ∧ more ≠ []) then .error .version
      else ofFields traceId spanId flags
  | _ => .error .format

/-- Writes a header of version `00`. -/
def toHeader (t : TraceContext) : String :=
  String.ofList <|
    ['0', '0', '-'] ++ Numeral.hexField 32 t.traceId.toNat
      ++ '-' :: Numeral.hexField 16 t.spanId.toNat
      ++ '-' :: Numeral.hexField 2 t.flags.toNat

end TraceContext

end LogAdmission
