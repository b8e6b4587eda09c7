import LogAdmission.Sink.Text

/-!
# Derived text sinks

A derived sink writes the attributes that it adds once, under the groups that are open at that
moment. This makes no difference to its lines: they are those of the sink it was derived from,
for records that carry all these attributes with their keys spelled out (`line_derive`).
-/

namespace LogAdmission

/-! ## What a derivation adds -/

namespace Attr

/-- The attribute with a qualifier in front of its key. -/
def under (qualifier : String) (a : Attr) : Attr :=
  { a with key := qualifier ++ a.key }

end Attr

/-- What a group puts in front of keys; an empty name puts nothing. -/
def groupQualifier (name : String) : String :=
  if name.isEmpty then "" else name ++ "."

/-- What the groups of a path put in front of the keys behind it. -/
def pathQualifier : List (List Attr ⊕ String) → String
  | [] => ""
  | .inl _ :: path => pathQualifier path
  | .inr name :: path => groupQualifier name ++ pathQualifier path

/-- The attributes that a path adds, in order, each under the groups opened before it. -/
def pathAttrs : List (List Attr ⊕ String) → List Attr
  | [] => []
  | .inl attrs :: path => attrs ++ pathAttrs path
  | .inr name :: path => (pathAttrs path).map (Attr.under (groupQualifier name))

namespace Record

/-- The record that carries the attributes of a path and, behind them, its own ones under all
groups of the path. -/
def behind (path : List (List Attr ⊕ String)) (r : Record) : Record :=
  { r with attrs := pathAttrs path ++ r.attrs.map (Attr.under (pathQualifier path)) }

end Record

/-! ## Qualified attributes -/

namespace Line

theorem attrs_append (qualifier : String) (as bs : List Attr) :
    attrs qualifier (as ++ bs) = attrs qualifier as ++ attrs qualifier bs := by
  induction as with
  | nil => exact String.empty_append.symm
  | cons a as ih => rw [List.cons_append, attrs, ih, attrs, String.append_assoc]

/-- A qualifier may as well be part of the keys. -/
theorem attrs_under (qualifier inner : String) (as : List Attr) :
    attrs qualifier (as.map (Attr.under inner)) = attrs (qualifier ++ inner) as := by
  induction as with
  | nil => rfl
  | cons a as ih =>
      have hkey : attr qualifier (a.under inner) = attr (qualifier ++ inner) a := by
        simp only [attr, Attr.under, String.append_assoc]
      rw [List.map_cons, attrs, hkey, ih, attrs]

end Line

/-! ## Derived sinks -/

namespace TextSink

/-- The sink derived by adding attributes and group names in turn. -/
def derive (t : TextSink) (path : List (List Attr ⊕ String)) : TextSink :=
  path.foldl (fun t => Sum.elim t.withAttrs t.withGroup) t

theorem withGroup_eq (t : TextSink) (name : String) :
    t.withGroup name = { t with qualifier := t.qualifier ++ groupQualifier name } := by
  unfold withGroup groupQualifier
  split
  · rw [String.append_empty]
  · rw [String.append_assoc]

/-- **A derivation adds its groups to the qualifier and its attributes to the written ones.** -/
theorem derive_eq (t : TextSink) (path : List (List Attr ⊕ String)) :
    t.derive path =
      { t with
        qualifier := t.qualifier ++ pathQualifier path
        preformatted := t.preformatted ++ Line.attrs t.qualifier (pathAttrs path) } := by
  induction path generalizing t with
  | nil => simp [derive, pathQualifier, pathAttrs, Line.attrs]
  | cons step path ih =>
      cases step with
      | inl attrs =>
          have hnext : t.derive (.inl attrs :: path) = (t.withAttrs attrs).derive path := rfl
          rw [hnext, ih]
          simp only [withAttrs, pathQualifier, pathAttrs, Line.attrs_append, String.append_assoc]
      | inr name =>
          have hnext : t.derive (.inr name :: path) = (t.withGroup name).derive path := rfl
          rw [hnext, ih, withGroup_eq]
          simp only [pathQualifier, pathAttrs, Line.attrs_under, String.append_assoc]

@[simp] theorem writer_derive (t : TextSink) (path : List (List Attr ⊕ String)) :
    (t.derive path).writer = t.writer := by
  rw [derive_eq]

/-- **A derived sink writes the line of a record that carries all attributes.** -/
theorem line_derive (t : TextSink) (path : List (List Attr ⊕ String)) (r : Record) :
    (t.derive path).line r = t.line (r.behind path) := by
  have hbody : Line.body (t.qualifier ++ pathQualifier path)
      (t.preformatted ++ Line.attrs t.qualifier (pathAttrs path)) r =
        Line.body t.qualifier t.preformatted (r.behind path) := by
    simp only [Line.body, Record.behind, Line.attrs_append, Line.attrs_under, String.append_assoc]
  rw [derive_eq]
  simp only [line, Line.write, hbody]
  rfl

end TextSink

end LogAdmission
