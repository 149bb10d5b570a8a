import Gazetteer.Field.Preparation
import Gazetteer.Proofs.Cache.Key
import Gazetteer.Proofs.Number.ReadBack
import Gazetteer.Proofs.Text.Trim

/-!
# Signatures tell queries apart

A text is shown without the blanks at its ends and a point by its number texts, which hold no comma
and can be read back; the two directions differ in the first letter.  A query that is made from a
field value has a trimmed text, so its signature shows the whole of it.

    q.signature = q'.signature ↔ q.Alike q'                         (signature_eq_iff)
    q.signature = q'.signature ↔ q = q', for prepared queries       (signature_inj)
-/

namespace Gazetteer

/-! ## Points -/

theorem Coordinates.toList_text (c : Coordinates) :
    c.text.toList = c.latitude.chars .plain ++ ',' :: c.longitude.chars .plain := by
  simp [Coordinates.text, Binary64.text]

/-- The first comma of a point's text stands between its numbers. -/
theorem Coordinates.text_eq_iff {c d : Coordinates} :
    c.text = d.text ↔ c.latitude.text = d.latitude.text ∧ c.longitude.text = d.longitude.text := by
  constructor
  · intro h
    have hsplit (c : Coordinates) := Text.splitOnce_append ',' (c.latitude.chars .plain)
      (c.longitude.chars .plain) (Binary64.comma_not_mem_chars .plain c.latitude)
    have hc := hsplit c
    rw [← toList_text, h, toList_text, hsplit d, Option.some.injEq, Prod.mk.injEq] at hc
    exact ⟨congrArg String.ofList hc.1.symm, congrArg String.ofList hc.2.symm⟩
  · rintro ⟨hlatitude, hlongitude⟩
    rw [text, text, hlatitude, hlongitude]

theorem Binary64.text_inj {x y : Binary64} : x.text = y.text ↔ x = y := by
  rw [text, text, String.ofList_inj, chars_inj]

theorem Coordinates.text_inj {c d : Coordinates} : c.text = d.text ↔ c = d := by
  rw [text_eq_iff, Binary64.text_inj, Binary64.text_inj]
  cases c
  cases d
  simp

/-! ## Queries -/

/-- The query is made from a field value. -/
def Query.Prepared (q : Query) : Prop :=
  ∃ (value : FieldValue) (direction : Direction), value.query direction = .ok q

namespace PostalAddress

theorem components_trimmed (a : PostalAddress) :
    ∀ p ∈ a.components, p ≠ "" ∧ Text.Trimmed p.toList := by
  intro p hp
  obtain ⟨hp, hne⟩ := List.mem_filter.mp hp
  obtain ⟨s, -, rfl⟩ := List.mem_map.mp hp
  exact ⟨by simpa using hne, Text.trimmed_trim s⟩

/-- Components are joined as texts without blanks at their ends. -/
theorem trimmed_joined (a : PostalAddress) :
    Text.Trimmed (", ".intercalate a.components).toList :=
  (Text.trimmed_join ", " a.components_trimmed).1

theorem trim_joined (a : PostalAddress) :
    Text.trim (", ".intercalate a.components) = ", ".intercalate a.components := by
  rw [Text.trim, Text.trimChars_eq_self a.trimmed_joined, String.ofList_toList]

theorem joined_eq_empty_iff (a : PostalAddress) :
    ", ".intercalate a.components = "" ↔ a.components = [] := by
  constructor
  · intro h
    apply Classical.byContradiction
    intro hne
    exact (Text.trimmed_join ", " a.components_trimmed).2 hne h
  · intro h
    rw [h]
    rfl

end PostalAddress

namespace Query

theorem Prepared.trim_text {s : String} (h : Prepared (.text s)) : Text.trim s = s := by
  obtain ⟨value, direction, hquery⟩ := h
  cases value with
  | text t =>
    cases direction with
    | geocode =>
      injection hquery with hquery
      injection hquery with hquery
      rw [← hquery, Text.trim_trim]
    | reverse =>
      rw [FieldValue.query] at hquery
      cases hc : Coordinates.ofText t with
      | error e => rw [hc] at hquery; cases hquery
      | ok c => rw [hc] at hquery; cases hquery
  | geofield item => cases direction <;> cases hquery
  | address a =>
    cases direction with
    | geocode =>
      injection hquery with hquery
      injection hquery with hquery
      rw [← hquery, a.trim_joined]
    | reverse => cases hquery

/-! ## Signatures -/

theorem signature_text_iff {s t : String} :
    (text s).signature = (text t).signature ↔ Text.trim s = Text.trim t := by
  rw [signature, signature, String.append_right_inj]

theorem signature_point_iff {c d : Coordinates} :
    (point c).signature = (point d).signature ↔ c.text = d.text := by
  rw [signature, signature, String.append_right_inj]

/-- The directions are told apart by the first letter, before anything a text could say. -/
theorem signature_text_ne_point (s : String) (c : Coordinates) :
    (text s).signature ≠ (point c).signature := by
  intro h
  have hlist := congrArg String.toList h
  simp [signature] at hlist

/-- What a signature shows of a query: its direction, and the trimmed text or the number texts. -/
inductive Alike : Query → Query → Prop where
  | texts {s t : String} (trimmed : Text.trim s = Text.trim t) : Alike (text s) (text t)
  | points {c d : Coordinates} (latitude : c.latitude.text = d.latitude.text)
      (longitude : c.longitude.text = d.longitude.text) : Alike (point c) (point d)

theorem signature_eq_iff {q q' : Query} : q.signature = q'.signature ↔ q.Alike q' := by
  constructor
  · intro heq
    cases q with
    | text s =>
      cases q' with
      | text t => exact .texts (signature_text_iff.mp heq)
      | point d => exact absurd heq (signature_text_ne_point s d)
    | point c =>
      cases q' with
      | text t => exact absurd heq.symm (signature_text_ne_point t c)
      | point d =>
        obtain ⟨hlatitude, hlongitude⟩ := Coordinates.text_eq_iff.mp (signature_point_iff.mp heq)
        exact .points hlatitude hlongitude
  · intro halike
    cases halike with
    | texts htrimmed => exact signature_text_iff.mpr htrimmed
    | points hlatitude hlongitude =>
      exact signature_point_iff.mpr (Coordinates.text_eq_iff.mpr ⟨hlatitude, hlongitude⟩)

/-- Prepared queries with the same signature are the same. -/
theorem signature_inj {q q' : Query} (h : q.Prepared) (h' : q'.Prepared) :
    q.signature = q'.signature ↔ q = q' := by
  constructor
  · intro heq
    cases signature_eq_iff.mp heq with
    | texts htrimmed => rw [← h.trim_text, htrimmed, h'.trim_text]
    | points hlatitude hlongitude =>
      rw [Coordinates.text_inj.mp (Coordinates.text_eq_iff.mpr ⟨hlatitude, hlongitude⟩)]
  · rintro rfl
    rfl

/-- Signatures separate queries.  Two are the same just for queries that are alike, no text has
the signature of a point, and points with one signature have the same numbers: the same sign and the
same magnitude, so that zeros of either sign are told apart. -/
theorem signature_separates (q q' : Query) :
    (q.signature = q'.signature ↔ q.Alike q') ∧
    (∀ (s : String) (c : Coordinates), (text s).signature ≠ (point c).signature) ∧
    (∀ c d : Coordinates, (point c).signature = (point d).signature ↔ c = d) := by
  refine ⟨signature_eq_iff, signature_text_ne_point, fun c d => ?_⟩
  rw [signature_point_iff, Coordinates.text_inj]

end Query

end Gazetteer
