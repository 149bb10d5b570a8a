import Gazetteer.Proofs.Export.Markup
import Gazetteer.Proofs.Number.ReadBack
import Gazetteer.Proofs.Xml.Characters

/-!
# The characters of waypoints and placemarks

What the documents of an address say beside its label are fixed texts and number texts, so they are
legal just if the label is.  The label is made of fields that may hold any characters, and nothing
is done about those that XML has no place for.  A field with such a character makes the documents
illegal, unless the character is a blank at its end, which is trimmed.

    Legal (degreesText x), Legal c.text                              (legal_degreesText, legal_text)
    a.label is legal ↔ its parts are, or the name in their stead                 (legal_label_iff)
    both documents are legal ↔ the label is                                     (documents_legal)
-/

namespace Gazetteer

open Xml (Node Legal isChar)

/-! ## Numbers -/

theorem isChar_of_isDigit {c : Char} (h : c.isDigit = true) : isChar c = true := by
  simp only [Char.isDigit, Bool.and_eq_true, decide_eq_true_eq] at h
  have hlow : 48 ≤ c.toNat := h.1
  have hhigh : c.toNat ≤ 57 := h.2
  have hrange : (0x20 ≤ c.toNat && c.toNat ≤ 0xD7FF) = true := by
    simp only [Bool.and_eq_true, decide_eq_true_eq]
    omega
  simp [isChar, hrange]

theorem all_isChar_of_isDigit {ds : List Char} (h : ∀ c ∈ ds, c.isDigit = true) :
    ds.all isChar = true := List.all_eq_true.mpr fun c hc => isChar_of_isDigit (h c hc)

theorem all_isChar_positional {digits : List Char} (h : ∀ c ∈ digits, c.isDigit = true)
    (keepsPoint : Bool) (before : Int) :
    (positional keepsPoint digits before).all isChar = true := by
  have hzeros (k : Nat) : (zeros k).all isChar = true :=
    all_isChar_of_isDigit fun _ hc => isDigit_of_mem_zeros hc
  have hdot : isChar '.' = true := by decide
  have hzero : isChar '0' = true := by decide
  unfold positional
  split
  · simp only [List.cons_append, List.all_cons, List.all_append, hzero, hdot, hzeros,
      all_isChar_of_isDigit h, Bool.true_and]
  split
  · cases keepsPoint <;> simp [hzeros, all_isChar_of_isDigit h, hdot, hzero]
  · have htake (k : Nat) : (digits.take k).all isChar = true :=
      all_isChar_of_isDigit fun c hc => h c (List.mem_of_mem_take hc)
    have hdrop (k : Nat) : (digits.drop k).all isChar = true :=
      all_isChar_of_isDigit fun c hc => h c (List.mem_of_mem_drop hc)
    rw [List.all_append, List.all_cons, htake, hdrop, hdot]
    rfl

theorem all_isChar_chars (layout : Layout) (x : Binary64) : (x.chars layout).all isChar = true := by
  have hmarks : Binary64.marks.all isChar = true := by decide
  exact List.all_eq_true.mpr fun c hc => (Binary64.mem_chars hc).elim isChar_of_isDigit
    fun hmark => List.all_eq_true.mp hmarks c hmark

theorem all_isChar_fixedChars (places : Nat) (x : Binary64) :
    (x.fixedChars places).all isChar = true := by
  cases x with
  | nan => exact all_isChar_chars .plain .nan
  | infinite s => exact all_isChar_chars .plain (.infinite s)
  | finite s u h =>
    have hminus : isChar '-' = true := by decide
    unfold Binary64.fixedChars
    dsimp only
    generalize hpadded : zeros _ ++ _ = padded
    have hdigits : ∀ c ∈ padded, c.isDigit = true := by
      intro c hc
      rw [← hpadded] at hc
      obtain hc | hc := List.mem_append.mp hc
      · exact isDigit_of_mem_zeros hc
      · exact Nat.isDigit_of_mem_toDigits (by decide) (by decide) hc
    cases s <;> simp [hminus, all_isChar_positional hdigits]

theorem Address.legal_degreesText (x : Binary64) : Legal (degreesText x) := by
  rw [Legal, degreesText, Binary64.fixed, String.toList_ofList]
  exact all_isChar_fixedChars 7 x

theorem Coordinates.legal_text (c : Coordinates) : Legal c.text := by
  have hnumber (x : Binary64) : Legal x.text := by
    rw [Legal, Binary64.text, String.toList_ofList]
    exact all_isChar_chars .plain x
  have hcomma : Legal "," := by decide +kernel
  simp only [text, Xml.legal_append, hnumber, hcomma, and_self]

/-! ## Labels -/

namespace Text

section

variable {p : Char → Bool} {s : List Char}

theorem all_trimStart (h : s.all p = true) : (trimStart s).all p = true :=
  List.all_eq_true.mpr fun c hc =>
    List.all_eq_true.mp h c ((List.dropWhile_sublist _).subset hc)

theorem all_trimChars (h : s.all p = true) : (trimChars s).all p = true := by
  rw [trimChars, List.all_reverse]
  apply all_trimStart
  rw [List.all_reverse]
  exact all_trimStart h

variable (hblank : ∀ c, isBlank c = true → p c = true)

include hblank

theorem all_of_all_trimStart (h : (trimStart s).all p = true) : s.all p = true := by
  have hfront : (s.takeWhile isBlank).all p = true :=
    List.all_eq_true.mpr fun c hc => hblank c (List.all_eq_true.mp List.all_takeWhile c hc)
  rw [← List.takeWhile_append_dropWhile (p := isBlank) (l := s), List.all_append, hfront]
  exact h

/-- Nothing but blanks is trimmed off. -/
theorem all_of_all_trimChars (h : (trimChars s).all p = true) : s.all p = true := by
  rw [trimChars, List.all_reverse] at h
  have hback := all_of_all_trimStart hblank h
  rw [List.all_reverse] at hback
  exact all_of_all_trimStart hblank hback

end

theorem all_intercalate {p : Char → Bool} {sep : String} (hsep : sep.toList.all p = true)
    (parts : List String) :
    (sep.intercalate parts).toList.all p = true ↔ ∀ s ∈ parts, s.toList.all p = true := by
  rw [String.toList_intercalate]
  induction parts with
  | nil => simp
  | cons s rest ih =>
    cases rest with
    | nil => simp
    | cons t rest =>
      rw [List.map_cons] at ih
      rw [List.map_cons, List.map_cons, List.intercalate_cons_cons, List.all_append,
        List.all_append, hsep, List.forall_mem_cons, ← ih, Bool.and_true, Bool.and_eq_true]

end Text

theorem Xml.LegalTag.of_keys {name : String} {attributes : List (String × String)}
    (keys : List String) (hkeys : attributes.map (·.1) = keys)
    (h : Legal name ∧ ∀ key ∈ keys, Legal key) (hvalues : ∀ a ∈ attributes, Legal a.2) :
    LegalTag name attributes := by
  subst hkeys
  exact ⟨h.1, fun a ha => ⟨h.2 a.1 (List.mem_map_of_mem ha), hvalues a ha⟩⟩

namespace Address

/-- The fields that a label is made of. -/
def labelFields (a : Address) : List (Option String) :=
  [a.streetNumber, a.streetName, a.postalCode, a.locality, a.adminArea, a.country]

/-- The parts of a label before they are trimmed. -/
def labelLines (a : Address) : List String :=
  [some (joinWords [a.streetNumber, a.streetName]), some (joinWords [a.postalCode, a.locality]),
    a.adminArea, a.country].filterMap id

variable {a : Address}

theorem forall_mem_filterMap_id {α : Type} {p : α → Prop} {l : List (Option α)} :
    (∀ x ∈ l.filterMap id, p x) ↔ ∀ o ∈ l, ∀ x ∈ o, p x := by
  simp only [List.mem_filterMap, id_eq, forall_exists_index, and_imp, Option.mem_def]
  exact ⟨fun h o ho x hx => h x o ho hx, fun h x o ho hx => h o ho x hx⟩

/-- Joining adds spaces only. -/
theorem all_labelLines {p : Char → Bool} (hspace : p ' ' = true) :
    (∀ line ∈ a.labelLines, line.toList.all p = true) ↔
      ∀ field ∈ a.labelFields, ∀ text ∈ field, text.toList.all p = true := by
  have hsep : " ".toList.all p = true := by simp [hspace]
  have hwords (words : List (Option String)) : (joinWords words).toList.all p = true ↔
      ∀ o ∈ words, ∀ text ∈ o, text.toList.all p = true := by
    rw [joinWords, Text.all_intercalate hsep, forall_mem_filterMap_id]
  simp only [labelLines, labelFields, forall_mem_filterMap_id, List.forall_mem_cons, Option.mem_def,
    Option.some.injEq, forall_eq', hwords, and_assoc, List.not_mem_nil, false_implies, implies_true,
    and_true]

theorem mem_labelParts {part : String} :
    part ∈ a.labelParts ↔ ∃ line ∈ a.labelLines, Text.trim line = part ∧ part ≠ "" := by
  have hparts : a.labelParts = (a.labelLines.map Text.trim).filter (!·.isEmpty) := rfl
  rw [hparts, List.mem_filter, List.mem_map]
  constructor
  · rintro ⟨⟨line, hline, htrim⟩, hne⟩
    exact ⟨line, hline, htrim, by simpa using hne⟩
  · rintro ⟨line, hline, htrim, hne⟩
    exact ⟨⟨line, hline, htrim⟩, by simpa using hne⟩

/-- A label is legal if and only if its parts are, or what is shown in their stead. -/
theorem legal_label_iff : Legal a.label ↔ (∀ part ∈ a.labelParts, Legal part) ∧
    (a.labelParts = [] → Legal (Text.trim (a.formatted.getD ""))) := by
  have hsep : ", ".toList.all isChar = true := by decide +kernel
  unfold label
  dsimp only
  split
  · next hparts =>
    rw [List.isEmpty_iff] at hparts
    rw [hparts]
    split
    · next hname =>
      rw [String.isEmpty_iff] at hname
      rw [hname]
      exact iff_of_true a.coordinates.legal_text ⟨nofun, fun _ => by decide +kernel⟩
    · simp
  · next hparts =>
    rw [List.isEmpty_iff] at hparts
    rw [Legal, Text.all_intercalate hsep]
    exact ⟨fun h => ⟨h, fun hnil => absurd hnil hparts⟩, fun h => h.1⟩

/-- Legal fields make a legal label. -/
theorem legal_label (hfields : ∀ field ∈ a.labelFields, ∀ text ∈ field, Legal text)
    (hformatted : ∀ text ∈ a.formatted, Legal text) : Legal a.label := by
  have htrim {s : String} (h : Legal s) : Legal (Text.trim s) := by
    rw [Legal, Text.trim, String.toList_ofList]
    exact Text.all_trimChars h
  rw [legal_label_iff]
  constructor
  · intro part hpart
    obtain ⟨line, hline, rfl, -⟩ := mem_labelParts.mp hpart
    exact htrim ((all_labelLines (by decide)).mpr hfields line hline)
  · intro _
    apply htrim
    cases hname : a.formatted with
    | none => exact (by decide +kernel : Legal "")
    | some name => exact hformatted name hname

/-- A character that is neither legal nor a blank stays in the label, whichever field it is in. -/
theorem not_legal_label {text : String} (hfield : some text ∈ a.labelFields) {c : Char}
    (hc : c ∈ text.toList) (hblank : Text.isBlank c = false) (hchar : isChar c = false) :
    ¬ Legal a.label := by
  intro hlegal
  let kept (c : Char) : Bool := isChar c || Text.isBlank c
  have hkept : ∀ line ∈ a.labelLines, line.toList.all kept = true := by
    intro line hline
    apply Text.all_of_all_trimChars fun c hc => by simp [kept, hc]
    by_cases hempty : Text.trim line = ""
    · rw [Text.trim, String.ofList_eq_empty_iff] at hempty
      rw [hempty]
      rfl
    · have hpart := (legal_label_iff.mp hlegal).1 _ (mem_labelParts.mpr ⟨line, hline, rfl, hempty⟩)
      rw [Legal, Text.trim, String.toList_ofList, List.all_eq_true] at hpart
      exact List.all_eq_true.mpr fun c hc => by simp [kept, hpart c hc]
  have htext := (all_labelLines (by decide)).mp hkept _ hfield text rfl
  have hcharKept := List.all_eq_true.mp htext c hc
  simp [kept, hblank, hchar] at hcharKept

/-! ## Documents -/

theorem legal_toGpx : Legal a.toGpx.render ↔ Legal a.label := by
  have hcorners (b : Bounds) : Xml.LegalTag "bounds"
      [("minlat", degreesText b.south), ("minlon", degreesText b.west),
        ("maxlat", degreesText b.north), ("maxlon", degreesText b.east)] :=
    .of_keys ["minlat", "minlon", "maxlat", "maxlon"] rfl (by decide +kernel)
      (by simp [legal_degreesText])
  have hpoint : Xml.LegalTag "wpt" [("lat", degreesText a.coordinates.latitude),
      ("lon", degreesText a.coordinates.longitude)] :=
    .of_keys ["lat", "lon"] rfl (by decide +kernel) (by simp [legal_degreesText])
  have hroot : Xml.LegalTag "gpx" [("version", "1.0"),
      ("creator", programName ++ " " ++ programVersion),
      ("xmlns:xsi", "http://www.w3.org/2001/XMLSchema-instance"),
      ("xmlns", "http://www.topografix.com/GPX/1/0"),
      ("xsi:schemaLocation",
        "http://www.topografix.com/GPX/1/0 http://www.topografix.com/GPX/1/0/gpx.xsd")] := by
    decide +kernel
  have hname : Legal "name" := by decide +kernel
  have htype : Legal "type" ∧ Legal "Address" := by decide +kernel
  rw [Xml.legal_render _ (by simp [Xml.IsAnswer, toGpx])]
  unfold toGpx
  cases a.bounds <;>
    simp only [Option.map_none, Option.map_some, Option.toList_none, Option.toList_some,
      List.cons_append, List.nil_append, Xml.Element.Legal, Xml.AllLegal, hroot, hcorners, hpoint,
      hname, htype, and_self, true_and, and_true]

theorem legal_toKml : Legal a.toKml.render ↔ Legal a.label := by
  have hplain : ∀ name ∈ ["Document", "Placemark", "Point"], Xml.LegalTag name [] := by
    decide +kernel
  have hroot : Xml.LegalTag "kml" [("xmlns", "http://www.opengis.net/kml/2.2")] := by
    decide +kernel
  have hnames : Legal "name" ∧ Legal "description" ∧ Legal "coordinates" := by decide +kernel
  have hmarks : Legal "," ∧ Legal ",0" := by decide +kernel
  rw [Xml.legal_render _ (by simp [Xml.IsAnswer, toKml])]
  unfold toKml
  simp only [Xml.Element.Legal, Xml.AllLegal, Xml.legal_append, legal_degreesText, hroot,
    hplain "Document" (by simp), hplain "Placemark" (by simp), hplain "Point" (by simp), hnames,
    hmarks, and_self, true_and, and_true]

/-- What the characters of a label mean to the documents with it. -/
structure DocumentsLegal (a : Address) (label gpx kml : String) : Prop where
  /-- The documents have no characters that are not legal but those of the label. -/
  gpxLegal : Legal gpx ↔ Legal label
  kmlLegal : Legal kml ↔ Legal label
  /-- A parser that refuses what is not legal reads them just if the label is legal. -/
  gpxRead : (Node.ofLegalText? gpx).isSome ↔ Legal label
  kmlRead : (Node.ofLegalText? kml).isSome ↔ Legal label
  /-- The label is legal if all fields are. -/
  clean : (∀ field ∈ a.labelFields, ∀ text ∈ field, Legal text) →
    (∀ text ∈ a.formatted, Legal text) → Legal label
  /-- It is not with a character in a field that is neither legal nor a blank. -/
  tainted : ∀ text, some text ∈ a.labelFields → ∀ c ∈ text.toList, Text.isBlank c = false →
    isChar c = false → ¬ Legal label

theorem isSome_ofLegalText? {text : String} {n : Node} (h : Node.ofText? text = some n) :
    (Node.ofLegalText? text).isSome ↔ Legal text := by
  unfold Node.ofLegalText?
  split
  · next hlegal => exact iff_of_true (Option.isSome_of_eq_some h) hlegal
  · next hlegal => exact iff_of_false nofun hlegal

/-- Documents are legal just if the label is.  An address has both documents whatever its fields
hold. -/
theorem documents_legal (a : Address) : ∃ label gpx kml, a.render .addressText = .ok label ∧
    a.render .gpx = .ok gpx ∧ a.render .kml = .ok kml ∧ a.DocumentsLegal label gpx kml := by
  have hgpx := Node.ofText?_render a.toGpx (by simp [Xml.IsAnswer, toGpx]) a.proper_toGpx
  have hkml := Node.ofText?_render a.toKml (by simp [Xml.IsAnswer, toKml]) a.proper_toKml
  exact ⟨a.label, a.toGpx.render, a.toKml.render, rfl, rfl, rfl,
    { gpxLegal := legal_toGpx
      kmlLegal := legal_toKml
      gpxRead := (isSome_ofLegalText? hgpx).trans legal_toGpx
      kmlRead := (isSome_ofLegalText? hkml).trans legal_toKml
      clean := legal_label
      tainted := fun _ hfield _ => not_legal_label hfield }⟩

/-- A control character for the name of a town: both documents are written, and both are refused. -/
theorem documents_illegal :
    let a : Address :=
      { coordinates := ⟨.ofNat 20, .ofNat 40⟩, locality := some "\x01", providedBy := "p" }
    ∃ gpx kml, a.render .gpx = .ok gpx ∧ a.render .kml = .ok kml ∧ ¬ Legal gpx ∧ ¬ Legal kml ∧
      Node.ofLegalText? gpx = none ∧ Node.ofLegalText? kml = none := by
  intro a
  have hfield : some "\x01" ∈ a.labelFields := by simp [a, labelFields]
  have hlabel : ¬ Legal a.label :=
    not_legal_label hfield (by decide : '\x01' ∈ "\x01".toList) (by decide) (by decide)
  have hgpx : ¬ Legal a.toGpx.render := fun h => hlabel (legal_toGpx.mp h)
  have hkml : ¬ Legal a.toKml.render := fun h => hlabel (legal_toKml.mp h)
  exact ⟨_, _, rfl, rfl, hgpx, hkml, if_neg hgpx, if_neg hkml⟩

end Address

end Gazetteer
