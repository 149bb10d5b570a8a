import Gazetteer.Proofs.Export.Characters
import Gazetteer.Proofs.Field.CoordinateText
import Gazetteer.Proofs.Field.PreparedText

/-!
# What a label says

A label joins what is kept of four parts, two of which are made of two words.  The words are joined
before anything is trimmed, but a blank word beside another leaves no more than blanks at an end of
the part, so it counts like an absent one.  With no part the name stands in, trimmed, and with a
blank name the coordinates, whose text has no blanks at all.  So every label says something, and
blank fields and the fields that have no part in it can be anything.

    trim (joinWords [x, y]) = trim (wordLine [x, y])                              (trim_joinWords)
    a.labelParts = a.labelTexts.filterMap part?                                   (labelParts_eq)
    a.Says t ↔ a.label = t                                                        (says_iff)
-/

namespace Gazetteer.Address

open PostalAddress (Kept part?)

/-! ## Words -/

/-- A word that is there and not blank. -/
def word? (word : Option String) : Option String :=
  word.filter fun w => !decide (Text.Blank w.toList)

/-- The words that are there and not blank, with a space between them. -/
def wordLine (words : List (Option String)) : String := " ".intercalate (words.filterMap word?)

theorem word?_none : word? none = none := rfl

theorem word?_blank {s : String} (h : Text.Blank s.toList) : word? (some s) = none := by
  simp [word?, h]

theorem word?_proper {s : String} (h : ¬ Text.Blank s.toList) : word? (some s) = some s := by
  simp [word?, h]

theorem wordLine_left {x : Option String} (h : word? x = none) (y : Option String) :
    wordLine [x, y] = wordLine [y] := by
  rw [wordLine, List.filterMap_cons_none h, wordLine]

theorem wordLine_right (x : Option String) {y : Option String} (h : word? y = none) :
    wordLine [x, y] = wordLine [x] := by
  simp only [wordLine, List.filterMap_cons, List.filterMap_nil, h]

theorem blank_space : Text.Blank " ".toList := by decide

theorem trim_blank_word {s : String} (t : String) (h : Text.Blank s.toList) :
    Text.trim (s ++ " " ++ t) = Text.trim t := by
  have hpadded := Text.trimChars_padded t.toList (h.append blank_space) (List.forall_mem_nil _)
  rw [Text.trim, Text.trim, String.toList_append, String.toList_append, ← hpadded,
    List.append_nil]

theorem trim_word_blank (s : String) {t : String} (h : Text.Blank t.toList) :
    Text.trim (s ++ " " ++ t) = Text.trim s := by
  have hpadded := Text.trimChars_padded s.toList (List.forall_mem_nil _) (blank_space.append h)
  rw [Text.trim, Text.trim, String.toList_append, String.toList_append, ← hpadded,
    List.nil_append, List.append_assoc]

theorem trim_wordLine_single (x : Option String) :
    Text.trim (wordLine [x]) = Text.trim (x.getD "") := by
  cases x with
  | none => simp only [wordLine, List.filterMap_cons, List.filterMap_nil, word?_none,
      String.intercalate_nil, Option.getD_none]
  | some s =>
    by_cases hs : Text.Blank s.toList
    · simp [wordLine, word?_blank hs, Text.trim_eq_empty_iff.mpr hs, Text.trim_empty]
    · simp [wordLine, word?_proper hs]

/-- A blank word beside another leaves no trace. -/
theorem trim_joinWords (x y : Option String) :
    Text.trim (joinWords [x, y]) = Text.trim (wordLine [x, y]) := by
  cases x with
  | none =>
    have hjoin : joinWords [none, y] = y.getD "" := by cases y <;> simp [joinWords]
    rw [hjoin, wordLine_left word?_none, trim_wordLine_single]
  | some s =>
    cases y with
    | none =>
      have hjoin : joinWords [some s, none] = (some s).getD "" := by simp [joinWords]
      rw [hjoin, wordLine_right _ word?_none, trim_wordLine_single]
    | some t =>
      have hjoin : joinWords [some s, some t] = s ++ " " ++ t := by simp [joinWords]
      rw [hjoin]
      by_cases hs : Text.Blank s.toList
      · rw [trim_blank_word t hs, wordLine_left (word?_blank hs), trim_wordLine_single,
          Option.getD_some]
      by_cases ht : Text.Blank t.toList
      · rw [trim_word_blank s ht, wordLine_right _ (word?_blank ht), trim_wordLine_single,
          Option.getD_some]
      · have hwords : [some s, some t].filterMap word? = [s, t] := by
          simp only [List.filterMap_cons, List.filterMap_nil, word?_proper hs, word?_proper ht]
        simp [wordLine, hwords]

/-! ## Parts -/

/-- The parts that a label may have, with blank words left out. -/
def labelTexts (a : Address) : List (Option String) :=
  [some (wordLine [a.streetNumber, a.streetName]), some (wordLine [a.postalCode, a.locality]),
    a.adminArea, a.country]

theorem labelParts_eq (a : Address) : a.labelParts = a.labelTexts.filterMap part? := by
  have hparts : a.labelParts = [some (joinWords [a.streetNumber, a.streetName]),
      some (joinWords [a.postalCode, a.locality]), a.adminArea, a.country].filterMap part? :=
    PostalAddress.filterMap_part? _
  have hwords (x y : Option String) :
      part? (some (joinWords [x, y])) = part? (some (wordLine [x, y])) := by
    rw [part?, part?, Option.bind_some, Option.bind_some, trim_joinWords]
  rw [hparts, labelTexts]
  simp only [List.filterMap_cons, hwords]

/-- A field that a label is made of has something to say. -/
def HasPart (a : Address) : Prop :=
  ∃ text, some text ∈ a.labelFields ∧ ¬ Text.Blank text.toList

theorem labelParts_eq_nil_iff (a : Address) : a.labelParts = [] ↔ ¬ a.HasPart := by
  have hlines : a.labelParts = [] ↔ ∀ line ∈ a.labelLines, line.toList.all Text.isBlank = true := by
    simp only [List.eq_nil_iff_forall_not_mem, mem_labelParts, List.all_eq_true]
    constructor
    · intro h line hline
      refine Text.trim_eq_empty_iff.mp (Classical.byContradiction fun hne => ?_)
      exact h _ ⟨line, hline, rfl, hne⟩
    · rintro h part ⟨line, hline, rfl, hne⟩
      exact hne (Text.trim_eq_empty_iff.mpr (h line hline))
  rw [hlines, all_labelLines (by decide)]
  simp only [HasPart, List.all_eq_true, not_exists, not_and, Classical.not_not]
  exact ⟨fun h text htext => h _ htext text rfl, fun h field hfield text htext => by
    cases htext
    exact h text hfield⟩

/-! ## Labels -/

/-- What a label says. -/
inductive Says (a : Address) : String → Prop where
  /-- What is kept of the parts. -/
  | parts {parts : List String} (h : a.HasPart) (hkept : Kept a.labelTexts parts) :
      Says a (", ".intercalate parts)
  /-- The name in the stead of parts. -/
  | name {formatted name : String} (h : ¬ a.HasPart) (hname : a.formatted = some formatted)
      (htrims : Text.TrimsTo formatted.toList name.toList) (hne : name ≠ "") : Says a name
  /-- The coordinates in the stead of a name. -/
  | position (h : ¬ a.HasPart) (hname : ∀ text, a.formatted = some text → Text.Blank text.toList) :
      Says a a.coordinates.text

theorem label_of_part {a : Address} (h : a.HasPart) : a.label = ", ".intercalate a.labelParts := by
  have hparts : a.labelParts ≠ [] := fun hnil => a.labelParts_eq_nil_iff.mp hnil h
  unfold label
  dsimp only
  rw [if_neg (by simpa using hparts)]

theorem label_of_no_part {a : Address} (h : ¬ a.HasPart) :
    a.label = if Text.trim (a.formatted.getD "") = "" then a.coordinates.text
      else Text.trim (a.formatted.getD "") := by
  unfold label
  dsimp only
  rw [a.labelParts_eq_nil_iff.mpr h, if_pos List.isEmpty_nil]
  simp only [String.isEmpty_iff]

theorem Says.label_eq {a : Address} {t : String} (h : a.Says t) : a.label = t := by
  cases h with
  | parts h hkept => rw [label_of_part h, labelParts_eq, PostalAddress.kept_iff.mp hkept]
  | name h hname htrims hne =>
    rw [Text.trimsTo_toList_iff] at htrims
    rw [label_of_no_part h, hname, Option.getD_some, htrims, if_neg hne]
  | position h hname =>
    rw [label_of_no_part h, if_pos]
    cases hformatted : a.formatted with
    | none => exact Text.trim_empty
    | some text => exact Text.trim_eq_empty_iff.mpr (hname text hformatted)

/-- There is always something to say. -/
theorem says_label (a : Address) : a.Says a.label := by
  by_cases h : a.HasPart
  · rw [label_of_part h]
    exact .parts h (PostalAddress.kept_iff.mpr a.labelParts_eq.symm)
  rw [label_of_no_part h]
  cases hformatted : a.formatted with
  | none =>
    rw [Option.getD_none, if_pos Text.trim_empty]
    exact .position h (by simp [hformatted])
  | some text =>
    rw [Option.getD_some]
    split
    · next hblank =>
      refine .position h fun text' htext => ?_
      cases hformatted.symm.trans htext
      exact Text.trim_eq_empty_iff.mp hblank
    · next hne => exact .name h hformatted (Text.trimsTo_toList_iff.mpr rfl) hne

theorem says_iff {a : Address} {t : String} : a.Says t ↔ a.label = t :=
  ⟨Says.label_eq, fun h => h ▸ a.says_label⟩

/-! ## What labels look like -/

theorem trimmed_position (c : Coordinates) : c.text ≠ "" ∧ Text.Trimmed c.text.toList := by
  have htext := c.toList_text
  have hblank : ∀ ch ∈ c.text.toList, Text.isBlank ch = false := by
    intro ch hch
    rw [htext, List.mem_append, List.mem_cons] at hch
    obtain hlatitude | rfl | hlongitude := hch
    · exact Binary64.isBlank_of_mem_chars hlatitude
    · decide
    · exact Binary64.isBlank_of_mem_chars hlongitude
  refine ⟨fun hempty => ?_, fun ch hch => hblank ch (List.mem_of_mem_head? hch),
    fun ch hch => hblank ch (List.mem_of_getLast? hch)⟩
  rw [hempty] at htext
  simp at htext

theorem Says.trimmed {a : Address} {t : String} (h : a.Says t) :
    t ≠ "" ∧ Text.Trimmed t.toList := by
  cases h with
  | parts h hkept =>
    rw [PostalAddress.kept_iff, ← labelParts_eq] at hkept
    subst hkept
    have hparts : ∀ p ∈ a.labelParts, p ≠ "" ∧ Text.Trimmed p.toList := by
      intro p hp
      obtain ⟨line, -, rfl, hne⟩ := mem_labelParts.mp hp
      exact ⟨hne, Text.trimmed_trim line⟩
    obtain ⟨htrimmed, hne⟩ := Text.trimmed_join ", " hparts
    exact ⟨hne fun hnil => a.labelParts_eq_nil_iff.mp hnil h, htrimmed⟩
  | name h hname htrims hne =>
    obtain ⟨before, after, -, -, -, htrimmed⟩ := htrims
    exact ⟨hne, htrimmed⟩
  | position h hname => exact trimmed_position a.coordinates

/-! ## Blank fields -/

/-- A field as it is, or an absent one for a blank one. -/
inductive Cleared : Option String → Option String → Prop where
  | same (field : Option String) : Cleared field field
  | dropped {s : String} (h : Text.Blank s.toList) : Cleared (some s) none

theorem Cleared.word?_eq {x x' : Option String} (h : Cleared x x') : word? x = word? x' := by
  cases h with
  | same x => rfl
  | dropped h => rw [word?_blank h, word?, Option.filter_none]

theorem Cleared.part?_eq {x x' : Option String} (h : Cleared x x') : part? x = part? x' := by
  cases h with
  | same x => rfl
  | dropped h => exact (PostalAddress.Respelled.dropped h).part?_eq

theorem Cleared.trim_eq {x x' : Option String} (h : Cleared x x') :
    Text.trim (x.getD "") = Text.trim (x'.getD "") := by
  cases h with
  | same x => rfl
  | dropped h =>
    rw [Option.getD_some, Option.getD_none, Text.trim_empty, Text.trim_eq_empty_iff.mpr h]

/-- The fields that a label is made of, and the name in their stead. -/
def saidFields (a : Address) : List (Option String) := a.labelFields ++ [a.formatted]

theorem label_cleared {a b : Address} (hcoordinates : a.coordinates = b.coordinates)
    (h : List.Forall₂ Cleared a.saidFields b.saidFields) : a.label = b.label := by
  simp only [saidFields, labelFields, List.cons_append, List.nil_append, List.forall₂_cons,
    List.forall₂_nil_left_iff, and_true] at h
  obtain ⟨hnumber, hname, hpostal, hlocality, hadmin, hcountry, hformatted⟩ := h
  have hparts : a.labelParts = b.labelParts := by
    rw [labelParts_eq, labelParts_eq]
    simp only [labelTexts, wordLine, List.filterMap_cons, List.filterMap_nil, hnumber.word?_eq,
      hname.word?_eq, hpostal.word?_eq, hlocality.word?_eq, hadmin.part?_eq, hcountry.part?_eq]
  rw [label, label, hparts, hformatted.trim_eq, hcoordinates]

/-- Every address has a label, whatever is blank.  A label is not empty and has no blanks at its
ends.  It says what is kept of the parts, else the name, else the coordinates.  It stays the same
when blank fields are dropped, and whatever the fields are that it is not made of. -/
theorem label_despite_blanks (a : Address) :
    (a.label ≠ "" ∧ Text.Trimmed a.label.toList) ∧ (∀ t, a.label = t ↔ a.Says t) ∧
    ∀ b : Address, b.coordinates = a.coordinates →
      List.Forall₂ Cleared a.saidFields b.saidFields → b.label = a.label :=
  ⟨a.says_label.trimmed, fun _ => says_iff.symm, fun _ hcoordinates hfields =>
    (label_cleared hcoordinates.symm hfields).symm⟩

/-- With a blank word, a blank part and two padded ones, and without them but with a box. -/
theorem label_despite_blanks_broadway :
    let a : Address :=
      { coordinates := ⟨.ofNat 40, .nan⟩, streetNumber := some "\t", streetName := some "Broadway "
        locality := some "\u00a0New York", adminArea := some "\u3000", formatted := some ""
        country := some "United States", countryCode := some "us", providedBy := "p" }
    let b : Address :=
      { coordinates := ⟨.ofNat 40, .nan⟩, streetName := some "Broadway ", subLocality := some "x"
        locality := some "\u00a0New York", country := some "United States"
        bounds := some ⟨.ofNat 1, .ofNat 2, .ofNat 3, .ofNat 4⟩, providedBy := "q" }
    b.coordinates = a.coordinates ∧ List.Forall₂ Cleared a.saidFields b.saidFields ∧
      b.label = a.label ∧ a.label = "Broadway, New York, United States" := by
  intro a b
  have hfields : List.Forall₂ Cleared a.saidFields b.saidFields :=
    .cons (.dropped (by decide +kernel)) (.cons (.same (some "Broadway ")) (.cons (.same none)
      (.cons (.same (some "\u00a0New York")) (.cons (.dropped (by decide +kernel))
        (.cons (.same (some "United States")) (.cons (.dropped (by decide +kernel)) .nil))))))
  exact ⟨rfl, hfields, (label_despite_blanks a).2.2 b rfl hfields, by decide +kernel⟩

end Gazetteer.Address
