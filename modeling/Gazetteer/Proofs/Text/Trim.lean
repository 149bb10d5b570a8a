import Gazetteer.Proofs.Text.Split

/-!
# Trimmed texts

A text is some blanks, a part without blanks at its ends, and some blanks again.  The part is the
trimmed text, whatever stands around it, and it is empty just if there is nothing but blanks.

    TrimsTo s t: t has no blanks at its ends, and s has nothing but blanks around it
    TrimsTo s t ↔ trimChars s = t                                               (trimsTo_iff)
    trimChars (before ++ s ++ after) = trimChars s, with blanks around s        (trimChars_padded)
    trimChars s = [] ↔ s has nothing but blanks                             (trimChars_eq_nil_iff)
-/

namespace Gazetteer.Text

/-- No blank at either end. -/
def Trimmed (l : List Char) : Prop :=
  (∀ c ∈ l.head?, isBlank c = false) ∧ ∀ c ∈ l.getLast?, isBlank c = false

/-- Nothing but blanks. -/
def Blank (l : List Char) : Prop := ∀ c ∈ l, isBlank c = true

instance (l : List Char) : Decidable (Blank l) :=
  decidable_of_iff (l.all isBlank = true) List.all_eq_true

/-- The part of a text without the blanks at its ends. -/
def TrimsTo (s part : List Char) : Prop :=
  ∃ before after, s = before ++ part ++ after ∧ Blank before ∧ Blank after ∧ Trimmed part

theorem Blank.append {l l' : List Char} (h : Blank l) (h' : Blank l') : Blank (l ++ l') :=
  fun c hc => (List.mem_append.mp hc).elim (h c) (h' c)

theorem blank_reverse {l : List Char} (h : Blank l) : Blank l.reverse :=
  fun c hc => h c (List.mem_reverse.mp hc)

theorem blank_takeWhile (l : List Char) : Blank (l.takeWhile isBlank) :=
  fun c hc => List.all_eq_true.mp List.all_takeWhile c hc

theorem isBlank_of_isDigit {c : Char} (h : c.isDigit = true) : isBlank c = false := by
  have hlow : 48 ≤ c.toNat := by
    simp only [Char.isDigit, Bool.and_eq_true, decide_eq_true_eq] at h
    exact h.1
  have hhigh : c.toNat ≤ 57 := by
    simp only [Char.isDigit, Bool.and_eq_true, decide_eq_true_eq] at h
    exact h.2
  simp only [isBlank, Bool.or_eq_false_iff, Bool.and_eq_false_iff, decide_eq_false_iff_not,
    beq_eq_false_iff_ne]
  omega

/-! ## What is left -/

theorem trimStart_cons {c : Char} (s : List Char) (h : isBlank c = false) :
    trimStart (c :: s) = c :: s :=
  List.dropWhile_cons_of_neg (by simp [h])

theorem trimStart_eq_self {l : List Char} (h : ∀ c ∈ l.head?, isBlank c = false) :
    trimStart l = l := by
  cases l with
  | nil => rfl
  | cons c l => exact trimStart_cons l (h c rfl)

theorem trimStart_head (l : List Char) : ∀ c ∈ (trimStart l).head?, isBlank c = false := by
  intro c hc
  have h := List.head?_dropWhile_not isBlank l
  rw [trimStart, Option.mem_def] at hc
  rw [hc] at h
  exact h

theorem trimChars_eq_self {l : List Char} (h : Trimmed l) : trimChars l = l := by
  have hreverse : trimStart l.reverse = l.reverse := by
    apply trimStart_eq_self
    rw [List.head?_reverse]
    exact h.2
  rw [trimChars, trimStart_eq_self h.1, hreverse, List.reverse_reverse]

theorem trimmed_trimChars (s : List Char) : Trimmed (trimChars s) := by
  rw [trimChars]
  constructor
  · -- what is left of the reversed text ends as it did: in the first character that is not blank
    intro c hc
    rw [List.head?_reverse] at hc
    obtain ⟨t, ht⟩ := List.dropWhile_suffix (p := isBlank) (l := (trimStart s).reverse)
    apply trimStart_head s
    rw [← List.getLast?_reverse, ← ht, List.getLast?_append]
    rw [trimStart, Option.mem_def] at hc
    rw [hc]
    rfl
  · intro c hc
    rw [List.getLast?_reverse] at hc
    exact trimStart_head _ c hc

theorem trimmed_trim (s : String) : Trimmed (trim s).toList := by
  rw [trim, String.toList_ofList]
  exact trimmed_trimChars s.toList

theorem trim_trim (s : String) : trim (trim s) = trim s := by
  rw [trim, trim, String.toList_ofList, trimChars_eq_self (trimmed_trimChars s.toList)]

/-! ## What stands around it -/

theorem trimStart_blank {l : List Char} (h : Blank l) : trimStart l = [] := by
  have hstop : trimStart (l ++ []) = [] := dropWhile_append_stop l (by simp) h
  rwa [List.append_nil] at hstop

/-- A text is its trimmed text with blanks around it. -/
theorem trimsTo_trimChars (s : List Char) : TrimsTo s (trimChars s) := by
  have hfront : s = s.takeWhile isBlank ++ trimStart s := List.takeWhile_append_dropWhile.symm
  have hback : (trimStart s).reverse = (trimStart s).reverse.takeWhile isBlank ++
      trimStart (trimStart s).reverse := List.takeWhile_append_dropWhile.symm
  refine ⟨s.takeWhile isBlank, ((trimStart s).reverse.takeWhile isBlank).reverse, ?_,
    blank_takeWhile s, blank_reverse (blank_takeWhile _), trimmed_trimChars s⟩
  rw [List.append_assoc, trimChars, ← List.reverse_append, ← hback, List.reverse_reverse]
  exact hfront

/-- Blanks around a trimmed text are trimmed off. -/
theorem TrimsTo.trimChars_eq {s part : List Char} (h : TrimsTo s part) : trimChars s = part := by
  obtain ⟨before, after, rfl, hbefore, hafter, htrimmed⟩ := h
  cases part with
  | nil =>
    have hall : Blank (before ++ [] ++ after) := by
      rw [List.append_nil]
      exact hbefore.append hafter
    rw [trimChars, trimStart_blank hall]
    rfl
  | cons c rest =>
    have hfirst : ∀ d ∈ (c :: rest ++ after).head?, isBlank d = false := htrimmed.1
    have hlast : ∀ d ∈ (c :: rest).reverse.head?, isBlank d = false := by
      rw [List.head?_reverse]
      exact htrimmed.2
    have hstart : trimStart (before ++ (c :: rest) ++ after) = c :: rest ++ after := by
      rw [List.append_assoc]
      exact dropWhile_append_stop before hfirst hbefore
    have hend : trimStart (after.reverse ++ (c :: rest).reverse) = (c :: rest).reverse :=
      dropWhile_append_stop after.reverse hlast (blank_reverse hafter)
    rw [trimChars, hstart, List.reverse_append, hend, List.reverse_reverse]

theorem trimsTo_iff {s part : List Char} : TrimsTo s part ↔ trimChars s = part := by
  constructor
  · exact TrimsTo.trimChars_eq
  · rintro rfl
    exact trimsTo_trimChars s

theorem trimsTo_toList_iff {s part : String} : TrimsTo s.toList part.toList ↔ trim s = part := by
  rw [trimsTo_iff, trim, ← String.toList_inj, String.toList_ofList]

theorem trimChars_padded {before after : List Char} (s : List Char) (hbefore : Blank before)
    (hafter : Blank after) : trimChars (before ++ s ++ after) = trimChars s := by
  obtain ⟨front, back, hs, hfront, hback, htrimmed⟩ := trimsTo_trimChars s
  apply TrimsTo.trimChars_eq
  refine ⟨before ++ front, back ++ after, ?_, hbefore.append hfront, hback.append hafter, htrimmed⟩
  conv => lhs; rw [hs]
  simp only [List.append_assoc]

theorem trimChars_eq_nil_iff {s : List Char} : trimChars s = [] ↔ Blank s := by
  constructor
  · intro h
    obtain ⟨before, after, hs, hbefore, hafter, -⟩ := trimsTo_iff.mpr h
    rw [hs, List.append_nil]
    exact hbefore.append hafter
  · intro h
    exact TrimsTo.trimChars_eq ⟨s, [], by simp, h, by simp [Blank], by simp [Trimmed]⟩

theorem trim_eq_empty_iff {s : String} : trim s = "" ↔ Blank s.toList := by
  rw [trim, String.ofList_eq_empty_iff, trimChars_eq_nil_iff]

theorem trim_empty : trim "" = "" := trim_eq_empty_iff.mpr (by simp [Blank])

/-! ## Joined texts -/

/-- Parts that are not empty and have no blanks at their ends make such a text. -/
theorem trimmed_intercalate (sep : List Char) (parts : List (List Char))
    (h : ∀ p ∈ parts, p ≠ [] ∧ Trimmed p) :
    Trimmed (sep.intercalate parts) ∧ (parts ≠ [] → sep.intercalate parts ≠ []) := by
  induction parts with
  | nil => simp [Trimmed]
  | cons p rest ih =>
    obtain ⟨hp, htrimmed⟩ := h p (by simp)
    cases rest with
    | nil =>
      rw [List.intercalate_singleton]
      exact ⟨htrimmed, fun _ => hp⟩
    | cons q rest =>
      obtain ⟨⟨-, hlast⟩, hne⟩ := ih fun p hp => h p (List.mem_cons_of_mem _ hp)
      have hrest := hne (by simp)
      obtain ⟨c, cs, rfl⟩ := List.exists_cons_of_ne_nil hp
      rw [List.intercalate_cons_cons]
      refine ⟨⟨fun c hc => htrimmed.1 c hc, fun c hc => hlast c ?_⟩, by simp⟩
      rw [List.getLast?_append, List.getLast?_eq_some_getLast hrest] at hc
      rw [List.getLast?_eq_some_getLast hrest]
      exact hc

theorem trimmed_join (sep : String) {parts : List String}
    (h : ∀ p ∈ parts, p ≠ "" ∧ Trimmed p.toList) :
    Trimmed (sep.intercalate parts).toList ∧ (parts ≠ [] → sep.intercalate parts ≠ "") := by
  have hparts : ∀ p ∈ parts.map String.toList, p ≠ [] ∧ Trimmed p := by
    intro p hp
    obtain ⟨s, hs, rfl⟩ := List.mem_map.mp hp
    exact ⟨by simpa using (h s hs).1, (h s hs).2⟩
  obtain ⟨htrimmed, hne⟩ := trimmed_intercalate sep.toList _ hparts
  rw [← String.toList_intercalate] at htrimmed hne
  refine ⟨htrimmed, fun hnil hempty => hne (by simpa using hnil) ?_⟩
  rw [hempty, String.toList_empty]

end Gazetteer.Text
