import Gazetteer.Text.Blank

/-!
# Runs and separators

A run of characters ends where one follows that is not of the kind.  The first separator divides a
text, so a part without separators is found before it, whatever follows.  Parts joined by a
separator that none of them holds are found again.

    (s ++ rest).takeWhile p = s, if rest does not go on with p            (takeWhile_append_stop)
    splitOnce sep (a ++ sep :: b) = some (a, b), without sep in a               (splitOnce_append)
    splitAt sep ([sep].intercalate parts) = parts, without sep in the parts     (splitAt_intercalate)
-/

namespace Gazetteer.Text

/-! ## Runs -/

section Runs

variable {p : Char → Bool} (s : List Char) {rest : List Char} (h : ∀ c ∈ rest.head?, p c = false)

include h

theorem takeWhile_stopped : rest.takeWhile p = [] := by
  cases rest with
  | nil => rfl
  | cons c rest => exact List.takeWhile_cons_of_neg (by simp [h c rfl])

theorem dropWhile_stopped : rest.dropWhile p = rest := by
  cases rest with
  | nil => rfl
  | cons c rest => exact List.dropWhile_cons_of_neg (by simp [h c rfl])

theorem takeWhile_append_stop (hs : ∀ c ∈ s, p c = true) : (s ++ rest).takeWhile p = s := by
  rw [List.takeWhile_append_of_pos hs, takeWhile_stopped h, List.append_nil]

theorem dropWhile_append_stop (hs : ∀ c ∈ s, p c = true) : (s ++ rest).dropWhile p = rest := by
  rw [List.dropWhile_append_of_pos hs, dropWhile_stopped h]

end Runs

section

variable {p : Char → Bool} (s : List Char) {rest : List Char}
  (h : s.dropWhile p = [] → ∀ c ∈ rest.head?, p c = false)

include h

/-- What follows a run does not change it, unless the run takes the whole of `s` and goes on. -/
theorem takeWhile_append_next : (s ++ rest).takeWhile p = s.takeWhile p := by
  induction s with
  | nil => exact takeWhile_stopped (h rfl)
  | cons c s ih =>
    rw [List.dropWhile_cons] at h
    rw [List.cons_append, List.takeWhile_cons, List.takeWhile_cons]
    split
    · next hc => rw [ih fun hs => h (by rwa [if_pos hc])]
    · rfl

theorem dropWhile_append_next : (s ++ rest).dropWhile p = s.dropWhile p ++ rest := by
  induction s with
  | nil => exact dropWhile_stopped (h rfl)
  | cons c s ih =>
    rw [List.dropWhile_cons] at h
    rw [List.cons_append, List.dropWhile_cons, List.dropWhile_cons]
    split
    · next hc => rw [ih fun hs => h (by rwa [if_pos hc])]
    · rfl

end

/-! ## Separators -/

theorem splitOnce_append (sep : Char) (a b : List Char) (h : sep ∉ a) :
    splitOnce sep (a ++ sep :: b) = some (a, b) := by
  induction a with
  | nil => simp [splitOnce]
  | cons c a ih =>
    simp only [List.mem_cons, not_or] at h
    rw [List.cons_append, splitOnce, if_neg (Ne.symm h.1), ih h.2]
    rfl

theorem splitOnce_eq_none_iff {sep : Char} {l : List Char} :
    splitOnce sep l = none ↔ sep ∉ l := by
  induction l with
  | nil => simp [splitOnce]
  | cons c l ih =>
    rw [splitOnce, List.mem_cons, not_or, ← ih]
    by_cases hc : c = sep
    · simp [hc]
    · simp [hc, Ne.symm hc]

theorem of_splitOnce {sep : Char} {l a b : List Char} (h : splitOnce sep l = some (a, b)) :
    l = a ++ sep :: b ∧ sep ∉ a := by
  induction l generalizing a with
  | nil => cases h
  | cons c l ih =>
    rw [splitOnce] at h
    split at h
    · next hc =>
      cases h
      simp [hc]
    · next hc =>
      obtain ⟨⟨a', b'⟩, hsplit, heq⟩ := Option.map_eq_some_iff.mp h
      cases heq
      obtain ⟨rfl, hnot⟩ := ih hsplit
      exact ⟨rfl, by simp [Ne.symm hc, hnot]⟩

theorem splitAt_append (sep : Char) (part rest : List Char) (h : sep ∉ part) :
    splitAt sep (part ++ sep :: rest) = part :: splitAt sep rest := by
  induction part with
  | nil => simp [splitAt]
  | cons c part ih =>
    simp only [List.mem_cons, not_or] at h
    rw [List.cons_append, splitAt, if_neg (Ne.symm h.1), ih h.2]

theorem splitAt_of_notMem {sep : Char} {part : List Char} (h : sep ∉ part) :
    splitAt sep part = [part] := by
  induction part with
  | nil => rfl
  | cons c part ih =>
    simp only [List.mem_cons, not_or] at h
    rw [splitAt, if_neg (Ne.symm h.1), ih h.2]

theorem splitAt_intercalate (sep : Char) (part : List Char) (parts : List (List Char))
    (h : ∀ p ∈ part :: parts, sep ∉ p) :
    splitAt sep ([sep].intercalate (part :: parts)) = part :: parts := by
  induction parts generalizing part with
  | nil => simpa using splitAt_of_notMem (h part (by simp))
  | cons next parts ih =>
    have hrest := ih next fun p hp => h p (List.mem_cons_of_mem _ hp)
    rw [List.intercalate_cons_cons, List.append_assoc, List.singleton_append,
      splitAt_append _ _ _ (h part (by simp)), hrest]

end Gazetteer.Text
