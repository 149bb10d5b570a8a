import Gazetteer.Instant.Reader
import Gazetteer.Proofs.Number.Numeral
import Gazetteer.Proofs.Text.Trim

/-!
# Instants are read back

The text of an instant is a row of numbers with marks between them.  Each number is padded to the
width that its reader takes, so each reader takes its own field and leaves the rest.  A leap second
is shown as a 60th second and is read as one again.

    readNumber? w (padded w n ++ rest) = some (n, rest)                     (readNumber?_padded)
    readYear? (yearChars year ++ rest) = some (year, rest)                  (readYear?_yearChars)
    readFraction? (t.fractionChars ++ ['Z']) = some (nanoseconds, ['Z'])
                                                                    (readFraction?_fractionChars)
    t.InRange → ofText? t.text = some t                                           (ofText?_text)
-/

namespace Gazetteer

theorem Text.trimStart_digits (ds rest : List Char) (h : IsDigits ds) :
    trimStart (ds ++ rest) = ds ++ rest := by
  obtain ⟨d, ds, rfl⟩ := List.exists_cons_of_ne_nil h.1
  exact trimStart_cons _ (isBlank_of_isDigit (h.2 d (by simp)))

namespace Instant

/-! ## Padded numbers -/

theorem isDigits_padded (width n : Nat) : IsDigits (padded width n) := by
  have hdigits := isDigits_toDigits n
  refine ⟨by simp [padded, hdigits.1], fun c hc => ?_⟩
  rcases List.mem_append.mp hc with hc | hc
  · exact isDigit_of_mem_zeros hc
  · exact hdigits.2 c hc

theorem digitsValue_padded (width n : Nat) : digitsValue (padded width n) = n :=
  (digitsValue_zeros_append _ _).trans (digitsValue_toDigits n)

theorem length_padded (width n : Nat) (hwidth : 0 < width) (h : n < 10 ^ width) :
    (padded width n).length = width := by
  have hlength : (Nat.toDigits 10 n).length ≤ width :=
    (Nat.length_toDigits_le_iff (by decide) hwidth).mpr h
  simp only [padded, List.length_append, List.length_replicate]
  omega

theorem takeWhile_padded (width n : Nat) :
    (padded width n).takeWhile Char.isDigit = padded width n := by
  have h := Text.takeWhile_append_stop (padded width n) noDigit_nil (isDigits_padded width n).2
  rwa [List.append_nil] at h

theorem readNumber?_padded (width n : Nat) (rest : List Char) (hwidth : 0 < width)
    (h : n < 10 ^ width) : readNumber? width (padded width n ++ rest) = some (n, rest) := by
  have htake : (padded width n ++ rest).take width = padded width n :=
    List.take_left' (length_padded width n hwidth h)
  have hdigits := isDigits_padded width n
  unfold readNumber?
  rw [Text.trimStart_digits _ _ hdigits]
  simp only [htake, takeWhile_padded, hdigits.1, if_false, digitsValue_padded, List.drop_left]

theorem readSigned_padded (width n : Nat) (rest : List Char) (hrest : NoDigit rest) :
    readYear?.readSigned (padded width n ++ rest) = some (n, rest) := by
  have hdigits := isDigits_padded width n
  unfold readYear?.readSigned
  simp only [Text.takeWhile_append_stop _ hrest hdigits.2, hdigits.1, if_false, digitsValue_padded,
    List.drop_left]

theorem readMark?_cons {mark : Char} (rest : List Char) (h : Text.isBlank mark = false) :
    readMark? mark (mark :: rest) = some rest := by
  unfold readMark?
  rw [Text.trimStart_cons _ h]
  exact if_pos rfl

/-! ## Years and fractions -/

theorem readYear?_yearChars (year : Int) (rest : List Char) (hrest : NoDigit rest) :
    readYear? (yearChars year ++ rest) = some (year, rest) := by
  unfold yearChars
  by_cases hplain : 0 ≤ year ∧ year ≤ 9999
  · have hnumber := readNumber?_padded 4 year.natAbs rest (by decide) (by omega)
    have hdigits := isDigits_padded 4 year.natAbs
    have hyear : (year.natAbs : Int) = year := Int.natAbs_of_nonneg hplain.1
    rw [if_pos hplain, readYear?, Text.trimStart_digits _ _ hdigits]
    split
    · next heq => exact absurd (Json.Numeral.digits_head hdigits heq) (by decide)
    · next heq => exact absurd (Json.Numeral.digits_head hdigits heq) (by decide)
    · simp only [hnumber, Option.map_some, hyear]
  · have hsigned := readSigned_padded 4 year.natAbs rest hrest
    rw [if_neg hplain, List.cons_append]
    by_cases hneg : year < 0
    · have hyear : -(year.natAbs : Int) = year := by omega
      rw [if_pos hneg, readYear?, Text.trimStart_cons _ rfl]
      simp only [hsigned, Option.map_some, hyear]
    · have hyear : (year.natAbs : Int) = year := by omega
      rw [if_neg hneg, readYear?, Text.trimStart_cons _ rfl]
      simp only [hsigned, Option.map_some, hyear]

theorem readFraction?_padded (width n : Nat) (hwidth : 0 < width) (hnine : width ≤ 9)
    (h : n < 10 ^ width) :
    readFraction? ('.' :: (padded width n ++ ['Z'])) = some (n * 10 ^ (9 - width), ['Z']) := by
  have hdigits := isDigits_padded width n
  have hlength := length_padded width n hwidth h
  have htake : (padded width n).take 9 = padded width n :=
    List.take_of_length_le (by omega)
  unfold readFraction?
  simp only [Text.takeWhile_append_stop _ (noDigit_cons [] (show 'Z'.isDigit = false by rfl)) hdigits.2,
    hdigits.1, if_false, htake, digitsValue_padded, hlength, Nat.pow_eq]
  rw [List.drop_left' hlength]

theorem readFraction?_fractionChars (t : Instant) :
    readFraction? (t.fractionChars ++ ['Z']) = some (t.nano % 1000000000, ['Z']) := by
  have hlt : t.nano % 1000000000 < 1000000000 := Nat.mod_lt _ (by decide)
  unfold fractionChars
  generalize t.nano % 1000000000 = n at hlt
  dsimp only
  split
  · next hzero => rw [hzero]; rfl
  split
  · next hmilli =>
    rw [List.cons_append, readFraction?_padded 3 _ (by decide) (by decide) (by omega)]
    have hvalue : n / 1000000 * 10 ^ (9 - 3) = n := by omega
    rw [hvalue]
  split
  · next hmicro =>
    rw [List.cons_append, readFraction?_padded 6 _ (by decide) (by decide) (by omega)]
    have hvalue : n / 1000 * 10 ^ (9 - 6) = n := by omega
    rw [hvalue]
  · rw [List.cons_append, readFraction?_padded 9 _ (by decide) (by decide) (by omega),
      Nat.sub_self, Nat.pow_zero, Nat.mul_one]

/-! ## The whole text -/

/-- The year is one that a date may lie in. -/
def InRange (t : Instant) : Prop := yearRange.1 ≤ t.year ∧ t.year ≤ yearRange.2

instance (t : Instant) : Decidable t.InRange := inferInstanceAs (Decidable (_ ∧ _))

theorem month_le (t : Instant) : t.month ≤ 12 := by
  apply Classical.byContradiction
  intro h
  have hnone : daysInMonth t.year t.month = 0 := by
    unfold daysInMonth
    split
    all_goals omega
  have hday := t.civil.1
  omega

theorem daysInMonth_le (year : Int) (month : Nat) : daysInMonth year month ≤ 31 := by
  unfold daysInMonth
  repeat' split
  all_goals decide

/-- The fields of an instant give it back. -/
theorem ofFields?_fields (t : Instant) (h : t.InRange) :
    ofFields? (t.year, t.month, t.day) (t.hour * 60 + t.minute) t.second t.nano = some t := by
  have hminute : t.minute < 60 := t.civil.2.2.1
  have hhours : (t.hour * 60 + t.minute) / 60 = t.hour := by omega
  have hminutes : (t.hour * 60 + t.minute) % 60 = t.minute := by omega
  unfold ofFields?
  simp only [hhours, hminutes, t.civil, dite_true]
  exact if_pos h

/-- In UTC nothing is shifted. -/
theorem shifted?_zero (t : Instant) (h : t.InRange) : t.shifted? 0 = some t := by
  have hhour : t.hour < 24 := t.civil.2.1
  have hminute : t.minute < 60 := t.civil.2.2.1
  have hnat : (((t.hour * 60 + t.minute : Nat) : Int) % 1440).toNat = t.hour * 60 + t.minute := by
    omega
  unfold shifted?
  simp only [Int.sub_zero]
  rw [if_neg (by omega), if_neg (by omega), hnat]
  exact ofFields?_fields t h

/-- The second and the nanoseconds that are shown are those of the instant. -/
theorem shown_fields (t : Instant) :
    min t.shownSecond 59 = t.second ∧ t.shownSecond ≤ 60 ∧
      t.nano % 1000000000 + (if t.shownSecond = 60 then 1000000000 else 0) = t.nano := by
  obtain ⟨-, -, -, hsecond, hnano⟩ := t.civil
  unfold shownSecond
  by_cases hlast : t.second = 59
  · rw [if_pos hlast] at hnano
    split <;> omega
  · rw [if_neg hlast] at hnano
    split <;> omega

theorem ofChars?_chars (t : Instant) (h : t.InRange) : ofChars? t.chars = some t := by
  obtain ⟨⟨-, hday⟩, hhour, hminute, -, -⟩ := t.civil
  have hmonth := t.month_le
  have hdays := daysInMonth_le t.year t.month
  obtain ⟨hsecond, hsixty, hnano⟩ := t.shown_fields
  have hyear (rest : List Char) := readYear?_yearChars t.year ('-' :: rest) (noDigit_cons _ rfl)
  have hnumber (n : Nat) (rest : List Char) (hn : n < 100) :
      readNumber? 2 (padded 2 n ++ rest) = some (n, rest) :=
    readNumber?_padded 2 n rest (by decide) hn
  have hdash (rest : List Char) : readMark? '-' ('-' :: rest) = some rest := readMark?_cons rest rfl
  have hcolon (rest : List Char) : readMark? ':' (':' :: rest) = some rest :=
    readMark?_cons rest rfl
  have hzone : readZone? ['Z'] = some (0, []) := rfl
  have htext : t.chars = yearChars t.year ++ '-' :: (padded 2 t.month ++ '-' :: (padded 2 t.day ++
      'T' :: (padded 2 t.hour ++ ':' :: (padded 2 t.minute ++ ':' :: (padded 2 t.shownSecond ++
        (t.fractionChars ++ ['Z'])))))) := by
    simp only [chars, dateChars, clockChars, List.append_assoc, List.cons_append]
  have hin : ¬(Text.trimStart [] ≠ [] ∨ 23 < t.hour ∨ 59 < t.minute ∨ 60 < t.shownSecond) := by
    have hend : Text.trimStart [] = [] := rfl
    simp only [hend, ne_eq, not_true_eq_false, false_or]
    omega
  have hshown := ofFields?_fields t h
  rw [htext, ofChars?]
  -- one step for each part of the text
  refine Option.bind_eq_some_iff.mpr ⟨_, hyear _, ?_⟩
  refine Option.bind_eq_some_iff.mpr ⟨_, hdash _, ?_⟩
  refine Option.bind_eq_some_iff.mpr ⟨_, hnumber t.month _ (by omega), ?_⟩
  refine Option.bind_eq_some_iff.mpr ⟨_, hdash _, ?_⟩
  refine Option.bind_eq_some_iff.mpr ⟨_, hnumber t.day _ (by omega), ?_⟩
  refine Option.bind_eq_some_iff.mpr ⟨_, hnumber t.hour _ (by omega), ?_⟩
  refine Option.bind_eq_some_iff.mpr ⟨_, hcolon _, ?_⟩
  refine Option.bind_eq_some_iff.mpr ⟨_, hnumber t.minute _ (by omega), ?_⟩
  refine Option.bind_eq_some_iff.mpr ⟨_, hcolon _, ?_⟩
  refine Option.bind_eq_some_iff.mpr ⟨_, hnumber t.shownSecond _ (by omega), ?_⟩
  refine Option.bind_eq_some_iff.mpr ⟨_, readFraction?_fractionChars t, ?_⟩
  refine Option.bind_eq_some_iff.mpr ⟨_, hzone, ?_⟩
  dsimp only
  rw [if_neg hin, hsecond, hnano]
  exact Option.bind_eq_some_iff.mpr ⟨_, hshown, shifted?_zero t h⟩

/-- The Internet form of an instant is read as the instant. -/
theorem ofText?_text (t : Instant) (h : t.InRange) : ofText? t.text = some t := by
  rw [ofText?, text, String.toList_ofList]
  exact ofChars?_chars t h

end Instant

end Gazetteer
