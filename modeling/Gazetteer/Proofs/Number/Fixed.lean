import Mathlib.Data.List.Induction
import Gazetteer.Proofs.Number.Moderate

/-!
# Texts with a fixed number of places

A finite number is shown by the digits of a whole number of units of its last place, the one that
is nearest to it, with the even one chosen halfway.  At least one digit stands before the point, and
no superfluous zero.  This says all of such a text.

    IsNearest num den n: n is the whole number nearest to num / den
    x.ShownAs places text: the text shows x with so many places after its point

    IsNearest num den (roundHalfEven num den)                        (isNearest_roundHalfEven)
    x.ShownAs places text ↔ text = x.fixed places                                  (shownAs_iff)
-/

namespace Gazetteer

/-! ## The nearest whole number -/

/-- Not more than a half away, and even where it is a half. -/
structure IsNearest (num den n : Nat) : Prop where
  above : 2 * num ≤ 2 * n * den + den
  below : 2 * n * den ≤ 2 * num + den
  even : 2 * num = 2 * n * den + den ∨ 2 * n * den = 2 * num + den → n % 2 = 0

theorem isNearest_roundHalfEven {den : Nat} (hden : 0 < den) (num : Nat) :
    IsNearest num den (roundHalfEven num den) := by
  have hparts := Nat.div_add_mod' num den
  have hrest := Nat.mod_lt num hden
  unfold roundHalfEven
  dsimp only
  generalize num / den = q at hparts ⊢
  generalize num % den = rest at hparts hrest ⊢
  have hdouble : 2 * q * den = 2 * (q * den) := Nat.mul_assoc 2 q den
  have hnext : 2 * (q + 1) * den = 2 * (q * den) + 2 * den := by
    rw [Nat.mul_assoc, Nat.add_mul, Nat.one_mul, Nat.mul_add]
  split
  · next hup =>
    simp only [Bool.or_eq_true, decide_eq_true_eq, Bool.and_eq_true, beq_iff_eq] at hup
    constructor <;> rw [hnext] <;> omega
  · next hdown =>
    simp only [Bool.or_eq_true, decide_eq_true_eq, Bool.and_eq_true, beq_iff_eq] at hdown
    constructor <;> rw [hdouble] <;> omega

theorem IsNearest.le {num den n m : Nat} (hden : 0 < den) (hn : IsNearest num den n)
    (hm : IsNearest num den m) : m ≤ n := by
  by_contra hlt
  have habove := hn.above
  have hbelow := hm.below
  have hstep : 2 * (n + 1) * den = 2 * n * den + 2 * den := by rw [Nat.mul_add, Nat.add_mul]
  have hle : 2 * (n + 1) * den ≤ 2 * m * den :=
    Nat.mul_le_mul_right _ (Nat.mul_le_mul_left _ (Nat.lt_of_not_le hlt))
  -- they are neighbours, a half away on either side, and only one of them is even
  have hnext : 2 * m * den = 2 * (n + 1) * den := by omega
  have hneighbour : 2 * m = 2 * (n + 1) := Nat.eq_of_mul_eq_mul_right hden hnext
  have hevenN := hn.even (.inl (by omega))
  have hevenM := hm.even (.inr (by omega))
  omega

theorem IsNearest.unique {num den n m : Nat} (hden : 0 < den) (hn : IsNearest num den n)
    (hm : IsNearest num den m) : n = m :=
  Nat.le_antisymm (hm.le hden hn) (hn.le hden hm)

/-! ## Digits are determined -/

theorem digitsValue_concat (ds : List Char) (c : Char) :
    digitsValue (ds ++ [c]) = 10 * digitsValue ds + (c.toNat - '0'.toNat) := by
  simp [digitsValue, List.foldl_append]

theorem digit_bounds {c : Char} (h : c.isDigit = true) :
    '0'.toNat ≤ c.toNat ∧ c.toNat - '0'.toNat < 10 := by
  have hrange : 48 ≤ c.toNat ∧ c.toNat ≤ 57 := by
    simpa [Char.isDigit, UInt32.le_iff_toNat_le] using h
  have hzero : '0'.toNat = 48 := rfl
  omega

/-- As many digits of the same value are the same digits. -/
theorem eq_of_digitsValue_eq {ds es : List Char} (hds : ∀ c ∈ ds, c.isDigit = true)
    (hes : ∀ c ∈ es, c.isDigit = true) (hlength : ds.length = es.length)
    (hvalue : digitsValue ds = digitsValue es) : ds = es := by
  induction ds using List.reverseRecOn generalizing es with
  | nil => exact (List.length_eq_zero_iff.mp hlength.symm).symm
  | append_singleton ds c ih =>
    rcases List.eq_nil_or_concat es with rfl | ⟨es, e, rfl⟩
    · simp at hlength
    rw [List.concat_eq_append] at *
    rw [digitsValue_concat, digitsValue_concat] at hvalue
    have hc := digit_bounds (hds c (by simp))
    have he := digit_bounds (hes e (by simp))
    have hlast : c.toNat = e.toNat := by omega
    have hrest : ds = es :=
      ih (fun d hd => hds d (by simp [hd])) (fun d hd => hes d (by simp [hd]))
        (by simpa using hlength) (by omega)
    rw [hrest, Char.toNat_inj.mp hlast]

theorem digitsValue_lt {ds : List Char} (hds : ∀ c ∈ ds, c.isDigit = true) :
    digitsValue ds < 10 ^ ds.length := by
  induction ds using List.reverseRecOn with
  | nil => decide
  | append_singleton ds c ih =>
    have hc := digit_bounds (hds c (by simp))
    have hrest := ih fun d hd => hds d (by simp [hd])
    rw [digitsValue_concat, List.length_append, List.length_singleton, Nat.pow_succ]
    omega

/-- Digits after a first one that is no zero are those of a large number. -/
theorem pow_le_digitsValue {ds : List Char} (hds : ∀ c ∈ ds, c.isDigit = true) {k : Nat}
    (hlength : k < ds.length) (hhead : ds.head? ≠ some '0') : 10 ^ k ≤ digitsValue ds := by
  cases ds with
  | nil => cases hlength
  | cons c ds =>
    have hc := digit_bounds (hds c (by simp))
    have hne : c.toNat ≠ '0'.toNat := fun h => hhead (congrArg some (Char.toNat_inj.mp h))
    rw [digitsValue_eq, Nat.ofDigitChars_cons, Nat.ofDigitChars_eq_ofDigitChars_zero]
    calc 10 ^ k ≤ 10 ^ ds.length :=
          Nat.pow_le_pow_right (by decide) (Nat.le_of_lt_succ hlength)
      _ ≤ 10 ^ ds.length * (10 * 0 + (c.toNat - '0'.toNat)) :=
          Nat.le_mul_of_pos_right _ (by omega)
      _ ≤ _ := Nat.le_add_right _ _

theorem IsPadded.unique {width n : Nat} {ds es : List Char} (h : IsPadded width n ds)
    (h' : IsPadded width n es) : ds = es := by
  apply eq_of_digitsValue_eq h.digits h'.digits ?_ (h.value.trans h'.value.symm)
  have hshort {ds : List Char} (h : IsPadded width n ds) (hlength : ds.length = width) :
      n < 10 ^ width := by
    rw [← hlength, ← h.value]
    exact digitsValue_lt h.digits
  have hlong {ds : List Char} (h : IsPadded width n ds) {k : Nat} (hk : k < ds.length)
      (hhead : ds.head? ≠ some '0') : 10 ^ k ≤ n := by
    rw [← h.value]
    exact pow_le_digitsValue h.digits hk hhead
  have hupper {ds : List Char} (h : IsPadded width n ds) : n < 10 ^ ds.length := by
    rw [← h.value]
    exact digitsValue_lt h.digits
  rcases h.length with hds | ⟨hds, hhead⟩ <;> rcases h'.length with hes | ⟨hes, hhead'⟩
  · rw [hds, hes]
  · exact absurd (hlong h' hes hhead') (Nat.not_le.mpr (hshort h hds))
  · exact absurd (hlong h hds hhead) (Nat.not_le.mpr (hshort h' hes))
  · -- neither is longer, as its first digit would make its value larger
    apply Nat.le_antisymm <;> by_contra hlt
    · exact absurd (hlong h (Nat.lt_of_not_le hlt) hhead) (Nat.not_le.mpr (hupper h'))
    · exact absurd (hlong h' (Nat.lt_of_not_le hlt) hhead') (Nat.not_le.mpr (hupper h))

/-! ## The texts -/

namespace Binary64

/-- The text shows a double with so many places after its point. -/
inductive ShownAs (places : Nat) : Binary64 → String → Prop where
  | nan : ShownAs places .nan "NaN"
  | infinite : ShownAs places (.infinite false) "inf"
  | negativeInfinite : ShownAs places (.infinite true) "-inf"
  | finite {negative : Bool} {u : Nat} {h : IsMagnitude u} {n : Nat} {whole fraction : List Char}
      (hnearest : IsNearest (u * Nat.pow 10 places) unitScale n)
      (hdigits : IsPadded (places + 1) n (whole ++ fraction)) (hplaces : fraction.length = places) :
      ShownAs places (.finite negative u h)
        (String.ofList ((if negative then ['-'] else []) ++ whole ++ '.' :: fraction))

theorem positional_places {ds : List Char} {places : Nat} (hplaces : 0 < places)
    (hlength : places < ds.length) :
    positional false ds ((ds.length : Int) - places) =
      ds.take (ds.length - places) ++ '.' :: ds.drop (ds.length - places) := by
  have hbefore : ((ds.length : Int) - places).toNat = ds.length - places := by omega
  have hpositive : ¬ (ds.length : Int) - places ≤ 0 := by omega
  have hfraction : ¬ (ds.length : Int) ≤ ds.length - places := by omega
  rw [positional, if_neg hpositive, if_neg hfraction, hbefore]

theorem shownAs_fixed {places : Nat} (hplaces : 0 < places) (x : Binary64) :
    x.ShownAs places (x.fixed places) := by
  cases x with
  | nan => exact .nan
  | infinite s =>
    cases s with
    | false => exact .infinite
    | true => exact .negativeInfinite
  | finite s u hu =>
    have hnearest := isNearest_roundHalfEven unitScale_pos (u * Nat.pow 10 places)
    have hdigits := isPadded_zeros_toDigits (Nat.succ_pos places)
      (roundHalfEven (u * Nat.pow 10 places) unitScale)
    unfold fixed fixedChars
    dsimp only
    generalize roundHalfEven (u * Nat.pow 10 places) unitScale = n at hnearest hdigits ⊢
    generalize zeros (places + 1 - (Nat.toDigits 10 n).length) ++ Nat.toDigits 10 n = ds at *
    have hlength : places < ds.length := by
      rcases hdigits.length with h | ⟨h, -⟩ <;> omega
    rw [positional_places hplaces hlength]
    rw [← List.take_append_drop (ds.length - places) ds] at hdigits
    have hdrop : (ds.drop (ds.length - places)).length = places := by
      rw [List.length_drop]
      omega
    have hshown (negative : Bool) : ShownAs places (.finite negative u hu) _ :=
      .finite hnearest hdigits hdrop
    cases s with
    | false => exact hshown false
    | true => exact hshown true

theorem ShownAs.unique {places : Nat} {x : Binary64} {text text' : String}
    (h : x.ShownAs places text) (h' : x.ShownAs places text') : text = text' := by
  cases h with
  | nan | infinite | negativeInfinite =>
    cases h'
    rfl
  | finite hnearest hdigits hplaces =>
    cases h' with
    | finite hnearest' hdigits' hplaces' =>
      have hscale := unitScale_pos
      generalize unitScale = scale at hnearest hnearest' hscale
      obtain rfl := hnearest.unique hscale hnearest'
      obtain ⟨rfl, rfl⟩ := List.append_inj' (hdigits.unique hdigits')
        (hplaces.trans hplaces'.symm)
      rfl

theorem shownAs_iff {places : Nat} (hplaces : 0 < places) {x : Binary64} {text : String} :
    x.ShownAs places text ↔ text = x.fixed places := by
  constructor
  · exact fun h => h.unique (shownAs_fixed hplaces x)
  · rintro rfl
    exact shownAs_fixed hplaces x

end Binary64

end Gazetteer
