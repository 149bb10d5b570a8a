import Gazetteer.Proofs.Number.Order

/-!
# Which numbers are too large

Between the largest double and the first power of two beyond the doubles, the middle is the first
number that is rounded to an infinity: of the two it goes to the even one, which is no double.  So
the text of a number is read as a finite double just if the number that it denotes is below that
middle, however many digits it has and whichever exponent.  The names of the infinities and of NaN
denote no number.

    nearestMagnitude num den < magnitudeLimit ↔ num / den is below the limit
                                                                   (nearestMagnitude_lt_limit_iff)
    (ofDecimal s d).isFinite ↔ d.Fits                                     (ofDecimal_isFinite_iff)
    ofText text = .ok x → (x.isFinite ↔ IsRealText text)                     (ofText_isFinite_iff)
-/

namespace Gazetteer

/-- The first number that is rounded beyond the doubles. -/
def roundingLimit : Nat := Nat.pow 2 1024 - Nat.pow 2 970

/-! ## Quotients -/

/-- With `2 ^ 53` places in all, the last one is not rounded up from before its middle. -/
theorem nearestMagnitude_lt_of_spacing {num den half : Nat} (hden : 0 < den) (hhalf : 0 < half)
    (hspacing : spacing (num / den) = 2 * half) (h : num < (2 ^ 54 - 1) * (den * half)) :
    nearestMagnitude num den < 2 ^ 54 * half := by
  have hunit : 0 < den * half := Nat.mul_pos hden hhalf
  have hplaces (places : Nat) (hle : (2 * places) * (den * half) < (2 ^ 54 - 1) * (den * half)) :
      places * (2 * half) < 2 ^ 54 * half := by
    have hlt : 2 * places < 2 ^ 54 - 1 := Nat.lt_of_mul_lt_mul_right hle
    rw [← Nat.mul_assoc, Nat.mul_comm places 2]
    exact Nat.mul_lt_mul_of_pos_right (by omega) hhalf
  unfold nearestMagnitude
  dsimp only
  rw [hspacing, Nat.mul_left_comm den 2 half]
  generalize den * half = unit at h hunit hplaces ⊢
  have hparts := Nat.div_add_mod num (2 * unit)
  generalize num / (2 * unit) = places at hparts ⊢
  generalize num % (2 * unit) = rest at hparts ⊢
  rw [Nat.mul_assoc, Nat.mul_comm unit places] at hparts
  split
  · next hup =>
    simp only [Bool.or_eq_true, decide_eq_true_eq, Bool.and_eq_true, beq_iff_eq] at hup
    have hlt : (2 * places + 1) * unit < (2 ^ 54 - 1) * unit := by
      rw [Nat.add_mul, Nat.mul_assoc]
      omega
    have hodd : 2 * places + 1 < 2 ^ 54 - 1 := Nat.lt_of_mul_lt_mul_right hlt
    exact hplaces (places + 1) (Nat.mul_lt_mul_of_pos_right (by omega) hunit)
  · apply hplaces places
    rw [Nat.mul_assoc]
    omega

/-- What is below the middle between a power of two and the place before it stays below the power.
-/
theorem nearestMagnitude_lt_pow {num den k : Nat} (hden : 0 < den)
    (h : num < (2 ^ 54 - 1) * (den * 2 ^ k)) : nearestMagnitude num den < 2 ^ 54 * 2 ^ k := by
  have hhalf : 0 < 2 ^ k := Nat.pow_pos (by decide)
  by_cases hlow : num ≤ 2 ^ (53 + k) * den
  · -- The power of two below it is not passed.
    have hdvd : spacing (2 ^ (53 + k)) ∣ 2 ^ (53 + k) := by
      have hone := spacing_dvd 1 (53 + k) (by decide)
      rwa [Nat.one_mul] at hone
    have hle := nearestMagnitude_le_of_le hdvd hden hlow
    rw [Nat.pow_add] at hle
    omega
  · have hlarge : 2 ^ (53 + k) ≤ num / den := (Nat.le_div_iff_mul_le hden).mpr (by omega)
    have hsmall : num / den < 2 ^ (53 + k + 1) := by
      rw [Nat.div_lt_iff_lt_mul hden, Nat.add_right_comm, Nat.pow_add, Nat.mul_assoc,
        Nat.mul_comm _ den]
      exact Nat.lt_of_lt_of_le h (Nat.mul_le_mul_right _ (by decide))
    have hpower : 0 < 2 ^ (53 + k) := Nat.pow_pos (by decide)
    have hlog : (num / den).log2 = 53 + k := (Nat.log2_eq_iff (by omega)).mpr ⟨hlarge, hsmall⟩
    have hspacing : spacing (num / den) = 2 * 2 ^ k := by
      have hexponent : 53 + k - 52 = k + 1 := by omega
      rw [spacing, hlog, hexponent, Nat.pow_eq, Nat.pow_succ, Nat.mul_comm]
    exact nearestMagnitude_lt_of_spacing hden hhalf hspacing h

/-- A quotient is rounded to a magnitude if and only if it is below the limit. -/
theorem nearestMagnitude_lt_limit_iff {num den : Nat} (hden : 0 < den) :
    nearestMagnitude num den < magnitudeLimit ↔ num < roundingLimit * unitScale * den := by
  constructor
  · intro h
    refine Nat.lt_of_not_le fun hle => ?_
    have hlimit : nearestMagnitude (roundingLimit * unitScale) 1 = magnitudeLimit := by
      decide +kernel
    have hmono := nearestMagnitude_mono Nat.one_pos hden
      (show roundingLimit * unitScale * den ≤ num * 1 by rwa [Nat.mul_one])
    omega
  · intro h
    obtain ⟨k, hlimit, hmagnitude⟩ : ∃ k, roundingLimit * unitScale = (2 ^ 54 - 1) * Nat.pow 2 k ∧
        magnitudeLimit = 2 ^ 54 * Nat.pow 2 k := ⟨2044, by decide +kernel⟩
    rw [hlimit, Nat.mul_assoc, Nat.mul_comm _ den] at h
    rw [hmagnitude]
    exact nearestMagnitude_lt_pow hden h

/-! ## Decimals -/

/-- The decimal is below the limit. -/
def Decimal.Fits (d : Decimal) : Prop :=
  d.digits * Nat.pow 10 d.exponent.toNat < roundingLimit * Nat.pow 10 (-d.exponent).toNat

instance (d : Decimal) : Decidable d.Fits := inferInstanceAs (Decidable (_ < _))

namespace Binary64

theorem ofUnits_isFinite_iff (s : Bool) {num den : Nat} (hden : 0 < den) :
    (ofUnits s num den).isFinite = true ↔ num < roundingLimit * unitScale * den := by
  rw [← nearestMagnitude_lt_limit_iff hden]
  unfold ofUnits
  dsimp only
  split
  · next h => exact iff_of_true rfl h.1
  · next h =>
    have hinfinite : ¬ (infinite s).isFinite = true := Bool.false_ne_true
    exact iff_of_false hinfinite fun hlt => h (isMagnitude_nearestMagnitude num den hlt)

/-- A decimal is read as a finite double if and only if it is below the limit.  Both cut-offs are on
their sides of it. -/
theorem ofDecimal_isFinite_iff (s : Bool) (d : Decimal) :
    (ofDecimal s d).isFinite = true ↔ d.Fits := by
  have hlimit : 0 < roundingLimit := by
    unfold roundingLimit
    apply Nat.sub_pos_of_lt
    apply Nat.pow_lt_pow_right <;> decide
  have hden : 0 < Nat.pow 10 (-d.exponent).toNat := Nat.pow_pos (by decide)
  unfold ofDecimal Decimal.Fits
  dsimp only
  split
  · next hsmall =>
    refine iff_of_true rfl ?_
    have hone : 1 * Nat.pow 10 (-d.exponent).toNat ≤
        roundingLimit * Nat.pow 10 (-d.exponent).toNat := Nat.mul_le_mul_right _ hlimit
    rcases hsmall with hzero | hsmall
    · rw [hzero, Nat.zero_mul]
      omega
    · have hexponent : d.exponent.toNat = 0 := by omega
      have hcount : d.digits < 10 ^ (-d.exponent).toNat :=
        (digitCount_le_iff _ _ (by omega)).mp (by omega)
      rw [hexponent, Nat.pow_eq, Nat.pow_zero, Nat.mul_one]
      exact Nat.lt_of_lt_of_le hcount (by rwa [Nat.one_mul] at hone)
  next hsmall =>
  split
  · next hlarge =>
    refine iff_of_false nofun (Nat.not_lt.mpr ?_)
    have hdigits := pow_digitCount_le fun hzero => hsmall (.inl hzero)
    obtain ⟨k, hk, hten⟩ : ∃ k, k = 310 ∧ roundingLimit ≤ 10 ^ k := ⟨310, rfl, by decide +kernel⟩
    calc roundingLimit * Nat.pow 10 (-d.exponent).toNat
        ≤ 10 ^ k * Nat.pow 10 (-d.exponent).toNat := Nat.mul_le_mul_right _ hten
      _ = 10 ^ (k + (-d.exponent).toNat) := (Nat.pow_add ..).symm
      _ ≤ 10 ^ (digitCount d.digits - 1 + d.exponent.toNat) :=
          Nat.pow_le_pow_right (by decide) (by omega)
      _ = 10 ^ (digitCount d.digits - 1) * Nat.pow 10 d.exponent.toNat := Nat.pow_add ..
      _ ≤ d.digits * Nat.pow 10 d.exponent.toNat := Nat.mul_le_mul_right _ hdigits
  · rw [ofUnits_isFinite_iff s hden, Nat.mul_right_comm roundingLimit]
    exact Nat.mul_lt_mul_right unitScale_pos

end Binary64

/-! ## Texts -/

/-- A number text after its sign. -/
def Text.unsigned : List Char → List Char
  | '-' :: s => s
  | '+' :: s => s
  | s => s

/-- A text of digits that denotes a number below the limit.  The names of numbers are none. -/
def IsRealText (text : String) : Prop :=
  ∃ d, Decimal.ofChars? (Text.unsigned text.toList) = some d ∧ d.Fits

/-- The name of a number is not written with digits. -/
theorem Decimal.ofChars?_name {chars name : List Char} {c : Char}
    (h : chars.map Char.toLower = c :: name) (hdigit : c.isDigit = false) (hdot : c ≠ '.') :
    ofChars? chars = none := by
  obtain ⟨d, rest, rfl, hd, -⟩ := List.map_eq_cons_iff.mp h
  have hdigit' : d.isDigit = false := by
    cases hc : d.isDigit with
    | false => rfl
    | true =>
      rw [← hd, Binary64.toLower_of_isDigit hc, hc] at hdigit
      cases hdigit
  have hdot' : d ≠ '.' := by
    rintro rfl
    exact hdot hd.symm
  simp [ofChars?, hdigit', hdot']

namespace Binary64

theorem ofUnsigned?_isFinite_iff {s : Bool} {chars : List Char} {x : Binary64}
    (h : ofUnsigned? s chars = some x) :
    x.isFinite = true ↔ ∃ d, Decimal.ofChars? chars = some d ∧ d.Fits := by
  have hname (hnone : Decimal.ofChars? chars = none) (hx : x.isFinite = false) :
      x.isFinite = true ↔ ∃ d, Decimal.ofChars? chars = some d ∧ d.Fits := by
    simp [hnone, hx]
  unfold ofUnsigned? at h
  dsimp only at h
  split at h
  · next hinf =>
    cases h
    refine hname ?_ rfl
    rcases hinf with hinf | hinf <;> exact Decimal.ofChars?_name hinf rfl (by decide)
  split at h
  · next hnan =>
    cases h
    exact hname (Decimal.ofChars?_name hnan rfl (by decide)) rfl
  · obtain ⟨d, hd, rfl⟩ := Option.map_eq_some_iff.mp h
    simp [hd, ofDecimal_isFinite_iff]

/-- The text of a number is read as a finite double if and only if it is a real text. -/
theorem ofText_isFinite_iff {text : String} {x : Binary64} (h : ofText text = .ok x) :
    x.isFinite = true ↔ IsRealText text := by
  unfold ofText at h
  split at h
  · cases h
  split at h
  · next y hread =>
    cases h
    unfold ofChars? at hread
    unfold IsRealText
    split at hread
    · next s heq =>
      rw [heq]
      exact ofUnsigned?_isFinite_iff hread
    · next s heq =>
      rw [heq]
      exact ofUnsigned?_isFinite_iff hread
    · next hminus hplus =>
      rw [Text.unsigned.eq_3 _ hminus hplus]
      exact ofUnsigned?_isFinite_iff hread
  · cases h

end Binary64

end Gazetteer
