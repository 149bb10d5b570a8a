import Gazetteer.Proofs.Address.Range
import Gazetteer.Proofs.Number.Order

/-!
# Degrees that are read back stay within their limits

The reader of JSON numbers may miss the double that a number was written for, so a coordinate at the
end of its range might come back from beyond it.  It does not: rounding never passes a magnitude,
what the reader starts from is at most the number that was written, and that is at most the limit.
With more than twenty decimal places the reader's power of ten is not exact, but then a 64-bit
significand denotes a number below 1.

    x.within 180 → x.reread? = some y → y.within 180, likewise for 90   (within_of_reread?)
-/

namespace Gazetteer

/-! ## Decimals up to a limit -/

/-- The number is at most a whole one. -/
def Decimal.AtMost (d : Decimal) (limit : Nat) : Prop :=
  d.digits * Nat.pow 10 d.exponent.toNat ≤ limit * Nat.pow 10 (-d.exponent).toNat

instance (d : Decimal) (limit : Nat) : Decidable (d.AtMost limit) :=
  inferInstanceAs (Decidable (_ ≤ _))

theorem Decimal.atMost_zeros (digits k limit : Nat) (e : Int) :
    AtMost ⟨digits * 10 ^ k, e - k⟩ limit ↔ AtMost ⟨digits, e⟩ limit := by
  -- Both sides times the same power of ten, whichever signs the exponents have.
  obtain ⟨i, hleft, hright⟩ : ∃ i, k + (e - k).toNat = e.toNat + i ∧
      (-(e - k)).toNat = (-e).toNat + i := ⟨k + (e - k).toNat - e.toNat, by omega, by omega⟩
  unfold AtMost
  dsimp only
  rw [hright, Nat.pow_eq, Nat.pow_eq, Nat.pow_eq, Nat.pow_eq, Nat.mul_assoc, ← Nat.pow_add, hleft,
    Nat.pow_add, Nat.pow_add, ← Nat.mul_assoc, ← Nat.mul_assoc]
  exact Nat.mul_le_mul_right_iff (Nat.pow_pos (by decide))

theorem Decimal.AtMost.of_le {d d' : Decimal} {limit : Nat} (h : d'.AtMost limit) (m : Nat)
    (hexponent : d.exponent = d'.exponent + m) (hdigits : d.digits * 10 ^ m ≤ d'.digits) :
    d.AtMost limit := by
  obtain ⟨digits, exponent⟩ := d
  obtain ⟨digits', exponent'⟩ := d'
  dsimp only at hexponent hdigits
  have hshift : exponent' = exponent - m := by omega
  subst hshift
  rw [← atMost_zeros digits m]
  exact Nat.le_trans (Nat.mul_le_mul_right _ hdigits) h

/-- A decimal that is read as less than what a whole number is rounded to is less than the number.
-/
theorem Decimal.atMost_of_ofDecimal {s : Bool} {d : Decimal} {u limit : Nat} {h : IsMagnitude u}
    (hread : Binary64.ofDecimal s d = .finite s u h) (hlimit : 0 < limit)
    (hu : u < nearestMagnitude (limit * unitScale) 1) : d.AtMost limit := by
  refine Nat.le_of_not_lt fun hlarge => ?_
  have hsize : ¬ (d.digits = 0 ∨ (digitCount d.digits : Int) + d.exponent < -330) := by
    rintro (hzero | hsmall)
    · rw [hzero, Nat.zero_mul] at hlarge
      exact Nat.not_lt_zero _ hlarge
    · have hexponent : d.exponent.toNat = 0 := by omega
      have hcount : d.digits < 10 ^ (-d.exponent).toNat :=
        (digitCount_le_iff _ _ (by omega)).mp (by omega)
      have hone : Nat.pow 10 (-d.exponent).toNat ≤ limit * Nat.pow 10 (-d.exponent).toNat :=
        Nat.le_mul_of_pos_left _ hlimit
      simp only [hexponent, Nat.pow_eq, Nat.pow_zero, Nat.mul_one] at hlarge hone
      omega
  have hunits := Binary64.nearestMagnitude_of_ofDecimal hread hsize
  have hle : nearestMagnitude (limit * unitScale) 1 ≤ nearestMagnitude
      (d.digits * Nat.pow 10 d.exponent.toNat * unitScale) (Nat.pow 10 (-d.exponent).toNat) := by
    apply nearestMagnitude_mono Nat.one_pos (Nat.pow_pos (by decide))
    rw [Nat.mul_right_comm, Nat.mul_one]
    exact Nat.mul_le_mul_right _ (Nat.le_of_lt hlarge)
  omega

/-- Zeros at its end do not take a decimal over a limit. -/
theorem Decimal.AtMost.numeral {d : Decimal} {limit : Nat} (h : d.AtMost limit) (layout : Layout)
    (s : Bool) : (d.numeral layout s).decimal.AtMost limit := by
  obtain ⟨digits, exponent⟩ := d
  obtain ⟨k, -, hk⟩ := decimal_numeral layout s ⟨digits, exponent⟩
  rw [hk, atMost_zeros]
  exact h

/-! ## What the reader of a number starts from -/

namespace Json.Numeral

/-- Digits that are left over count as zeros. -/
theorem collect_le (s : Nat) (ds : List Char) :
    (collect s ds).1 * 10 ^ (collect s ds).2.length ≤ Nat.ofDigitChars 10 ds s := by
  induction ds generalizing s with
  | nil =>
    rw [collect, List.length_nil, Nat.pow_zero, Nat.mul_one]
    exact Nat.le_refl s
  | cons d ds ih =>
    unfold collect
    dsimp only
    split
    · exact ih _
    · rw [Nat.ofDigitChars_eq_ofDigitChars_zero, Nat.mul_comm]
      exact Nat.le_add_right _ _

/-- With whole digits that fit, the reader starts from at most the number that is written. -/
theorem significand_atMost (n : Numeral) (hwhole : ∀ c ∈ n.whole, c.isDigit = true)
    (hlength : n.whole.length ≤ 19) {limit : Nat} (h : n.decimal.AtMost limit) :
    n.significand.AtMost limit := by
  have hlost : (collect 0 n.whole).2 = [] :=
    collect_fits 0 n.whole 0 (by decide) (by omega) hwhole
  have hstart := collect_le 0 n.whole
  rw [hlost, List.length_nil, Nat.pow_zero, Nat.mul_one] at hstart
  have hfraction := collect_le (collect 0 n.whole).1 (n.fraction.getD [])
  have hdropped := length_collect_le (collect 0 n.whole).1 (n.fraction.getD [])
  apply h.of_le (collect (collect 0 n.whole).1 (n.fraction.getD [])).2.length
  · unfold significand decimal
    dsimp only
    rw [hlost, List.length_nil]
    omega
  · refine Nat.le_trans hfraction ?_
    show _ ≤ digitsValue (n.whole ++ n.fraction.getD [])
    rw [digitsValue_eq, Nat.ofDigitChars_append, Nat.ofDigitChars_eq_ofDigitChars_zero,
      @Nat.ofDigitChars_eq_ofDigitChars_zero _ (Nat.ofDigitChars 10 n.whole 0)]
    exact Nat.add_le_add_right (Nat.mul_le_mul_left _ hstart) _

end Json.Numeral

/-! ## Limits -/

/-- With up to twenty zeros at its end a number of few places is still a double. -/
theorem isMagnitude_zeros {limit : Nat} (places j : Nat) (h : limit = places * 2 ^ j ∧
    places * 5 ^ 20 ≤ 2 ^ 53 ∧ limit * 10 ^ 20 ≤ 2 ^ 128) (k : Nat) (hk : k ≤ 20) :
    IsMagnitude (limit * Nat.pow 10 k * unitScale) := by
  obtain ⟨heq, hfew, hsmall⟩ := h
  have hfive : 5 ^ k ≤ 5 ^ 20 := Nat.pow_le_pow_right (by decide) hk
  have hten : Nat.pow 10 k ≤ 10 ^ 20 := Nat.pow_le_pow_right (by decide) hk
  apply isMagnitude_mul_unitScale (places * 5 ^ k) (j + k)
  refine ⟨?_, Nat.le_trans (Nat.mul_le_mul_left _ hfive) hfew,
    Nat.le_trans (Nat.mul_le_mul_left _ hten) hsmall⟩
  calc limit * (5 * 2) ^ k = places * 2 ^ j * (5 ^ k * 2 ^ k) := by rw [heq, Nat.mul_pow]
    _ = places * 5 ^ k * 2 ^ (j + k) := by rw [Nat.pow_add, Nat.mul_mul_mul_comm]

/-- A limit that reading keeps: with up to twenty zeros it is still a double, and what is written
for it is not more. -/
structure Steady (limit : Nat) : Prop where
  positive : 0 < limit
  small : limit < 10 ^ 15
  places : ∀ k ≤ 20, IsMagnitude (limit * Nat.pow 10 k * unitScale)
  shortest : (shortestDecimal .toEven (limit * unitScale)).AtMost limit

theorem steady_ninety : Steady 90 where
  positive := by decide
  small := by decide
  places := isMagnitude_zeros 45 1 (by decide)
  shortest := by decide +kernel

theorem steady_halfTurn : Steady 180 where
  positive := by decide
  small := by decide
  places := isMagnitude_zeros 45 2 (by decide)
  shortest := by decide +kernel

namespace Json.Numeral

theorem powerUnits_eq (k : Nat) (hk : k ≤ 20) : powerUnits k = Nat.pow 10 k * unitScale := by
  have hmagnitude := @isMagnitude_zeros 1 1 0 (by decide) k hk
  rw [Nat.one_mul] at hmagnitude
  exact nearestMagnitude_one _ hmagnitude.dvd

theorem isMagnitude_unitScale : IsMagnitude unitScale := by
  have hone := Binary64.isMagnitude_whole 1 (by decide)
  rwa [Nat.one_mul] at hone

/-- One more than the largest significand is a double. -/
theorem isMagnitude_size : IsMagnitude (UInt64.size * unitScale) :=
  isMagnitude_mul_unitScale 1 64 (by decide)

theorem le_powerUnits {k m : Nat} (hm : IsMagnitude (m * unitScale)) (h : m ≤ 10 ^ k) :
    m * unitScale ≤ powerUnits k := by
  apply le_nearestMagnitude hm.dvd Nat.one_pos
  rw [Nat.mul_one]
  exact Nat.mul_le_mul_right _ h

theorem one_le_powerUnits (k : Nat) : unitScale ≤ powerUnits k := by
  have hone : IsMagnitude (1 * unitScale) := by
    rw [Nat.one_mul]
    exact isMagnitude_unitScale
  have hle := le_powerUnits hone (Nat.pow_pos (by decide) : 1 ≤ 10 ^ k)
  rwa [Nat.one_mul] at hle

/-- A number divided by a larger one is at most 1. -/
theorem dividedUnits_le {units k : Nat} (h : units ≤ powerUnits k) :
    dividedUnits units k ≤ unitScale := by
  have hpower := one_le_powerUnits k
  have hscale := unitScale_pos
  apply nearestMagnitude_le_of_le isMagnitude_unitScale.dvd (by omega)
  rw [Nat.mul_comm]
  exact Nat.mul_le_mul_left _ h

theorem repeat_le (f : Nat → Nat) {bound limit : Nat} (hf : ∀ units ≤ limit, f units ≤ bound)
    (hbound : bound ≤ limit) (steps units : Nat) (h : units ≤ limit) :
    Nat.repeat f (steps + 1) units ≤ bound := by
  induction steps with
  | zero => exact hf units h
  | succ steps ih => exact hf _ (Nat.le_trans ih hbound)

theorem shrunkUnits_zero (units : Nat) : shrunkUnits 0 units = units := by
  unfold shrunkUnits
  rw [Nat.repeat]

theorem scaledUnits_of_few (units : Nat) {exponent : Int} (hnegative : exponent < 0)
    (hfew : (-exponent).toNat < 308) :
    scaledUnits units exponent = dividedUnits units (-exponent).toNat := by
  unfold scaledUnits
  rw [if_neg (by omega)]
  dsimp only
  rw [Nat.div_eq_of_lt hfew, Nat.mod_eq_of_lt hfew, Nat.zero_min, shrunkUnits_zero]

/-- Scaled down by more than twenty places, a significand is at most 1. -/
theorem scaledUnits_le_one (units : Nat) (exponent : Int) (h : units ≤ UInt64.size * unitScale)
    (hexponent : exponent < -20) : scaledUnits units exponent ≤ unitScale := by
  have hpower (k : Nat) (hk : 20 ≤ k) : units ≤ powerUnits k := by
    have hsize : UInt64.size ≤ 10 ^ k :=
      Nat.le_trans (by decide : UInt64.size ≤ 10 ^ 20) (Nat.pow_le_pow_right (by decide) hk)
    exact Nat.le_trans h (le_powerUnits isMagnitude_size hsize)
  by_cases hfew : (-exponent).toNat < 308
  · rw [scaledUnits_of_few units (by omega) hfew]
    exact dividedUnits_le (hpower _ (by omega))
  · -- The first division leaves at most 1, and the others keep it so.
    unfold scaledUnits
    rw [if_neg (by omega)]
    dsimp only
    obtain ⟨steps, hsteps⟩ : ∃ steps, min ((-exponent).toNat / 308) 3 = steps + 1 :=
      ⟨min ((-exponent).toNat / 308) 3 - 1, by omega⟩
    rw [hsteps]
    have hshrunk : shrunkUnits (steps + 1) units ≤ unitScale :=
      repeat_le _ (fun _ => dividedUnits_le) (one_le_powerUnits 308) steps units
        (hpower 308 (by decide))
    exact dividedUnits_le (Nat.le_trans hshrunk (one_le_powerUnits _))

/-- With up to twenty places the power of ten is exact, and the quotient is rounded only once. -/
theorem scaledUnits_eq (units : Nat) {exponent : Int} (hfew : -20 ≤ exponent)
    (hexponent : exponent ≤ 0) :
    scaledUnits units exponent = nearestMagnitude units (Nat.pow 10 (-exponent).toNat) := by
  by_cases hzero : exponent = 0
  · subst hzero
    have hpower : powerUnits 0 = unitScale := by
      rw [powerUnits_eq 0 (by decide), Nat.pow_eq, Nat.pow_zero, Nat.one_mul]
    have hscale := nearestMagnitude_scale unitScale units 1 unitScale_pos
    rw [Nat.mul_one] at hscale
    unfold scaledUnits
    rw [if_pos (Int.le_refl 0), Int.toNat_zero, hpower, Nat.mul_comm, hscale]
    rfl
  · rw [scaledUnits_of_few units (by omega) (by omega)]
    unfold dividedUnits
    rw [powerUnits_eq _ (by omega), Nat.mul_comm, Nat.mul_comm _ unitScale]
    exact nearestMagnitude_scale _ _ _ unitScale_pos

/-- The bound on the quotient is exact as well. -/
theorem scaledUnits_le_of_few {limit : Nat} (hlimit : Steady limit) {units : Nat} {exponent : Int}
    (hfew : -20 ≤ exponent) (hexponent : exponent ≤ 0)
    (h : units ≤ limit * Nat.pow 10 (-exponent).toNat * unitScale) :
    scaledUnits units exponent ≤ limit * unitScale := by
  rw [scaledUnits_eq units hfew hexponent]
  apply nearestMagnitude_le_of_le (Binary64.isMagnitude_whole limit hlimit.small).dvd
    (Nat.pow_pos (by decide))
  rwa [Nat.mul_right_comm]

/-- Scaling does not take a significand over a limit that its number keeps. -/
theorem scaledUnits_le {limit : Nat} (hlimit : Steady limit) (d : Decimal)
    (hdigits : d.digits < UInt64.size) (hexponent : d.exponent ≤ 0) (h : d.AtMost limit) :
    scaledUnits (nearestMagnitude (d.digits * unitScale) 1) d.exponent ≤ limit * unitScale := by
  have hrounded {m : Nat} (hm : IsMagnitude (m * unitScale)) (hle : d.digits ≤ m) :
      nearestMagnitude (d.digits * unitScale) 1 ≤ m * unitScale := by
    apply nearestMagnitude_le_of_le hm.dvd Nat.one_pos
    rw [Nat.mul_one]
    exact Nat.mul_le_mul_right _ hle
  by_cases hfew : -20 ≤ d.exponent
  · have hzero : d.exponent.toNat = 0 := by omega
    have hten : Nat.pow 10 0 = 1 := rfl
    unfold Decimal.AtMost at h
    rw [hzero, hten, Nat.mul_one] at h
    exact scaledUnits_le_of_few hlimit hfew hexponent
      (hrounded (hlimit.places _ (by omega)) h)
  · have hunits := hrounded isMagnitude_size (Nat.le_of_lt hdigits)
    exact Nat.le_trans (scaledUnits_le_one _ _ hunits (by omega))
      (Nat.le_mul_of_pos_left _ hlimit.positive)

end Json.Numeral

/-! ## Degrees -/

namespace Binary64

/-- What is read for a number up to a limit is up to the limit, with the sign of the number. -/
theorem double?_le {limit : Nat} (hlimit : Steady limit) (n : Json.Numeral)
    (hexponent : n.significand.exponent ≤ 0) (h : n.significand.AtMost limit) {y : Binary64}
    (hread : n.double? = some y) : ∃ u hu, y = finite n.negative u hu ∧ u ≤ limit * unitScale := by
  have hmagnitude := isMagnitude_whole limit hlimit.small
  have hscaled := Json.Numeral.scaledUnits_le hlimit n.significand n.significand_digits_lt
    hexponent h
  unfold Json.Numeral.double? at hread
  dsimp only at hread
  generalize Json.Numeral.scaledUnits _ _ = scaled at hscaled hread
  split at hread
  · cases hread
    exact ⟨0, isMagnitude_zero, rfl, Nat.zero_le _⟩
  rw [if_neg (by omega)] at hread
  have hunits : nearestMagnitude scaled 1 ≤ limit * unitScale :=
    nearestMagnitude_le_of_le hmagnitude.dvd Nat.one_pos (by omega)
  have hfinite : IsMagnitude (nearestMagnitude scaled 1) :=
    isMagnitude_nearestMagnitude _ _ (Nat.lt_of_le_of_lt hunits hmagnitude.1)
  simp only [ofUnits, hfinite, dite_true, isFinite, if_true] at hread
  cases hread
  exact ⟨_, hfinite, rfl, hunits⟩

theorem within_of_le {limit : Nat} (hlimit : limit < 10 ^ 15) (s : Bool) (u : Nat)
    (h : IsMagnitude u) (hu : u ≤ limit * unitScale) : (finite s u h).within limit = true := by
  have hmagnitude := isMagnitude_whole limit hlimit
  rw [within, ofNat_eq limit hmagnitude]
  generalize limit * unitScale = bound at hmagnitude hu ⊢
  cases s <;> simp [le, negate, position] <;> omega

/-- What a double is written as is at most a limit that it keeps. -/
theorem unitsNumeral_atMost {limit : Nat} (hlimit : Steady limit) (s : Bool) (u : Nat)
    (h : IsMagnitude u) (hu : u ≤ limit * unitScale) :
    (unitsNumeral .json s u).decimal.AtMost limit := by
  unfold unitsNumeral
  split
  · show 0 * _ ≤ _
    rw [Nat.zero_mul]
    exact Nat.zero_le _
  next hne =>
  have hshortest : (shortestDecimal .toEven u).AtMost limit := by
    by_cases hend : u = limit * unitScale
    · rw [hend]
      exact hlimit.shortest
    · have hmagnitude := isMagnitude_whole limit hlimit.small
      apply Decimal.atMost_of_ofDecimal (ofDecimal_shortestDecimal s .toEven u h hne)
        hlimit.positive
      rw [nearestMagnitude_one _ hmagnitude.dvd]
      omega
  exact hshortest.numeral .json s

/-- A number within such limits is read back within them. -/
theorem within_of_reread? {limit : Nat} (hlimit : Steady limit) {x y : Binary64}
    (hx : x.within limit = true) (hread : x.reread? = some y) : y.within limit = true := by
  obtain ⟨s, u, h, rfl, hu⟩ := finite_of_within limit hlimit.small x hx
  have hmoderate : u < 10 ^ 15 * unitScale :=
    Nat.lt_of_le_of_lt hu (Nat.mul_lt_mul_of_pos_right hlimit.small unitScale_pos)
  have hatMost := Json.Numeral.significand_atMost _ (wellFormed_unitsNumeral .json s u h).whole.2
    (length_whole_unitsNumeral s u) (unitsNumeral_atMost hlimit s u h hu)
  obtain ⟨v, hv, rfl, hle⟩ := double?_le hlimit (unitsNumeral .json s u)
    (significand_exponent_unitsNumeral s u h hmoderate) hatMost hread
  exact within_of_le hlimit.small _ v hv hle

end Binary64

end Gazetteer
