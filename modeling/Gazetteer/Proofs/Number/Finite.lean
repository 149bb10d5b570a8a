import Gazetteer.Proofs.Number.Limits

/-!
# Finite doubles are read back as doubles

The reader of JSON numbers refuses what comes out beyond the doubles, and with a positive exponent
its three roundings might take a number near the end of the range there.  They do not for a number
that was written for a double: up to the last but one, its digits denote less than the first whole
number past the middle between the two largest doubles, and below that number every significand is
scaled to at most the largest double.  The digits of the largest double itself are known.

    n.significand.AtMost pastMiddle → n.double?.isSome                   (double?_isSome_of_atMost)
    x.reread?.isSome ↔ x.isFinite                                               (reread?_isSome_iff)
-/

namespace Gazetteer

/-- The largest double. -/
def largestDouble : Nat := Nat.pow 2 1024 - Nat.pow 2 971

/-- The first whole number past the middle between the two largest doubles. -/
def pastMiddle : Nat := largestDouble - Nat.pow 2 970 + 1

/-- The largest double has 53 bits, up to the highest. -/
theorem largestDouble_eq : ∃ k, largestDouble * unitScale = (2 ^ 53 - 1) * Nat.pow 2 k ∧
    magnitudeLimit = 2 ^ 53 * Nat.pow 2 k := ⟨2045, by decide +kernel⟩

theorem isMagnitude_largestDouble : IsMagnitude (largestDouble * unitScale) := by
  obtain ⟨k, hlargest, hlimit⟩ := largestDouble_eq
  refine isMagnitude_of_places (2 ^ 53 - 1) k ⟨hlargest, by decide, ?_⟩
  rw [hlargest, hlimit]
  exact Nat.mul_lt_mul_of_pos_right (by decide) (Nat.pow_pos (by decide))

theorem largestDouble_ne_zero : largestDouble * unitScale ≠ 0 := by
  obtain ⟨k, hlargest, -⟩ := largestDouble_eq
  rw [hlargest]
  exact Nat.ne_of_gt (Nat.mul_pos (by decide) (Nat.pow_pos (by decide)))

/-- It is rounded to the largest double, and has at most 309 digits. -/
theorem pastMiddle_spec : nearestMagnitude (pastMiddle * unitScale) 1 = largestDouble * unitScale ∧
    pastMiddle < Nat.pow 10 309 := by decide +kernel

theorem IsMagnitude.le_largestDouble {u : Nat} (h : IsMagnitude u) :
    u ≤ largestDouble * unitScale := by
  obtain ⟨k, hlargest, hlimit⟩ := largestDouble_eq
  have hbelow := h.1
  have hdvd := h.dvd
  rw [hlimit] at hbelow
  rw [hlargest]
  refine Nat.le_of_not_lt fun hlarge => ?_
  -- Above the largest double the places are as wide as at it, and none is left below the limit.
  have hpower : 0 < Nat.pow 2 k := Nat.pow_pos (by decide)
  have hlog : u.log2 = 52 + k := by
    rw [Nat.log2_eq_iff (by omega), Nat.add_right_comm, Nat.pow_add, Nat.pow_add]
    refine ⟨?_, hbelow⟩
    exact Nat.le_trans (Nat.mul_le_mul_right _ (by decide)) (Nat.le_of_lt hlarge)
  have hspacing : spacing u = Nat.pow 2 k := by rw [spacing, hlog, Nat.add_sub_cancel_left]
  rw [hspacing] at hdvd
  obtain ⟨places, rfl⟩ := hdvd
  rw [Nat.mul_comm (Nat.pow 2 k)] at hlarge hbelow
  have hmore : 2 ^ 53 - 1 < places := Nat.lt_of_mul_lt_mul_right hlarge
  have hfewer : places < 2 ^ 53 := Nat.lt_of_mul_lt_mul_right hbelow
  omega

/-- A number with a power of ten has no more digits than the limit leaves. -/
theorem Decimal.AtMost.digits_le {d : Decimal} {limit k : Nat} (h : d.AtMost limit)
    (hexponent : d.exponent = k) : d.digits ≤ limit / Nat.pow 10 k := by
  have hone : (-d.exponent).toNat = 0 := by omega
  have hpower : d.exponent.toNat = k := by omega
  have hten : Nat.pow 10 0 = 1 := rfl
  unfold AtMost at h
  rw [hone, hten, Nat.mul_one, hpower] at h
  exact (Nat.le_div_iff_mul_le (Nat.pow_pos (by decide))).mpr h

theorem Decimal.AtMost.exponent_lt {d : Decimal} {limit k : Nat} (h : d.AtMost limit)
    (hdigits : 0 < d.digits) (hlimit : limit < Nat.pow 10 k) : d.exponent < k := by
  refine Int.lt_of_not_ge fun hlarge => ?_
  obtain ⟨m, hm⟩ : ∃ m : Nat, d.exponent = (k + m : Nat) := ⟨d.exponent.toNat - k, by omega⟩
  have hpower : Nat.pow 10 k ≤ Nat.pow 10 (k + m) :=
    Nat.pow_le_pow_right (by decide) (Nat.le_add_right k m)
  have hquotient := h.digits_le hm
  rw [Nat.div_eq_of_lt (Nat.lt_of_lt_of_le hlimit hpower)] at hquotient
  omega

/-! ## Scaling up -/

namespace Json.Numeral

theorem powerUnits_mono {k k' : Nat} (h : k ≤ k') : powerUnits k ≤ powerUnits k' :=
  nearestMagnitude_mono_left Nat.one_pos
    (Nat.mul_le_mul_right _ (Nat.pow_le_pow_right (by decide) h))

/-- A number of at least 53 bits may be rounded without the factor of two that follows it. -/
theorem nearestMagnitude_mul_pow {n : Nat} (h : 2 ^ 52 ≤ n) (k : Nat) :
    nearestMagnitude (n * 2 ^ k) 1 = nearestMagnitude n 1 * 2 ^ k := by
  have hne : n ≠ 0 := Nat.ne_of_gt (Nat.lt_of_lt_of_le (Nat.pow_pos (by decide)) h)
  have hlog : 52 ≤ n.log2 := (Nat.le_log2 hne).mpr h
  have hspacing : spacing (n * 2 ^ k) = 2 ^ k * spacing n := by
    unfold spacing
    rw [log2_mul_pow hne, Nat.sub_add_comm hlog, Nat.pow_eq, Nat.pow_add, Nat.mul_comm, Nat.pow_eq]
  have hpow : 0 < 2 ^ k := Nat.pow_pos (by decide)
  -- Both sides count the same steps.
  calc nearestMagnitude (n * 2 ^ k) 1
      = nearestMagnitude (2 ^ k * n) (2 ^ k * 1) * 2 ^ k := by
        unfold nearestMagnitude
        rw [Nat.div_one, Nat.mul_one, Nat.mul_div_cancel_left n hpow, hspacing, Nat.one_mul,
          Nat.mul_comm n]
        dsimp only
        rw [Nat.mul_assoc, Nat.mul_comm (spacing n)]
    _ = nearestMagnitude n 1 * 2 ^ k := by rw [nearestMagnitude_scale _ _ _ hpow]

theorem significandUnits_mono {digits digits' : Nat} (h : digits ≤ digits') :
    nearestMagnitude (digits * unitScale) 1 ≤ nearestMagnitude (digits' * unitScale) 1 :=
  nearestMagnitude_mono_left Nat.one_pos (Nat.mul_le_mul_right _ h)

/-- The power of two that units count is left out of rounding, but for the 52 places. -/
theorem nearestMagnitude_mul_unitScale {n : Nat} (h : 0 < n) :
    nearestMagnitude (n * unitScale) 1 = nearestMagnitude (n * 2 ^ 52) 1 * Nat.pow 2 1022 := by
  obtain ⟨j, k, hj, hk, hjk⟩ : ∃ j k, j = 1074 ∧ k = 1022 ∧ j = 52 + k := ⟨_, _, rfl, rfl, rfl⟩
  unfold unitScale
  rw [← hj, ← hk, hjk, Nat.pow_eq, Nat.pow_eq, Nat.pow_add, ← Nat.mul_assoc]
  exact nearestMagnitude_mul_pow (Nat.le_mul_of_pos_left _ h) k

theorem powerUnits_eq_mul {k : Nat} (h : 23 ≤ k) :
    powerUnits k = nearestMagnitude (5 ^ k) 1 * Nat.pow 2 (1074 + k) := by
  have hfive : 2 ^ 52 ≤ 5 ^ k :=
    Nat.le_trans (by decide : 2 ^ 52 ≤ 5 ^ 23) (Nat.pow_le_pow_right (by decide) h)
  unfold powerUnits unitScale
  generalize 1074 = j
  have hten : Nat.pow 10 k * Nat.pow 2 j = 5 ^ k * 2 ^ (j + k) :=
    calc (5 * 2) ^ k * 2 ^ j = 5 ^ k * (2 ^ k * 2 ^ j) := by rw [Nat.mul_pow, Nat.mul_assoc]
      _ = 5 ^ k * 2 ^ (j + k) := by rw [← Nat.pow_add, Nat.add_comm k]
  rw [hten]
  exact nearestMagnitude_mul_pow hfive (j + k)

/-- What is scaled is bounded by what is found from fewer bits. -/
theorem scaled_le {digits quotient k m : Nat} (hdigits : 0 < digits) (h : digits ≤ quotient)
    (hk : k ≤ m) (hm : 23 ≤ m) : nearestMagnitude (digits * unitScale) 1 * powerUnits k ≤
      nearestMagnitude (quotient * 2 ^ 52) 1 * Nat.pow 2 1022 *
        (nearestMagnitude (5 ^ m) 1 * Nat.pow 2 (1074 + m)) := by
  rw [← nearestMagnitude_mul_unitScale (by omega), ← powerUnits_eq_mul hm]
  exact Nat.mul_le_mul (significandUnits_mono h) (powerUnits_mono hk)

/-- What is scaled up from a number not past the middle is at most the largest double. -/
theorem scaledUnits_le_largestDouble {d : Decimal} (hsize : d.digits < UInt64.size)
    (hdigits : 0 < d.digits) (hexponent : 0 ≤ d.exponent) (h : d.AtMost pastMiddle) :
    scaledUnits (nearestMagnitude (d.digits * unitScale) 1) d.exponent ≤
      largestDouble * unitScale := by
  -- The largest significand for the powers up to `10 ^ 288`, and for each of those left the largest
  -- that is not past the middle.
  have hends : nearestMagnitude (UInt64.size * 2 ^ 52) 1 * Nat.pow 2 1022 *
        (nearestMagnitude (5 ^ 288) 1 * Nat.pow 2 (1074 + 288)) ≤
          largestDouble * unitScale * unitScale ∧
      ∀ k < 20, nearestMagnitude (pastMiddle / Nat.pow 10 (289 + k) * 2 ^ 52) 1 * Nat.pow 2 1022 *
        (nearestMagnitude (5 ^ (289 + k)) 1 * Nat.pow 2 (1074 + (289 + k))) ≤
          largestDouble * unitScale * unitScale := by decide +kernel
  unfold scaledUnits
  rw [if_pos hexponent]
  apply nearestMagnitude_le_of_le isMagnitude_largestDouble.dvd unitScale_pos
  by_cases hfew : d.exponent ≤ 288
  · exact Nat.le_trans (scaled_le (m := 288) hdigits (Nat.le_of_lt hsize) (by omega) (by decide))
      hends.1
  · have hmost := h.exponent_lt hdigits pastMiddle_spec.2
    obtain ⟨k, hk⟩ : ∃ k : Nat, d.exponent = (289 + k : Nat) := ⟨d.exponent.toNat - 289, by omega⟩
    rw [hk]
    exact Nat.le_trans (scaled_le hdigits (h.digits_le hk) (Nat.le_refl _) (by omega))
      (hends.2 k (by omega))

/-- A numeral is read if scaling leaves it at most the largest double. -/
theorem double?_isSome_of_scaledUnits (n : Numeral) (hexponent : n.significand.exponent ≤ 308)
    (h : scaledUnits (nearestMagnitude (n.significand.digits * unitScale) 1)
      n.significand.exponent ≤ largestDouble * unitScale) : n.double?.isSome := by
  unfold double?
  dsimp only
  split
  · rfl
  rw [if_neg (by omega)]
  generalize scaledUnits _ _ = scaled at h ⊢
  have hle : nearestMagnitude scaled 1 ≤ largestDouble * unitScale :=
    nearestMagnitude_le_of_le isMagnitude_largestDouble.dvd Nat.one_pos (by rwa [Nat.mul_one])
  have hfinite : IsMagnitude (nearestMagnitude scaled 1) :=
    isMagnitude_nearestMagnitude _ _ (Nat.lt_of_le_of_lt hle isMagnitude_largestDouble.1)
  simp only [Binary64.ofUnits, hfinite, dite_true, Binary64.isFinite, if_true, Option.isSome_some]

/-- A number that is not past the middle is read. -/
theorem double?_isSome_of_atMost (n : Numeral) (h : n.significand.AtMost pastMiddle) :
    n.double?.isSome := by
  by_cases hnegative : n.significand.exponent ≤ 0
  · exact n.double?_isSome hnegative
  by_cases hzero : n.significand.digits = 0
  · unfold double?
    dsimp only
    rw [hzero, Nat.zero_mul, nearestMagnitude_one 0 (Nat.dvd_zero _), if_pos rfl]
    rfl
  have hdigits := Nat.pos_of_ne_zero hzero
  have hmost := h.exponent_lt hdigits pastMiddle_spec.2
  exact n.double?_isSome_of_scaledUnits (by omega)
    (scaledUnits_le_largestDouble n.significand_digits_lt hdigits (by omega) h)

end Json.Numeral

/-! ## Every finite double -/

namespace Binary64

/-- What a double is written as is not past the middle, unless it is the largest. -/
theorem unitsNumeral_atMost_pastMiddle (s : Bool) (u : Nat) (h : IsMagnitude u)
    (hu : u < largestDouble * unitScale) :
    (unitsNumeral .json s u).decimal.AtMost pastMiddle := by
  unfold unitsNumeral
  split
  · show 0 * _ ≤ _
    rw [Nat.zero_mul]
    exact Nat.zero_le _
  · next hne =>
    have hread := ofDecimal_shortestDecimal s .toEven u h hne
    have hpositive : 0 < pastMiddle := by
      unfold pastMiddle
      exact Nat.add_pos_right _ Nat.one_pos
    have hshortest : (shortestDecimal .toEven u).AtMost pastMiddle := by
      apply Decimal.atMost_of_ofDecimal hread hpositive
      rwa [pastMiddle_spec.1]
    exact hshortest.numeral .json s

/-- A whole decimal is read as a magnitude only if it is rounded to it. -/
theorem nearestMagnitude_of_readsAs {u : Nat} (hu : IsMagnitude u) (hne : u ≠ 0) {d : Decimal}
    (hexponent : 0 ≤ d.exponent) (h : readsAs u d = true) :
    nearestMagnitude (d.digits * Nat.pow 10 d.exponent.toNat * unitScale) 1 = u := by
  have hread := ofDecimal_of_readsAs false u hu d h
  have hdigits := digits_ne_zero_of_ofDecimal hread hne
  have hrounded := nearestMagnitude_of_ofDecimal hread (by omega)
  have hone : (-d.exponent).toNat = 0 := by omega
  rwa [hone] at hrounded

/-- Between two numbers that are rounded to either side of a magnitude lies all that is read as it.
-/
theorem readsAs_eq_false {u low high : Nat} (hu : IsMagnitude u) (hne : u ≠ 0)
    (hlow : nearestMagnitude (low * unitScale) 1 < u)
    (hhigh : u < nearestMagnitude (high * unitScale) 1) {d : Decimal} (hexponent : 0 ≤ d.exponent)
    (h : d.digits * Nat.pow 10 d.exponent.toNat ≤ low ∨
      high ≤ d.digits * Nat.pow 10 d.exponent.toNat) : readsAs u d = false := by
  refine Bool.eq_false_iff.mpr fun hread => ?_
  have hrounded := nearestMagnitude_of_readsAs hu hne hexponent hread
  obtain hbelow | habove := h
  · have hle := Json.Numeral.significandUnits_mono hbelow
    omega
  · have hle := Json.Numeral.significandUnits_mono habove
    omega

/-- Seventeen digits are written for the largest double. -/
theorem shortestDecimal_largestDouble :
    shortestDecimal .toEven (largestDouble * unitScale) = ⟨17976931348623157, 292⟩ := by
  -- Its neighbours with sixteen digits are not read as it, so those with fewer digits are not.
  have hsixteen : nearestMagnitude (1797693134862315 * Nat.pow 10 293 * unitScale) 1 <
        largestDouble * unitScale ∧
      largestDouble * unitScale <
        nearestMagnitude (1797693134862316 * Nat.pow 10 293 * unitScale) 1 := by decide +kernel
  have hfewer : ∀ n < 16, ∀ d ∈ neighbours .toEven (largestDouble * unitScale) (308 - (n : Nat)),
      0 ≤ d.exponent ∧
        (d.digits * Nat.pow 10 d.exponent.toNat ≤ 1797693134862315 * Nat.pow 10 293 ∨
          1797693134862316 * Nat.pow 10 293 ≤ d.digits * Nat.pow 10 d.exponent.toNat) := by
    decide +kernel
  have hnone : ∀ n ∈ List.range 16, (neighbours .toEven (largestDouble * unitScale)
      (308 - (n : Nat))).find? (readsAs (largestDouble * unitScale)) = none := by
    intro n hn
    rw [List.find?_eq_none]
    intro d hd
    obtain ⟨hexponent, hside⟩ := hfewer n (List.mem_range.mp hn) d hd
    exact Bool.eq_false_iff.mp (readsAs_eq_false isMagnitude_largestDouble largestDouble_ne_zero
      hsixteen.1 hsixteen.2 hexponent hside)
  have hfound : leadingExponent (largestDouble * unitScale) = 308 ∧
      (neighbours .toEven (largestDouble * unitScale) (308 - (16 : Nat))).find?
        (readsAs (largestDouble * unitScale)) = some ⟨17976931348623157, 292⟩ := by decide +kernel
  unfold shortestDecimal
  dsimp only
  rw [hfound.1, List.range_succ, List.findSome?_append, List.findSome?_eq_none_iff.mpr hnone,
    List.findSome?_singleton, hfound.2]
  show Decimal.trim ⟨17976931348623157, 292⟩ = _
  rw [Decimal.trim, dif_neg (by decide)]

theorem double?_unitsNumeral_largestDouble (s : Bool) :
    (unitsNumeral .json s (largestDouble * unitScale)).double?.isSome := by
  have hsignificand : ∀ s, (Decimal.numeral .json s ⟨17976931348623157, 292⟩).significand =
      ⟨17976931348623157, 292⟩ := by decide +kernel
  unfold unitsNumeral
  rw [if_neg largestDouble_ne_zero]
  show (Decimal.numeral .json s (shortestDecimal .toEven _)).double?.isSome
  rw [shortestDecimal_largestDouble]
  apply Json.Numeral.double?_isSome_of_scaledUnits
  · rw [hsignificand s]
    decide
  · rw [hsignificand s]
    decide +kernel

theorem double?_unitsNumeral_isSome_of_isMagnitude (s : Bool) (u : Nat) (h : IsMagnitude u) :
    (unitsNumeral .json s u).double?.isSome := by
  by_cases hlargest : u = largestDouble * unitScale
  · rw [hlargest]
    exact double?_unitsNumeral_largestDouble s
  · have hatMost := unitsNumeral_atMost_pastMiddle s u h
      (Nat.lt_of_le_of_ne h.le_largestDouble hlargest)
    exact Json.Numeral.double?_isSome_of_atMost _ (Json.Numeral.significand_atMost _
      (wellFormed_unitsNumeral .json s u h).whole.2 (length_whole_unitsNumeral s u) hatMost)

/-- Just the finite doubles are read back, as some finite double. -/
theorem reread?_isSome_iff (x : Binary64) : x.reread?.isSome ↔ x.isFinite = true := by
  cases x with
  | nan => exact iff_of_false Bool.false_ne_true Bool.false_ne_true
  | infinite s => exact iff_of_false Bool.false_ne_true Bool.false_ne_true
  | finite s u h => exact iff_of_true (double?_unitsNumeral_isSome_of_isMagnitude s u h) rfl

end Binary64

end Gazetteer
