import Gazetteer.Proofs.Number.ReadBack

/-!
# Numbers of moderate size are always read

The reader of JSON numbers refuses what lies beyond the doubles, and as it rounds several times a
number near the upper end may be refused although it was written for a double.  Far below that end
this cannot happen: a numeral with at most 19 whole digits and no positive exponent is a 64-bit
significand divided by powers of ten, and no rounding on the way more than doubles a quotient.

    num / den ≤ 2 * nearestMagnitude num den,  nearestMagnitude num den ≤ 2 * (num / den) + 1
    IsMagnitude (nearestMagnitude num den), below the limit        (isMagnitude_nearestMagnitude)
    n.double?.isSome, if its exponent is not positive                        (double?_isSome)
    the double of n is read, below 10 ^ 15 units of 1               (double?_unitsNumeral_isSome)
-/

namespace Gazetteer

/-! ## Rounding -/

theorem unitScale_pos : 0 < unitScale := by
  unfold unitScale
  apply Nat.pow_pos
  decide

/-- The units of a number far above 64 bits are below the limit. -/
theorem pow_mul_unitScale_lt : 2 ^ 128 * unitScale < magnitudeLimit := by
  obtain ⟨j, k, hj, hk, hlt⟩ : ∃ j k, j = 1074 ∧ k = 2098 ∧ 128 + j < k :=
    ⟨_, _, rfl, rfl, by decide⟩
  unfold unitScale magnitudeLimit
  rw [← hj, ← hk, Nat.pow_eq, Nat.pow_eq, ← Nat.pow_add]
  exact Nat.pow_lt_pow_right (by decide) hlt

theorem spacing_le (q : Nat) (hq : 0 < q) : spacing q ≤ q := by
  have hpow : 2 ^ (q.log2 - 52) ≤ 2 ^ q.log2 := Nat.pow_le_pow_right (by decide) (Nat.sub_le _ _)
  exact Nat.le_trans hpow (Nat.log2_self_le (by omega))

/-- A quotient is rounded to one of the two multiples of its spacing around it. -/
theorem nearestMagnitude_cases (num den : Nat) :
    ∃ places, (places = num / den / spacing (num / den) ∨
        places = num / den / spacing (num / den) + 1) ∧
      nearestMagnitude num den = places * spacing (num / den) := by
  have hplaces : num / (den * spacing (num / den)) = num / den / spacing (num / den) :=
    (Nat.div_div_eq_div_mul ..).symm
  unfold nearestMagnitude
  dsimp only
  rw [hplaces]
  split
  · exact ⟨_, .inr rfl, rfl⟩
  · exact ⟨_, .inl rfl, rfl⟩

/-- Rounding up at most doubles a quotient. -/
theorem nearestMagnitude_le (num den : Nat) : nearestMagnitude num den ≤ 2 * (num / den) + 1 := by
  obtain ⟨places, hplaces, heq⟩ := nearestMagnitude_cases num den
  rw [heq]
  generalize num / den = q at hplaces ⊢
  have hbelow : q / spacing q * spacing q ≤ q := Nat.div_mul_le_self q _
  by_cases hq : q = 0
  · subst hq
    rcases hplaces with rfl | rfl <;> simp [spacing]
  · have hspacing := spacing_le q (Nat.pos_of_ne_zero hq)
    rcases hplaces with rfl | rfl
    · omega
    · rw [Nat.add_mul]
      omega

/-- Rounding down at most halves a quotient. -/
theorem div_le_nearestMagnitude (num den : Nat) : num / den ≤ 2 * nearestMagnitude num den := by
  obtain ⟨places, hplaces, heq⟩ := nearestMagnitude_cases num den
  rw [heq]
  generalize num / den = q at hplaces ⊢
  have hpos := spacing_pos q
  have habove : q < q / spacing q * spacing q + spacing q := Nat.lt_div_mul_add hpos
  by_cases hq : q = 0
  · omega
  · have hone : 1 ≤ q / spacing q :=
      (Nat.one_le_div_iff hpos).mpr (spacing_le q (Nat.pos_of_ne_zero hq))
    have hplace : spacing q ≤ q / spacing q * spacing q := Nat.le_mul_of_pos_left _ hone
    rcases hplaces with rfl | rfl
    · omega
    · rw [Nat.add_mul]
      omega

theorem log2_mul_pow {n : Nat} (hn : n ≠ 0) (k : Nat) : (n * 2 ^ k).log2 = n.log2 + k := by
  have hpow : 2 ^ k ≠ 0 := Nat.ne_of_gt (Nat.pow_pos (by decide))
  rw [Nat.log2_eq_iff (Nat.mul_ne_zero hn hpow)]
  have hlow := Nat.log2_self_le hn
  have hhigh := Nat.lt_log2_self (n := n)
  constructor
  · rw [Nat.pow_add]
    exact Nat.mul_le_mul_right _ hlow
  · rw [Nat.add_right_comm, Nat.pow_add]
    exact Nat.mul_lt_mul_of_pos_right hhigh (Nat.pow_pos (by decide))

/-- Up to `2 ^ 53` places fit, whatever power of two they count. -/
theorem spacing_dvd (places k : Nat) (h : places ≤ 2 ^ 53) :
    spacing (places * 2 ^ k) ∣ places * 2 ^ k := by
  by_cases hzero : places = 0
  · simp [hzero]
  show 2 ^ ((places * 2 ^ k).log2 - 52) ∣ places * 2 ^ k
  rw [log2_mul_pow hzero]
  by_cases htop : places = 2 ^ 53
  · subst htop
    rw [← Nat.pow_add, Nat.log2_two_pow]
    exact Nat.pow_dvd_pow 2 (by omega)
  · have hlt : places.log2 < 53 := (Nat.log2_lt hzero).mpr (by omega)
    exact Nat.dvd_mul_left_of_dvd (Nat.pow_dvd_pow 2 (by omega)) _

theorem isMagnitude_of_places {u : Nat} (places k : Nat)
    (h : u = places * 2 ^ k ∧ places ≤ 2 ^ 53 ∧ u < magnitudeLimit) : IsMagnitude u := by
  obtain ⟨rfl, hplaces, hlimit⟩ := h
  exact ⟨hlimit, Nat.mod_eq_zero_of_dvd (spacing_dvd places k hplaces)⟩

theorem isMagnitude_mul_unitScale {n : Nat} (places k : Nat)
    (h : n = places * 2 ^ k ∧ places ≤ 2 ^ 53 ∧ n ≤ 2 ^ 128) : IsMagnitude (n * unitScale) := by
  obtain ⟨heq, hplaces, hsize⟩ := h
  have hlimit : n * unitScale < magnitudeLimit :=
    Nat.lt_of_le_of_lt (Nat.mul_le_mul_right _ hsize) pow_mul_unitScale_lt
  unfold unitScale at hlimit ⊢
  generalize 1074 = j at hlimit ⊢
  refine isMagnitude_of_places places (k + j) ⟨?_, hplaces, hlimit⟩
  rw [heq, Nat.pow_eq, Nat.mul_assoc, ← Nat.pow_add]

/-- What is rounded to is a magnitude, if it lies below the limit. -/
theorem isMagnitude_nearestMagnitude (num den : Nat)
    (h : nearestMagnitude num den < magnitudeLimit) : IsMagnitude (nearestMagnitude num den) := by
  refine ⟨h, Nat.mod_eq_zero_of_dvd ?_⟩
  obtain ⟨places, hplaces, heq⟩ := nearestMagnitude_cases num den
  rw [heq]
  generalize num / den = q at hplaces ⊢
  have hplacesLt : q / spacing q < 2 ^ 53 := by
    rw [Nat.div_lt_iff_lt_mul (spacing_pos q), spacing, Nat.pow_eq, ← Nat.pow_add]
    exact Nat.lt_of_lt_of_le Nat.lt_log2_self (Nat.pow_le_pow_right (by decide) (by omega))
  exact spacing_dvd places (q.log2 - 52) (by omega)

/-! ## Numerals as doubles -/

namespace Json.Numeral

/-- A significand stays below `2 ^ 64`. -/
theorem collect_lt (s : Nat) (ds : List Char) (h : s < UInt64.size) :
    (collect s ds).1 < UInt64.size := by
  induction ds generalizing s with
  | nil => exact h
  | cons d ds ih =>
    unfold collect
    dsimp only
    split
    · next hnext => exact ih _ hnext
    · exact h

theorem length_collect_le (s : Nat) (ds : List Char) : (collect s ds).2.length ≤ ds.length := by
  induction ds generalizing s with
  | nil => exact Nat.le_refl _
  | cons d ds ih =>
    unfold collect
    dsimp only
    split
    · exact Nat.le_succ_of_le (ih _)
    · exact Nat.le_refl _

/-- Up to 19 digits fit into a significand. -/
theorem collect_fits (s : Nat) (ds : List Char) (places : Nat) (hs : s < 10 ^ places)
    (hlength : places + ds.length ≤ 19) (hdigits : ∀ c ∈ ds, c.isDigit = true) :
    (collect s ds).2 = [] := by
  induction ds generalizing s places with
  | nil => rfl
  | cons d ds ih =>
    have hd : d.toNat ≤ 57 := by
      have h := hdigits d (by simp)
      simp only [Char.isDigit, Bool.and_eq_true, decide_eq_true_eq] at h
      exact h.2
    have hzero : '0'.toNat = 48 := rfl
    have hnext : 10 * s + (d.toNat - '0'.toNat) < 10 ^ (places + 1) := by
      rw [Nat.pow_succ]
      omega
    have hsize : 10 ^ (places + 1) ≤ UInt64.size :=
      Nat.le_trans (Nat.pow_le_pow_right (by decide) (show places + 1 ≤ 19 by
        rw [List.length_cons] at hlength
        omega)) (by decide)
    unfold collect
    dsimp only
    rw [if_pos (Nat.lt_of_lt_of_le hnext hsize)]
    apply ih _ (places + 1) hnext
    · rw [List.length_cons] at hlength
      omega
    · exact fun c hc => hdigits c (List.mem_cons_of_mem _ hc)

theorem significand_digits_lt (n : Numeral) : n.significand.digits < UInt64.size :=
  collect_lt _ _ (collect_lt 0 _ (by decide))

/-- With whole digits that fit, the exponent is at most the written one. -/
theorem significand_exponent_le (n : Numeral) (hwhole : ∀ c ∈ n.whole, c.isDigit = true)
    (hlength : n.whole.length ≤ 19) : n.significand.exponent ≤ n.writtenExponent := by
  have hlost : (collect 0 n.whole).2 = [] :=
    collect_fits 0 n.whole 0 (by decide) (by omega) hwhole
  have hdropped := length_collect_le (collect 0 n.whole).1 (n.fraction.getD [])
  unfold significand
  dsimp only
  rw [hlost, List.length_nil]
  omega

/-! ## Scaling -/

theorem unitScale_le_powerUnits (exponent : Nat) : unitScale ≤ 2 * powerUnits exponent := by
  have hdiv := div_le_nearestMagnitude (Nat.pow 10 exponent * unitScale) 1
  have hpow : 0 < Nat.pow 10 exponent := Nat.pow_pos (by decide)
  unfold powerUnits
  generalize unitScale = scale at hdiv ⊢
  rw [Nat.div_one] at hdiv
  exact Nat.le_trans (Nat.le_mul_of_pos_left scale hpow) hdiv

theorem powerUnits_zero_le : powerUnits 0 ≤ 3 * unitScale := by
  have hle := nearestMagnitude_le (Nat.pow 10 0 * unitScale) 1
  have hscale := unitScale_pos
  have hone : Nat.pow 10 0 = 1 := rfl
  unfold powerUnits
  generalize unitScale = scale at hle hscale ⊢
  rw [Nat.div_one, hone, Nat.one_mul] at hle
  rw [hone, Nat.one_mul]
  omega

/-- A quotient by at least `1 / 2` at most doubles, and its rounding at most doubles it again. -/
theorem dividedUnits_lt (units exponent bound : Nat) (h : units < bound) :
    dividedUnits units exponent < 4 * bound := by
  have hpower := unitScale_le_powerUnits exponent
  unfold dividedUnits
  generalize powerUnits exponent = power at hpower ⊢
  generalize unitScale = scale at hpower ⊢
  have hquotient : units * scale / power ≤ 2 * units := by
    apply Nat.div_le_of_le_mul
    calc units * scale ≤ units * (2 * power) := Nat.mul_le_mul_left _ hpower
      _ = power * (2 * units) := by ac_rfl
  have hrounded := nearestMagnitude_le (units * scale) power
  omega

theorem repeat_lt (f : Nat → Nat) (hf : ∀ units bound, units < bound → f units < 4 * bound)
    (steps units bound : Nat) (h : units < bound) : Nat.repeat f steps units < 4 ^ steps * bound := by
  induction steps with
  | zero => rwa [Nat.pow_zero, Nat.one_mul]
  | succ steps ih =>
    have hnext := hf _ _ ih
    rwa [← Nat.mul_assoc, Nat.mul_comm 4, ← Nat.pow_succ] at hnext

theorem shrunkUnits_lt (steps units bound : Nat) (h : units < bound) :
    shrunkUnits steps units < 4 ^ steps * bound :=
  repeat_lt _ (fun units bound => dividedUnits_lt units 308 bound) steps units bound h

theorem scaledUnits_lt (units bound : Nat) (exponent : Int) (h : units < bound)
    (hexponent : exponent ≤ 0) : scaledUnits units exponent < 256 * bound := by
  unfold scaledUnits
  split
  · have hpower := powerUnits_zero_le
    have hzero : exponent.toNat = 0 := by omega
    rw [hzero]
    generalize powerUnits 0 = power at hpower ⊢
    generalize unitScale = scale at hpower ⊢
    have hquotient : units * power / scale ≤ 3 * units := by
      apply Nat.div_le_of_le_mul
      calc units * power ≤ units * (3 * scale) := Nat.mul_le_mul_left _ hpower
        _ = scale * (3 * units) := by ac_rfl
    have hrounded := nearestMagnitude_le (units * power) scale
    omega
  · dsimp only
    have hsteps : min ((-exponent).toNat / 308) 3 ≤ 3 := Nat.min_le_right _ _
    have hshrunk := shrunkUnits_lt (min ((-exponent).toNat / 308) 3) units bound h
    have hpow : 4 ^ min ((-exponent).toNat / 308) 3 * bound ≤ 64 * bound :=
      Nat.mul_le_mul_right _ (Nat.pow_le_pow_right (n := 4) (by decide) hsteps)
    have hdivided := dividedUnits_lt _ ((-exponent).toNat % 308) _
      (Nat.lt_of_lt_of_le hshrunk hpow)
    omega

/-- A numeral without positive exponent is read. -/
theorem double?_isSome (n : Numeral) (h : n.significand.exponent ≤ 0) : n.double?.isSome := by
  have hsize : UInt64.size = 2 ^ 64 := by decide
  have hdigits := n.significand_digits_lt
  have hlimit : 1024 * (2 ^ 66 * unitScale) ≤ magnitudeLimit := by
    have hlt := pow_mul_unitScale_lt
    generalize unitScale = scale at hlt ⊢
    omega
  have hunits : nearestMagnitude (n.significand.digits * unitScale) 1 < 2 ^ 66 * unitScale := by
    have hle := nearestMagnitude_le (n.significand.digits * unitScale) 1
    have hmul : n.significand.digits * unitScale < 2 ^ 64 * unitScale :=
      Nat.mul_lt_mul_of_pos_right (by omega) unitScale_pos
    rw [Nat.div_one] at hle
    generalize unitScale = scale at hle hmul ⊢
    omega
  unfold double?
  dsimp only
  generalize nearestMagnitude (n.significand.digits * unitScale) 1 = units at hunits ⊢
  have hscaled := scaledUnits_lt units _ n.significand.exponent hunits h
  generalize scaledUnits units n.significand.exponent = scaled at hscaled ⊢
  have hfinal : nearestMagnitude scaled 1 < magnitudeLimit := by
    have hle := nearestMagnitude_le scaled 1
    rw [Nat.div_one] at hle
    generalize unitScale = scale at hscaled hlimit
    omega
  split
  · rfl
  rw [if_neg (by omega), Binary64.ofUnits]
  simp only [isMagnitude_nearestMagnitude _ _ hfinal, dite_true]
  rfl

end Json.Numeral

/-! ## The numerals of doubles -/

namespace Binary64

/-- A decimal that is not cut off is rounded. -/
theorem nearestMagnitude_of_ofDecimal {s : Bool} {d : Decimal} {u : Nat} {h : IsMagnitude u}
    (hread : ofDecimal s d = finite s u h)
    (hsize : ¬ (d.digits = 0 ∨ (digitCount d.digits : Int) + d.exponent < -330)) :
    nearestMagnitude (d.digits * Nat.pow 10 d.exponent.toNat * unitScale)
      (Nat.pow 10 (-d.exponent).toNat) = u := by
  unfold ofDecimal at hread
  rw [if_neg hsize] at hread
  split at hread
  · cases hread
  unfold ofUnits at hread
  dsimp only at hread
  split at hread
  · injection hread
  · cases hread

/-- A decimal that is read as a magnitude is at most twice as large. -/
theorem size_le_of_ofDecimal (s : Bool) (d : Decimal) (u : Nat) (h : IsMagnitude u) (places : Nat)
    (hd : d.digits ≠ 0) (hread : ofDecimal s d = finite s u h)
    (hu : 2 * u < 10 ^ places * unitScale) : digitCount d.digits + d.exponent ≤ places := by
  refine Int.not_lt.mp fun hsize => ?_
  have hunits := nearestMagnitude_of_ofDecimal hread (by omega)
  have hdigits := pow_digitCount_le hd
  have hhalf := div_le_nearestMagnitude (d.digits * Nat.pow 10 d.exponent.toNat * unitScale)
    (Nat.pow 10 (-d.exponent).toNat)
  rw [hunits] at hhalf
  have hlarge : 10 ^ places * unitScale ≤
      d.digits * Nat.pow 10 d.exponent.toNat * unitScale / Nat.pow 10 (-d.exponent).toNat := by
    simp only [Nat.pow_eq]
    rw [Nat.le_div_iff_mul_le (Nat.pow_pos (by decide))]
    generalize unitScale = scale
    calc 10 ^ places * scale * 10 ^ (-d.exponent).toNat
        = 10 ^ (places + (-d.exponent).toNat) * scale := by
          rw [Nat.pow_add]
          ac_rfl
      _ ≤ 10 ^ (digitCount d.digits - 1 + d.exponent.toNat) * scale :=
          Nat.mul_le_mul_right _ (Nat.pow_le_pow_right (by decide) (by omega))
      _ ≤ d.digits * 10 ^ d.exponent.toNat * scale := by
          rw [Nat.pow_add]
          exact Nat.mul_le_mul_right _ (Nat.mul_le_mul_right _ hdigits)
  omega

end Binary64

/-- In documents, at most 16 whole digits are written. -/
theorem Decimal.length_whole_numeral_json (negative : Bool) (d : Decimal) :
    (d.numeral .json negative).whole.length ≤ 19 := by
  unfold Decimal.numeral
  dsimp only [Layout.json]
  generalize Nat.toDigits 10 d.digits = digits
  generalize d.exponent = exponent
  split
  · unfold positionalNumeral
    split
    · simp
    split
    · rw [List.length_append, length_zeros]
      omega
    · rw [List.length_take]
      omega
  · unfold scientificNumeral
    rw [List.length_take]
    omega

/-- In documents, a decimal below `10 ^ 16` has no positive exponent. -/
theorem Decimal.writtenExponent_numeral_json_le (negative : Bool) (d : Decimal)
    (hsize : digitCount d.digits + d.exponent ≤ 16) :
    (d.numeral .json negative).writtenExponent ≤ 0 := by
  unfold digitCount at hsize
  unfold Decimal.numeral
  dsimp only [Layout.json]
  generalize Nat.toDigits 10 d.digits = digits at hsize ⊢
  generalize d.exponent = exponent at hsize ⊢
  split
  · unfold positionalNumeral
    split
    · exact Int.le_refl 0
    split <;> exact Int.le_refl 0
  · have hneg : (digits.length : Int) + exponent - 1 < 0 := by omega
    simp only [scientificNumeral, Json.Numeral.writtenExponent, hneg, decide_true, if_true]
    omega

namespace Binary64

theorem length_whole_unitsNumeral (s : Bool) (u : Nat) :
    (unitsNumeral .json s u).whole.length ≤ 19 := by
  unfold unitsNumeral
  split
  · simp
  · exact Decimal.length_whole_numeral_json ..

theorem writtenExponent_unitsNumeral_le (s : Bool) (u : Nat) (h : IsMagnitude u)
    (hu : u < 10 ^ 15 * unitScale) : (unitsNumeral .json s u).writtenExponent ≤ 0 := by
  unfold unitsNumeral
  split
  · exact Int.le_refl 0
  · next hne =>
    apply Decimal.writtenExponent_numeral_json_le
    apply size_le_of_ofDecimal s _ u h 16 (shortestDecimal_ne_zero _ u h hne)
      (ofDecimal_shortestDecimal s _ u h hne)
    generalize unitScale = scale at hu ⊢
    omega

/-- What a double of moderate size is written as has no positive exponent. -/
theorem significand_exponent_unitsNumeral (s : Bool) (u : Nat) (h : IsMagnitude u)
    (hu : u < 10 ^ 15 * unitScale) : (unitsNumeral .json s u).significand.exponent ≤ 0 := by
  have hwhole := (wellFormed_unitsNumeral .json s u h).whole.2
  exact Int.le_trans
    (Json.Numeral.significand_exponent_le _ hwhole (length_whole_unitsNumeral s u))
    (writtenExponent_unitsNumeral_le s u h hu)

/-- What a double of moderate size is written as is read. -/
theorem double?_unitsNumeral_isSome (s : Bool) (u : Nat) (h : IsMagnitude u)
    (hu : u < 10 ^ 15 * unitScale) : (unitsNumeral .json s u).double?.isSome :=
  Json.Numeral.double?_isSome _ (significand_exponent_unitsNumeral s u h hu)

end Binary64

end Gazetteer
