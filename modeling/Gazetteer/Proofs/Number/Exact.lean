import Gazetteer.Proofs.Number.Limits

/-!
# Short numbers are read back

The reader of JSON numbers rounds its significand, its power of ten and their quotient.  With a
significand up to `2 ^ 53` and few places only the quotient is rounded, and that is the double which
the writer meant.  So it is for a number of degrees that has been given with at most twelve places
after its point: the writer finds digits for it that end at most one place later, since on the grid
of its own places a neighbour of the double is read as the double.

    n.decimal has few digits and places → n.double? is the double of n.decimal    (double?_of_few)
    x.IsShort, x.within 180 → x.reread? = some x                               (reread?_of_isShort)
-/

namespace Gazetteer

/-! ## Numerals that are read exactly -/

theorem le_ofDigitChars (s : Nat) (ds : List Char) : s ≤ Nat.ofDigitChars 10 ds s := by
  rw [Nat.ofDigitChars_eq_ofDigitChars_zero]
  exact Nat.le_trans (Nat.le_mul_of_pos_left s (Nat.pow_pos (by decide))) (Nat.le_add_right _ _)

namespace Json.Numeral

/-- Nothing is left over of digits whose value fits. -/
theorem collect_eq {s : Nat} {ds : List Char} (h : Nat.ofDigitChars 10 ds s < UInt64.size) :
    collect s ds = (Nat.ofDigitChars 10 ds s, []) := by
  induction ds generalizing s with
  | nil => rfl
  | cons d ds ih =>
    unfold collect
    dsimp only
    rw [if_pos (Nat.lt_of_le_of_lt (le_ofDigitChars _ ds) h)]
    exact ih h

theorem significand_eq_decimal (n : Numeral) (h : n.decimal.digits < UInt64.size) :
    n.significand = n.decimal := by
  have hvalue : n.decimal.digits =
      Nat.ofDigitChars 10 (n.fraction.getD []) (Nat.ofDigitChars 10 n.whole 0) := by
    rw [← Nat.ofDigitChars_append, ← digitsValue_eq]
    rfl
  rw [hvalue] at h
  have hwhole := collect_eq (Nat.lt_of_le_of_lt (le_ofDigitChars _ _) h)
  have hfraction := collect_eq h
  have hexponent : n.decimal.exponent = n.writtenExponent - ((n.fraction.getD []).length : Int) :=
    rfl
  have hdecimal : n.decimal = ⟨n.decimal.digits, n.decimal.exponent⟩ := rfl
  rw [hdecimal, hvalue, hexponent]
  unfold significand
  dsimp only
  rw [hwhole]
  dsimp only
  rw [hfraction, Decimal.mk.injEq, List.length_nil]
  exact ⟨rfl, by omega⟩

/-- A whole number of up to 53 bits is a double. -/
theorem nearestMagnitude_whole {digits : Nat} (h : digits ≤ 2 ^ 53) :
    nearestMagnitude (digits * unitScale) 1 = digits * unitScale := by
  apply nearestMagnitude_one
  unfold unitScale
  generalize 1074 = k
  exact spacing_dvd digits k h

/-- A numeral of few digits and places is read as the double of its decimal. -/
theorem double?_of_few {n : Numeral} (hfew : -20 ≤ n.decimal.exponent)
    (hexponent : n.decimal.exponent ≤ 0) (hdigits : n.decimal.digits ≤ 2 ^ 53) {u : Nat}
    {h : IsMagnitude u}
    (hread : Binary64.ofDecimal n.negative n.decimal = .finite n.negative u h) :
    n.double? = some (.finite n.negative u h) := by
  have hsize : UInt64.size = 2 ^ 64 := by decide
  unfold double?
  dsimp only
  rw [n.significand_eq_decimal (by omega), nearestMagnitude_whole hdigits,
    scaledUnits_eq _ hfew hexponent]
  by_cases hzero : n.decimal.digits = 0
  · rw [Binary64.ofDecimal_zero _ _ hzero] at hread
    rw [hzero, Nat.zero_mul, if_pos rfl, hread]
  · have hunits := Binary64.nearestMagnitude_of_ofDecimal hread (by omega)
    have hwhole : n.decimal.exponent.toNat = 0 := by omega
    have hten : Nat.pow 10 0 = 1 := rfl
    rw [hwhole, hten, Nat.mul_one] at hunits
    have hne : n.decimal.digits * unitScale ≠ 0 :=
      Nat.mul_ne_zero hzero (Nat.ne_of_gt unitScale_pos)
    have hdouble := Binary64.ofUnits_exact n.negative u 1 Nat.one_pos h
    rw [Nat.mul_one] at hdouble
    rw [if_neg hne, if_neg (by omega), hunits, hdouble]
    rfl

end Json.Numeral

/-! ## Decimals of few places -/

theorem Decimal.exponent_le_trim (d : Decimal) : d.exponent ≤ d.trim.exponent := by
  induction d using Decimal.trim.induct with
  | case1 d h ih =>
    rw [Decimal.trim, dif_pos h]
    exact Int.le_trans (Int.le_add_of_nonneg_right (by decide)) ih
  | case2 d h =>
    have hsame : d.trim = d := by rw [Decimal.trim, dif_neg h]
    exact Int.le_of_eq (congrArg exponent hsame.symm)

theorem exponent_of_mem_neighbours {tie : Tie} {u : Nat} {exponent : Int} {d : Decimal}
    (h : d ∈ neighbours tie u exponent) : d.exponent = exponent := by
  unfold neighbours at h
  dsimp only at h
  split at h <;> simp only [List.mem_cons, List.not_mem_nil, or_false] at h <;>
    obtain rfl | rfl := h <;> rfl

/-- A decimal of some places has no power of ten as a factor. -/
theorem mul_pow_places (digits places : Nat) :
    digits * Nat.pow 10 (-(places : Int)).toNat = digits := by
  have hwhole : (-(places : Int)).toNat = 0 := by omega
  rw [hwhole]
  exact Nat.mul_one digits

/-- The neighbours of a magnitude are the multiples around it. -/
theorem mem_neighbours (tie : Tie) (u places : Nat) (d : Decimal) :
    d ∈ neighbours tie u (-(places : Int)) ↔ d.exponent = -(places : Int) ∧
      (d.digits = u * Nat.pow 10 places / unitScale ∨
        d.digits = u * Nat.pow 10 places / unitScale + 1) := by
  obtain ⟨digits, exponent⟩ := d
  unfold neighbours
  dsimp only
  rw [mul_pow_places, Int.neg_neg, Int.toNat_natCast]
  split <;> simp only [List.mem_cons, Decimal.mk.injEq, List.not_mem_nil, or_false] <;> omega

namespace Binary64

theorem readsAs_of_places {u digits places : Nat} (hu : IsMagnitude u) (hdigits : digits ≠ 0)
    (hsize : digits < 10 ^ 200) (hplaces : places ≤ 200)
    (h : nearestMagnitude (digits * unitScale) (Nat.pow 10 places) = u) :
    readsAs u ⟨digits, -(places : Int)⟩ = true := by
  have hcount := (digitCount_le_iff digits 200 (by decide)).mpr hsize
  have hread : ofDecimal false ⟨digits, -(places : Int)⟩ = finite false u hu := by
    unfold ofDecimal ofUnits
    dsimp only
    rw [if_neg (by omega), if_neg (by omega), mul_pow_places, Int.neg_neg, Int.toNat_natCast]
    simp only [h, hu, dite_true]
  rw [readsAs, hread]
  exact beq_self_eq_true _

theorem nearestMagnitude_of_places {s : Bool} {u digits places : Nat} {hu : IsMagnitude u}
    (hread : ofDecimal s ⟨digits, -(places : Int)⟩ = finite s u hu) (hdigits : digits ≠ 0)
    (hplaces : places ≤ 200) : nearestMagnitude (digits * unitScale) (Nat.pow 10 places) = u := by
  have hrounded := nearestMagnitude_of_ofDecimal hread (by dsimp only; omega)
  rwa [mul_pow_places, Int.neg_neg, Int.toNat_natCast] at hrounded

/-- If a decimal of some places is read as a magnitude, a neighbour of the magnitude with as many
places is. -/
theorem exists_neighbour (tie : Tie) {u digits places : Nat} (hu : IsMagnitude u) (hne : u ≠ 0)
    (hsize : u * Nat.pow 10 places / unitScale + 1 < 10 ^ 200) (hplaces : places ≤ 200)
    (hread : ofDecimal false ⟨digits, -(places : Int)⟩ = finite false u hu) :
    ∃ d ∈ neighbours tie u (-(places : Int)), readsAs u d = true := by
  have hdigits : digits ≠ 0 := digits_ne_zero_of_ofDecimal hread hne
  have hunits := nearestMagnitude_of_places hread hdigits hplaces
  have hden : 0 < Nat.pow 10 places := Nat.pow_pos (by decide)
  have hmono {m m' : Nat} (h : m ≤ m') : nearestMagnitude (m * unitScale) (Nat.pow 10 places) ≤
      nearestMagnitude (m' * unitScale) (Nat.pow 10 places) :=
    nearestMagnitude_mono_left hden (Nat.mul_le_mul_right _ h)
  have hbelow := Nat.div_mul_le_self (u * Nat.pow 10 places) unitScale
  have habove := Nat.lt_div_mul_add (a := u * Nat.pow 10 places) unitScale_pos
  simp only [mem_neighbours]
  generalize u * Nat.pow 10 places / unitScale = lower at hsize hbelow habove ⊢
  by_cases hlower : digits ≤ lower
  · -- The decimal is not above the lower neighbour, and this is not above the magnitude.
    refine ⟨⟨lower, -(places : Int)⟩, ⟨rfl, .inl rfl⟩,
      readsAs_of_places hu (by omega) (by omega) hplaces (Nat.le_antisymm ?_ ?_)⟩
    · exact nearestMagnitude_le_of_le hu.dvd hden hbelow
    · exact hunits ▸ hmono hlower
  · refine ⟨⟨lower + 1, -(places : Int)⟩, ⟨rfl, .inr rfl⟩,
      readsAs_of_places hu (by omega) hsize hplaces (Nat.le_antisymm ?_ ?_)⟩
    · exact hunits ▸ hmono (Nat.lt_of_not_le hlower)
    · apply le_nearestMagnitude hu.dvd hden
      rw [Nat.add_mul, Nat.one_mul]
      exact Nat.le_of_lt habove

/-- On a grid where a neighbour is read as the magnitude, the search has come to its end. -/
theorem le_exponent_shortestDecimal {tie : Tie} {u n : Nat} (hn : n ≤ 16)
    (h : ∃ d ∈ neighbours tie u (leadingExponent u - n), readsAs u d = true) :
    leadingExponent u - n ≤ (shortestDecimal tie u).exponent := by
  let tried (n : Nat) : Option Decimal :=
    (neighbours tie u (leadingExponent u - n)).find? (readsAs u)
  have hsome : ((List.range (n + 1)).findSome? tried).isSome := by
    rw [List.findSome?_isSome_iff]
    exact ⟨n, List.mem_range.mpr (Nat.lt_succ_self n), List.find?_isSome.mpr h⟩
  obtain ⟨d, hd⟩ := Option.isSome_iff_exists.mp hsome
  have hfound : (List.range 17).findSome? tried = some d := by
    obtain ⟨rest, hrest⟩ : ∃ rest, 17 = n + 1 + rest := ⟨16 - n, by omega⟩
    rw [hrest, List.range_add, List.findSome?_append, hd]
    rfl
  have hshortest : shortestDecimal tie u = d.trim := by
    unfold shortestDecimal
    dsimp only
    rw [hfound]
    rfl
  obtain ⟨k, hk, htried⟩ := List.exists_of_findSome?_eq_some hd
  have hexponent := exponent_of_mem_neighbours (List.mem_of_find?_eq_some htried)
  have htrim := d.exponent_le_trim
  rw [List.mem_range] at hk
  rw [hshortest]
  omega

/-! ## Short numbers -/

theorem leadingExponent_le {u : Nat} (h : u ≤ 180 * unitScale) : leadingExponent u ≤ 2 := by
  obtain ⟨k, hk⟩ : ∃ k, k = 400 := ⟨400, rfl⟩
  have hquotient : u * Nat.pow 10 k / unitScale < 10 ^ (k + 3) := by
    have hten : 0 < Nat.pow 10 k := Nat.pow_pos (by decide)
    have hscale := unitScale_pos
    rw [Nat.div_lt_iff_lt_mul unitScale_pos, Nat.pow_add, ← Nat.pow_eq]
    generalize unitScale = scale at h hscale ⊢
    generalize Nat.pow 10 k = ten at hten ⊢
    calc u * ten ≤ 180 * scale * ten := Nat.mul_le_mul_right _ h
      _ = 180 * (ten * scale) := by ac_rfl
      _ < 10 ^ 3 * (ten * scale) :=
          Nat.mul_lt_mul_of_pos_right (by decide) (Nat.mul_pos hten hscale)
      _ = ten * 10 ^ 3 * scale := by ac_rfl
  have hcount := (digitCount_le_iff _ (k + 3) (by omega)).mpr hquotient
  unfold leadingExponent
  rw [← hk]
  omega

/-- A number does not begin more than one place after all of its places. -/
theorem le_leadingExponent {u digits places : Nat} (hdigits : digits ≠ 0) (hplaces : places ≤ 200)
    (hunits : nearestMagnitude (digits * unitScale) (Nat.pow 10 places) = u) :
    -(places : Int) - 1 ≤ leadingExponent u := by
  have hten : 0 < Nat.pow 10 places := Nat.pow_pos (by decide)
  have hlarge : unitScale ≤ u * (10 * Nat.pow 10 places) := by
    have hmany : Nat.pow 10 places ≤ unitScale := by
      refine Nat.le_trans (Nat.pow_le_pow_left (by decide : 10 ≤ 2 ^ 4) places) ?_
      rw [← Nat.pow_mul]
      apply Nat.pow_le_pow_right <;> omega
    have hhalf := div_le_nearestMagnitude (digits * unitScale) (Nat.pow 10 places)
    rw [hunits] at hhalf
    generalize Nat.pow 10 places = ten at hhalf hmany hten ⊢
    generalize unitScale = scale at hhalf hmany ⊢
    have hscale : scale ≤ digits * scale := Nat.le_mul_of_pos_left _ (Nat.pos_of_ne_zero hdigits)
    have hone : 1 ≤ digits * scale / ten :=
      (Nat.one_le_div_iff hten).mpr (Nat.le_trans hmany hscale)
    have hupper : digits * scale < digits * scale / ten * ten + ten := Nat.lt_div_mul_add hten
    have hquotient : digits * scale / ten * ten ≤ 2 * u * ten := Nat.mul_le_mul_right _ hhalf
    calc scale ≤ 2 * u * ten + 1 * ten := by omega
      _ = (2 * u + 1) * ten := (Nat.add_mul ..).symm
      _ ≤ (u * 10) * ten := Nat.mul_le_mul_right _ (by omega)
      _ = u * (10 * ten) := Nat.mul_assoc ..
  obtain ⟨k, hk⟩ : ∃ k, k = 400 := ⟨400, rfl⟩
  have hcount : ¬ digitCount (u * Nat.pow 10 k / unitScale) ≤ k - 1 - places := by
    rw [digitCount_le_iff _ _ (by omega), Nat.not_lt, Nat.le_div_iff_mul_le unitScale_pos]
    have hparts : k - 1 - places + (places + 1) = k := by omega
    calc 10 ^ (k - 1 - places) * unitScale
        ≤ 10 ^ (k - 1 - places) * (u * (10 * Nat.pow 10 places)) := Nat.mul_le_mul_left _ hlarge
      _ = u * (10 ^ (k - 1 - places) * 10 ^ (places + 1)) := by
          rw [Nat.pow_succ, Nat.pow_eq]
          ac_rfl
      _ = u * Nat.pow 10 k := by rw [← Nat.pow_add, hparts, Nat.pow_eq]
  unfold leadingExponent
  rw [← hk]
  omega

/-- A number with at most twelve places after its point. -/
def IsShort (x : Binary64) : Prop :=
  ∃ (s : Bool) (digits places : Nat), places ≤ 12 ∧ x = ofDecimal s ⟨digits, -(places : Int)⟩

/-- The shortest digits of such a number end one place later at most. -/
theorem le_exponent_shortestDecimal_of_places (tie : Tie) {u digits places : Nat}
    (hu : IsMagnitude u) (hne : u ≠ 0) (hle : u ≤ 180 * unitScale) (hplaces : places ≤ 12)
    (hread : ofDecimal false ⟨digits, -(places : Int)⟩ = finite false u hu) :
    -13 ≤ (shortestDecimal tie u).exponent := by
  have hdigits : digits ≠ 0 := digits_ne_zero_of_ofDecimal hread hne
  have hhigh := leadingExponent_le hle
  have hlow := le_leadingExponent hdigits (by omega)
    (nearestMagnitude_of_places hread hdigits (by omega))
  -- The grid of its places, or the one on which the magnitude begins if that is finer.
  obtain ⟨n, k, hn, hk, hplacesLe, hkLe⟩ : ∃ n k : Nat, n ≤ 16 ∧
      leadingExponent u - n = -(k : Int) ∧ places ≤ k ∧ k ≤ 13 := by
    by_cases hfine : leadingExponent u < -(places : Int)
    · exact ⟨0, (-leadingExponent u).toNat, by omega, by omega, by omega, by omega⟩
    · exact ⟨(leadingExponent u + places).toNat, places, by omega, by omega, by omega, by omega⟩
  have hsize : u * Nat.pow 10 k / unitScale + 1 < 10 ^ 200 := by
    have hpower : Nat.pow 10 k ≤ 10 ^ 13 := Nat.pow_le_pow_right (by decide) hkLe
    have hquotient : u * Nat.pow 10 k / unitScale ≤ 180 * Nat.pow 10 k := by
      apply Nat.div_le_of_le_mul
      rw [Nat.mul_comm unitScale, Nat.mul_right_comm]
      exact Nat.mul_le_mul_right _ hle
    omega
  have hsame : ofDecimal false ⟨digits * 10 ^ (k - places), -(k : Int)⟩ = finite false u hu := by
    have hexponent : -(k : Int) + (k - places : Nat) = -(places : Int) := by omega
    rw [ofDecimal_zeros, hexponent, hread]
  have hfound : ∃ d ∈ neighbours tie u (leadingExponent u - n), readsAs u d = true := by
    rw [hk]
    exact exists_neighbour tie hu hne hsize (by omega) hsame
  have hexponent := le_exponent_shortestDecimal hn hfound
  omega

/-- Such a number is written with one more place at most. -/
theorem le_exponent_unitsNumeral (s : Bool) {u : Nat} (hu : IsMagnitude u)
    (hle : u ≤ 180 * unitScale) (hshort : (finite s u hu).IsShort) :
    -13 ≤ (unitsNumeral .json s u).decimal.exponent := by
  obtain ⟨s', digits, places, hplaces, hread⟩ := hshort
  have hpositive : ofDecimal false ⟨digits, -(places : Int)⟩ = finite false u hu := by
    obtain ⟨v, hv, hfinite⟩ | hinfinite := ofDecimal_cases ⟨digits, -(places : Int)⟩
    · rw [hfinite] at hread ⊢
      cases hread
      rfl
    · rw [hinfinite] at hread
      cases hread
  unfold unitsNumeral
  split
  · exact (by decide : (-13 : Int) ≤ 0 - 1)
  · next hne =>
    have hshortest := le_exponent_shortestDecimal_of_places .toEven hu hne hle hplaces hpositive
    show -13 ≤ ((shortestDecimal .toEven u).numeral .json s).decimal.exponent
    generalize shortestDecimal .toEven u = d at hshortest ⊢
    obtain ⟨k, hzeros, hk⟩ := decimal_numeral .json s d
    rw [hk]
    dsimp only
    omega

/-- A short number of degrees is read back. -/
theorem reread?_of_isShort {limit : Nat} (hlimit : limit ≤ 180) {x : Binary64}
    (hx : x.within limit = true) (hshort : x.IsShort) : x.reread? = some x := by
  obtain ⟨s, u, hu, rfl, hlimited⟩ := finite_of_within limit (by omega) x hx
  have hle : u ≤ 180 * unitScale := Nat.le_trans hlimited (Nat.mul_le_mul_right _ hlimit)
  have hmoderate : u < 10 ^ 15 * unitScale :=
    Nat.lt_of_le_of_lt hle (Nat.mul_lt_mul_of_pos_right (by decide) unitScale_pos)
  have hlow := le_exponent_unitsNumeral s hu hle hshort
  have hatMost := unitsNumeral_atMost steady_halfTurn s u hu hle
  have hhigh := significand_exponent_unitsNumeral s u hu hmoderate
  have hread := ofDecimal_unitsNumeral .json s s u hu
  have hsign := negative_unitsNumeral .json s u
  show (unitsNumeral .json s u).double? = _
  generalize unitsNumeral .json s u = n at hlow hatMost hhigh hread hsign ⊢
  subst hsign
  have hsize : UInt64.size = 2 ^ 64 := by decide
  have hdigits : n.decimal.digits ≤ 2 ^ 53 := by
    have hten : 0 < Nat.pow 10 n.decimal.exponent.toNat := Nat.pow_pos (by decide)
    calc n.decimal.digits ≤ n.decimal.digits * Nat.pow 10 n.decimal.exponent.toNat :=
          Nat.le_mul_of_pos_right _ hten
      _ ≤ 180 * Nat.pow 10 (-n.decimal.exponent).toNat := hatMost
      _ ≤ 180 * 10 ^ 13 :=
          Nat.mul_le_mul_left _ (Nat.pow_le_pow_right (by decide) (by omega))
      _ ≤ 2 ^ 53 := by decide
  rw [n.significand_eq_decimal (by omega)] at hhigh
  exact Json.Numeral.double?_of_few (by omega) hhigh hdigits hread

end Binary64

end Gazetteer
