import Mathlib.Algebra.Group.Nat.Defs
import Gazetteer.Number.Shortest

/-!
# Rounding depends on the value alone

The double nearest to a quotient is that of every equal quotient, and a magnitude is nearest to
itself.  So the double of a decimal number does not depend on how many zeros its digits end in, and
the shortest decimal of a magnitude, which was tried before it was taken, is read as the magnitude.

    nearestMagnitude (c * num) (c * den) = nearestMagnitude num den      (nearestMagnitude_scale)
    ofDecimal s ⟨m * 10 ^ k, e⟩ = ofDecimal s ⟨m, e + k⟩                  (ofDecimal_zeros)
    ofDecimal s (shortestDecimal tie u) = finite s u                     (ofDecimal_shortestDecimal)
-/

namespace Gazetteer

/-! ## Quotients -/

theorem nearestMagnitude_scale (c num den : Nat) (hc : 0 < c) :
    nearestMagnitude (c * num) (c * den) = nearestMagnitude num den := by
  unfold nearestMagnitude
  rw [Nat.mul_div_mul_left num den hc, Nat.mul_assoc]
  generalize den * spacing (num / den) = step
  dsimp only
  rw [Nat.mul_div_mul_left num step hc, Nat.mul_mod_mul_left]
  have hlt : c * step < 2 * (c * (num % step)) ↔ step < 2 * (num % step) := by
    rw [Nat.mul_left_comm]
    exact Nat.mul_lt_mul_left hc
  have heq : c * step = 2 * (c * (num % step)) ↔ step = 2 * (num % step) := by
    rw [Nat.mul_left_comm]
    exact Nat.mul_right_inj (Nat.pos_iff_ne_zero.mp hc)
  have hbeq : (c * step == 2 * (c * (num % step))) = (step == 2 * (num % step)) := by
    rw [Bool.eq_iff_iff]
    simpa using heq
  simp only [hlt, hbeq]

theorem nearestMagnitude_congr (num den num' den' : Nat) (hden : 0 < den) (hden' : 0 < den')
    (h : num * den' = num' * den) : nearestMagnitude num den = nearestMagnitude num' den' := by
  rw [← nearestMagnitude_scale den' num den hden', ← nearestMagnitude_scale den num' den' hden,
    Nat.mul_comm den' num, h, Nat.mul_comm num' den, Nat.mul_comm den' den]

theorem spacing_pos (u : Nat) : 0 < spacing u := Nat.pow_pos (by decide)

theorem IsMagnitude.dvd {u : Nat} (h : IsMagnitude u) : spacing u ∣ u :=
  Nat.dvd_of_mod_eq_zero h.2

/-- A multiple of its own spacing, and so every magnitude, is nearest to itself. -/
theorem nearestMagnitude_one (u : Nat) (h : spacing u ∣ u) : nearestMagnitude u 1 = u := by
  have hs := spacing_pos u
  unfold nearestMagnitude
  simp only [Nat.div_one, Nat.one_mul, Nat.mod_eq_zero_of_dvd h, Nat.mul_zero, Nat.not_lt_zero,
    decide_false, Bool.false_or]
  have hne : (spacing u == 0) = false := by simpa using Nat.pos_iff_ne_zero.mp hs
  simp only [hne, Bool.false_and, Bool.false_eq_true, if_false]
  exact Nat.div_mul_cancel h

namespace Binary64

theorem ofUnits_congr (s : Bool) (num den num' den' : Nat) (hden : 0 < den) (hden' : 0 < den')
    (h : num * den' = num' * den) : ofUnits s num den = ofUnits s num' den' := by
  unfold ofUnits
  simp only [nearestMagnitude_congr num den num' den' hden hden' h]

theorem ofUnits_exact (s : Bool) (u den : Nat) (hden : 0 < den) (h : IsMagnitude u) :
    ofUnits s (u * den) den = finite s u h := by
  have hu : nearestMagnitude (u * den) den = u := by
    rw [nearestMagnitude_congr (u * den) den u 1 hden (by decide) (Nat.mul_one _),
      nearestMagnitude_one u h.dvd]
  unfold ofUnits
  simp only [hu, h, dite_true]

end Binary64

/-! ## Digits -/

theorem digitCount_mul_ten (m : Nat) (hm : 0 < m) : digitCount (m * 10) = digitCount m + 1 := by
  unfold digitCount
  rw [Nat.toDigits_of_base_le (by decide) (by omega), Nat.mul_div_cancel m (by decide),
    List.length_append]
  rfl

theorem digitCount_mul_pow (m k : Nat) (hm : 0 < m) :
    digitCount (m * 10 ^ k) = digitCount m + k := by
  induction k with
  | zero => simp
  | succ k ih =>
    have hpos : 0 < m * 10 ^ k := Nat.mul_pos hm (Nat.pow_pos (by decide))
    rw [Nat.pow_succ, ← Nat.mul_assoc, digitCount_mul_ten _ hpos, ih]
    omega

theorem digitCount_le_iff (n k : Nat) (hk : 0 < k) : digitCount n ≤ k ↔ n < 10 ^ k :=
  Nat.length_toDigits_le_iff (by decide) hk

theorem pow_digitCount_le {n : Nat} (hn : n ≠ 0) : 10 ^ (digitCount n - 1) ≤ n := by
  by_cases hone : digitCount n - 1 = 0
  · rw [hone]
    omega
  · have hcount := digitCount_le_iff n _ (Nat.pos_of_ne_zero hone)
    omega

namespace Binary64

theorem ofDecimal_zero (s : Bool) (d : Decimal) (h : d.digits = 0) : ofDecimal s d = zero s := by
  unfold ofDecimal
  exact if_pos (.inl h)

/-- Zeros at the end of the digits count as much in the exponent. -/
theorem ofDecimal_zeros (s : Bool) (m k : Nat) (e : Int) :
    ofDecimal s ⟨m * 10 ^ k, e⟩ = ofDecimal s ⟨m, e + k⟩ := by
  by_cases hm : m = 0
  · simp [ofDecimal, hm]
  · have hpos : 0 < m := Nat.pos_of_ne_zero hm
    have hne : m * 10 ^ k ≠ 0 := by
      have := Nat.mul_pos hpos (Nat.pow_pos (n := k) (show 0 < 10 by decide))
      omega
    have hsize : (digitCount (m * 10 ^ k) : Int) + e = digitCount m + (e + k) := by
      rw [digitCount_mul_pow m k hpos]
      push_cast
      omega
    unfold ofDecimal
    simp only [hm, hne, hsize, false_or]
    split
    · rfl
    split
    · rfl
    apply ofUnits_congr
    · exact Nat.pow_pos (by decide)
    · exact Nat.pow_pos (by decide)
    simp only [Nat.pow_eq]
    generalize unitScale = scale
    have hexp : k + e.toNat + (-(e + k)).toNat = (e + k).toNat + (-e).toNat := by omega
    calc m * 10 ^ k * 10 ^ e.toNat * scale * 10 ^ (-(e + k)).toNat
        = m * scale * 10 ^ (k + e.toNat + (-(e + k)).toNat) := by
          rw [Nat.pow_add, Nat.pow_add]
          ac_rfl
      _ = m * 10 ^ (e + k).toNat * scale * 10 ^ (-e).toNat := by
          rw [hexp, Nat.pow_add]
          ac_rfl

theorem ofDecimal_trim (s : Bool) (d : Decimal) : ofDecimal s d.trim = ofDecimal s d := by
  induction d using Decimal.trim.induct with
  | case1 d h ih =>
    rw [Decimal.trim, dif_pos h, ih]
    have hdigits : d.digits / 10 * 10 = d.digits := Nat.div_mul_cancel (Nat.dvd_of_mod_eq_zero h.2)
    have hz := ofDecimal_zeros s (d.digits / 10) 1 d.exponent
    rw [Nat.pow_one, hdigits] at hz
    exact hz.symm
  | case2 d h => rw [Decimal.trim, dif_neg h]

/-- What is not zero has digits. -/
theorem digits_ne_zero_of_ofDecimal {s : Bool} {u : Nat} {d : Decimal} {hu : IsMagnitude u}
    (hread : ofDecimal s d = finite s u hu) (hne : u ≠ 0) : d.digits ≠ 0 := by
  intro hzero
  rw [ofDecimal_zero _ _ hzero] at hread
  injection hread with _ hzero
  exact hne hzero.symm

/-- The sign has no part in the size. -/
theorem ofDecimal_cases (d : Decimal) :
    (∃ u h, ∀ s, ofDecimal s d = finite s u h) ∨ ∀ s, ofDecimal s d = infinite s := by
  unfold ofDecimal
  by_cases hzero : d.digits = 0 ∨ (digitCount d.digits : Int) + d.exponent < -330
  · exact .inl ⟨0, isMagnitude_zero, fun s => by simp only [hzero, if_true]; rfl⟩
  by_cases hlarge : 310 < (digitCount d.digits : Int) + d.exponent
  · exact .inr fun s => by simp only [hzero, hlarge, if_true, if_false]
  simp only [hzero, hlarge, if_false, ofUnits]
  generalize d.digits * Nat.pow 10 d.exponent.toNat * unitScale = num
  generalize Nat.pow 10 (-d.exponent).toNat = den
  by_cases h : IsMagnitude (nearestMagnitude num den)
  · exact .inl ⟨_, h, fun s => by rw [dif_pos h]⟩
  · exact .inr fun s => by rw [dif_neg h]

theorem ofDecimal_of_readsAs (s : Bool) (u : Nat) (h : IsMagnitude u) (d : Decimal)
    (hd : readsAs u d = true) : ofDecimal s d = finite s u h := by
  rw [readsAs, beq_iff_eq] at hd
  rcases ofDecimal_cases d with ⟨v, hv, hfinite⟩ | hinfinite
  · rw [hfinite, position, Option.some.injEq, if_neg Bool.false_ne_true] at hd
    have huv : v = u := Int.ofNat.inj hd
    subst huv
    exact hfinite s
  · rw [hinfinite, position, Option.some.injEq, if_neg Bool.false_ne_true] at hd
    have hlimit : magnitudeLimit = u := Int.ofNat.inj hd
    exact absurd hlimit (Nat.ne_of_gt h.1)

/-- All digits of a magnitude are enough to read it back. -/
theorem ofDecimal_exactDecimal (s : Bool) (u : Nat) (h : IsMagnitude u) (hu : u ≠ 0) :
    ofDecimal s (exactDecimal u) = finite s u h := by
  have hlow : 10 ^ 750 ≤ Nat.pow 5 1074 := by decide +kernel
  have hhigh : magnitudeLimit * Nat.pow 5 1074 < 10 ^ 1383 := by decide +kernel
  have hten : Nat.pow 10 (-1074 : Int).toNat = 1 := rfl
  have hscale : Nat.pow 5 1074 * unitScale = Nat.pow 10 (-(-1074 : Int)).toNat := by
    decide +kernel
  have hden : 0 < Nat.pow 10 (-(-1074 : Int)).toNat := by decide +kernel
  have hlt := h.1
  unfold ofDecimal exactDecimal
  simp only
  generalize Nat.pow 5 1074 = five at hlow hhigh hscale ⊢
  generalize Nat.pow 10 (-(-1074 : Int)).toNat = den at hscale hden ⊢
  have hpos : 1 ≤ u := by omega
  have hge : five ≤ u * five := Nat.le_mul_of_pos_left five hpos
  have hle : u * five ≤ magnitudeLimit * five := Nat.mul_le_mul_right five (by omega)
  have hmin : ¬ digitCount (u * five) ≤ 750 := by
    rw [digitCount_le_iff _ _ (by decide)]
    exact Nat.not_lt.mpr (Nat.le_trans hlow hge)
  have hmax : digitCount (u * five) ≤ 1383 := by
    rw [digitCount_le_iff _ _ (by decide)]
    exact Nat.lt_of_le_of_lt hle hhigh
  have hfive : 0 < five := Nat.lt_of_lt_of_le (Nat.pow_pos (show 0 < 10 by decide)) hlow
  have hne : u * five ≠ 0 := by omega
  rw [if_neg (by omega), if_neg (by omega)]
  rw [hten, Nat.mul_one, Nat.mul_assoc, hscale]
  exact ofUnits_exact s u den hden h

/-- The shortest decimal of a magnitude is read as the magnitude. -/
theorem ofDecimal_shortestDecimal (s : Bool) (tie : Tie) (u : Nat) (h : IsMagnitude u)
    (hu : u ≠ 0) : ofDecimal s (shortestDecimal tie u) = finite s u h := by
  unfold shortestDecimal
  simp only [ofDecimal_trim]
  generalize hfound : (List.range 17).findSome? (fun (n : Nat) =>
    (neighbours tie u (leadingExponent u - n)).find? (readsAs u)) = found
  cases found with
  | none => exact ofDecimal_exactDecimal s u h hu
  | some d =>
    obtain ⟨n, -, hd⟩ := List.exists_of_findSome?_eq_some hfound
    exact ofDecimal_of_readsAs s u h d (List.find?_some hd)

theorem shortestDecimal_ne_zero (tie : Tie) (u : Nat) (h : IsMagnitude u) (hu : u ≠ 0) :
    (shortestDecimal tie u).digits ≠ 0 :=
  digits_ne_zero_of_ofDecimal (ofDecimal_shortestDecimal false tie u h hu) hu

end Binary64

end Gazetteer
