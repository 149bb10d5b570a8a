import Gazetteer.Proofs.Number.Moderate

/-!
# Rounding keeps the order

A number is not rounded to more than another that is at least as large.  In particular rounding does
not pass a magnitude, nor the first power of two that is too large for one.  Between two numbers that
are rounded to places of different spacing lies a power of two, which neither of them passes.

    num ≤ m * den → nearestMagnitude num den ≤ m, for a magnitude m     (nearestMagnitude_le_of_le)
    m * den ≤ num → m ≤ nearestMagnitude num den                              (le_nearestMagnitude)
    num / den ≤ num' / den' → the one is rounded to at most the other       (nearestMagnitude_mono)
-/

namespace Gazetteer

theorem log2_le_log2 {u v : Nat} (h : u ≤ v) : u.log2 ≤ v.log2 := by
  by_cases hzero : u = 0
  · subst hzero
    exact Nat.zero_le _
  · exact (Nat.le_log2 (by omega)).mpr (Nat.le_trans (Nat.log2_self_le hzero) h)

theorem spacing_dvd_spacing {u v : Nat} (h : u.log2 ≤ v.log2) : spacing u ∣ spacing v :=
  Nat.pow_dvd_pow 2 (by omega)

/-! ## Magnitudes as limits -/

theorem nearestMagnitude_le_of_le {num den m : Nat} (hm : spacing m ∣ m) (hden : 0 < den)
    (h : num ≤ m * den) : nearestMagnitude num den ≤ m := by
  by_cases hexact : num = m * den
  · have hround : nearestMagnitude num den = m := by
      rw [hexact, nearestMagnitude_congr (m * den) den m 1 hden (by decide) (Nat.mul_one _),
        nearestMagnitude_one m hm]
    exact Nat.le_of_eq hround
  have hq : num / den < m := (Nat.div_lt_iff_lt_mul hden).mpr (by omega)
  obtain ⟨places, hplaces, heq⟩ := nearestMagnitude_cases num den
  rw [heq]
  generalize num / den = q at hq hplaces ⊢
  -- The spacing of the quotient divides `m`, so the next place above the quotient is not beyond it.
  obtain ⟨k, hk⟩ : spacing q ∣ m := by
    apply Nat.dvd_trans _ hm
    exact spacing_dvd_spacing (log2_le_log2 (Nat.le_of_lt hq))
  have hplace : q / spacing q < k := by
    rw [Nat.div_lt_iff_lt_mul (spacing_pos q), Nat.mul_comm, ← hk]
    exact hq
  rw [hk, Nat.mul_comm (spacing q) k]
  exact Nat.mul_le_mul_right _ (by omega)

theorem le_nearestMagnitude {num den m : Nat} (hm : spacing m ∣ m) (hden : 0 < den)
    (h : m * den ≤ num) : m ≤ nearestMagnitude num den := by
  have hq : m ≤ num / den := (Nat.le_div_iff_mul_le hden).mpr h
  obtain ⟨places, hplaces, heq⟩ := nearestMagnitude_cases num den
  rw [heq]
  generalize num / den = q at hq hplaces ⊢
  suffices hbelow : ∃ k, m ≤ k * spacing q ∧ k * spacing q ≤ q by
    obtain ⟨k, hmk, hkq⟩ := hbelow
    have hplace : k ≤ q / spacing q := (Nat.le_div_iff_mul_le (spacing_pos q)).mpr hkq
    exact Nat.le_trans hmk (Nat.mul_le_mul_right _ (by omega))
  by_cases hzero : m = 0
  · subst hzero
    exact ⟨0, by omega, by omega⟩
  have hlog : m.log2 ≤ q.log2 := log2_le_log2 hq
  by_cases hsame : m.log2 = q.log2
  · -- Here `m` is a place itself.
    obtain ⟨k, hk⟩ : spacing q ∣ m := Nat.dvd_trans (spacing_dvd_spacing (by omega)) hm
    rw [Nat.mul_comm] at hk
    exact ⟨k, by omega, by omega⟩
  · -- Here the power of two between them is one.
    obtain ⟨k, hk⟩ : spacing q ∣ 2 ^ q.log2 := Nat.pow_dvd_pow 2 (by omega)
    rw [Nat.mul_comm] at hk
    have hpow : m < 2 ^ (m.log2 + 1) := Nat.lt_log2_self
    have hle : 2 ^ (m.log2 + 1) ≤ 2 ^ q.log2 := Nat.pow_le_pow_right (by decide) (by omega)
    exact ⟨k, by omega, by rw [← hk]; exact Nat.log2_self_le (by omega)⟩

/-! ## Order -/

/-- Of two numbers of equal parts, the larger one is not rounded to less. -/
theorem nearestMagnitude_mono_left {num num' den : Nat} (hden : 0 < den) (h : num ≤ num') :
    nearestMagnitude num den ≤ nearestMagnitude num' den := by
  have hq : num / den ≤ num' / den := Nat.div_le_div_right h
  have hlog : (num / den).log2 ≤ (num' / den).log2 := log2_le_log2 hq
  by_cases hsame : (num / den).log2 = (num' / den).log2
  · -- Here both are rounded to places of one spacing.
    have hspacing : spacing (num' / den) = spacing (num / den) := by rw [spacing, spacing, hsame]
    have hstep : 0 < den * spacing (num / den) := Nat.mul_pos hden (spacing_pos _)
    unfold nearestMagnitude
    dsimp only
    rw [hspacing]
    apply Nat.mul_le_mul_right
    generalize den * spacing (num / den) = step at hstep
    have hplaces : num / step ≤ num' / step := Nat.div_le_div_right h
    have hleft := Nat.div_add_mod num step
    have hright := Nat.div_add_mod num' step
    by_cases hequal : num / step = num' / step
    · rw [hequal] at hleft ⊢
      split
      · next hup =>
        simp only [Bool.or_eq_true, decide_eq_true_eq, Bool.and_eq_true, beq_iff_eq] at hup
        have hup' : (step < 2 * (num' % step) ||
            (step == 2 * (num' % step) && num' / step % 2 == 1)) = true := by
          simp only [Bool.or_eq_true, decide_eq_true_eq, Bool.and_eq_true, beq_iff_eq]
          omega
        exact Nat.le_of_eq (if_pos hup').symm
      · split <;> omega
    · split <;> split <;> omega
  · -- Here a power of two lies between them.
    have hlarge : num' / den ≠ 0 := by
      intro hzero
      rw [hzero] at hsame hlog
      exact hsame (Nat.le_zero.mp hlog)
    have hpower : spacing (2 ^ (num' / den).log2) ∣ 2 ^ (num' / den).log2 := by
      have hdvd := spacing_dvd 1 (num' / den).log2 (by decide)
      rwa [Nat.one_mul] at hdvd
    have hbelow : num / den < 2 ^ (num' / den).log2 :=
      Nat.lt_of_lt_of_le Nat.lt_log2_self (Nat.pow_le_pow_right (by decide) (by omega))
    calc nearestMagnitude num den ≤ 2 ^ (num' / den).log2 :=
          nearestMagnitude_le_of_le hpower hden
            (Nat.le_of_lt ((Nat.div_lt_iff_lt_mul hden).mp hbelow))
      _ ≤ nearestMagnitude num' den :=
          le_nearestMagnitude hpower hden
            ((Nat.le_div_iff_mul_le hden).mp (Nat.log2_self_le hlarge))

/-- A larger number is not rounded to less. -/
theorem nearestMagnitude_mono {num den num' den' : Nat} (hden : 0 < den) (hden' : 0 < den')
    (h : num * den' ≤ num' * den) : nearestMagnitude num den ≤ nearestMagnitude num' den' := by
  rw [← nearestMagnitude_scale den' num den hden', ← nearestMagnitude_scale den num' den' hden,
    Nat.mul_comm den' den]
  apply nearestMagnitude_mono_left (Nat.mul_pos hden hden')
  rw [Nat.mul_comm den' num, Nat.mul_comm den num']
  exact h

end Gazetteer
