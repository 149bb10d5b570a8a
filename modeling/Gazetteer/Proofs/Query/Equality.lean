import Gazetteer.Proofs.Query.Signature

/-!
# Equal queries

Queries are compared as texts and as numbers.  Equal numbers are the same number, or zeros of
different signs, and number texts tell these zeros apart.  So equal queries have one signature,
unless a coordinate of them is zero with different signs.

    x.position = y.position ↔ x = y ∨ x.OppositeZeros y             (Binary64.position_eq_iff)
    q.same q' → (q.signature = q'.signature ↔ ¬ q.ZerosApart q')    (Query.signature_eq_iff_of_same)
-/

namespace Gazetteer

/-! ## Numbers -/

namespace Binary64

/-- Zeros of different signs. -/
def OppositeZeros (x y : Binary64) : Prop := ∃ negative, x = zero negative ∧ y = zero !negative

theorem OppositeZeros.ne {x y : Binary64} (h : x.OppositeZeros y) : x ≠ y := by
  obtain ⟨negative, rfl, rfl⟩ := h
  simp [zero]

theorem OppositeZeros.isFinite {x y : Binary64} (h : x.OppositeZeros y) :
    x.isFinite = true ∧ y.isFinite = true := by
  obtain ⟨negative, rfl, rfl⟩ := h
  exact ⟨rfl, rfl⟩

theorem position_nan_iff {y : Binary64} : nan.position = y.position ↔ nan = y := by
  cases y with
  | nan => exact iff_of_true rfl rfl
  | infinite t => exact iff_of_false nofun nofun
  | finite t v hv => exact iff_of_false nofun nofun

/-- An infinite number is beyond the places of the finite ones. -/
theorem position_infinite_iff {s : Bool} {y : Binary64} :
    (infinite s).position = y.position ↔ infinite s = y := by
  have hlimit : 0 < magnitudeLimit := isMagnitude_zero.1
  cases y with
  | nan => exact iff_of_false nofun nofun
  | infinite t =>
    rw [position, position, Option.some.injEq, infinite.injEq]
    generalize magnitudeLimit = limit at hlimit
    cases s <;> cases t <;> simp <;> omega
  | finite t v hv =>
    have hbelow := hv.1
    rw [position, position, Option.some.injEq]
    generalize magnitudeLimit = limit at hbelow
    cases s <;> cases t <;> simp <;> omega

theorem oppositeZeros_finite_iff {s t : Bool} {u v : Nat} {hu : IsMagnitude u}
    {hv : IsMagnitude v} :
    (finite s u hu).OppositeZeros (finite t v hv) ↔ t = (!s) ∧ u = 0 ∧ v = 0 := by
  constructor
  · rintro ⟨negative, hx, hy⟩
    injection hx with hs hu
    injection hy with ht hv
    exact ⟨by rw [ht, hs], hu, hv⟩
  · rintro ⟨rfl, rfl, rfl⟩
    exact ⟨s, rfl, rfl⟩

/-- Finite numbers in one place have one magnitude, and one sign unless it is zero. -/
theorem position_finite_iff {s t : Bool} {u v : Nat} {hu : IsMagnitude u} {hv : IsMagnitude v} :
    (finite s u hu).position = (finite t v hv).position ↔
      finite s u hu = finite t v hv ∨ (finite s u hu).OppositeZeros (finite t v hv) := by
  rw [position, position, Option.some.injEq, finite.injEq, oppositeZeros_finite_iff]
  by_cases hsign : t = s
  · subst hsign
    cases t <;> grind
  · obtain rfl : t = !s := Bool.eq_not.mpr hsign
    cases s <;> grind

/-- Numbers in one place are the same, or zeros of different signs. -/
theorem position_eq_iff {x y : Binary64} :
    x.position = y.position ↔ x = y ∨ x.OppositeZeros y := by
  cases x with
  | nan => rw [or_iff_left (fun h => nomatch h.isFinite.1), position_nan_iff]
  | infinite s => rw [or_iff_left (fun h => nomatch h.isFinite.1), position_infinite_iff]
  | finite s u hu =>
    cases y with
    | nan => rw [or_iff_left (fun h => nomatch h.isFinite.2), eq_comm, position_nan_iff, eq_comm]
    | infinite t =>
      rw [or_iff_left (fun h => nomatch h.isFinite.2), eq_comm, position_infinite_iff, eq_comm]
    | finite t v hv => exact position_finite_iff

/-- Equal numbers are the same, or zeros of different signs. -/
theorem eq_or_of_sameNumber {x y : Binary64} (h : x.sameNumber y = true) :
    x = y ∨ x.OppositeZeros y := by
  apply position_eq_iff.mp
  unfold sameNumber at h
  cases hx : x.position with
  | none => simp [hx] at h
  | some a =>
    cases hy : y.position with
    | none => simp [hx, hy] at h
    | some b => simpa [hx, hy] using h

end Binary64

/-! ## Points and queries -/

/-- A coordinate of both points is zero, with different signs. -/
def Coordinates.ZerosApart (c d : Coordinates) : Prop :=
  c.latitude.OppositeZeros d.latitude ∨ c.longitude.OppositeZeros d.longitude

theorem Coordinates.eq_iff_of_same {c d : Coordinates} (h : c.same d = true) :
    c = d ↔ ¬ c.ZerosApart d := by
  obtain ⟨hlatitude, hlongitude⟩ := Bool.and_eq_true_iff.mp h
  constructor
  · rintro rfl (hzeros | hzeros)
    · exact hzeros.ne rfl
    · exact hzeros.ne rfl
  · intro hzeros
    obtain ⟨hlatitude', hlongitude'⟩ := not_or.mp hzeros
    have hx := (Binary64.eq_or_of_sameNumber hlatitude).resolve_right hlatitude'
    have hy := (Binary64.eq_or_of_sameNumber hlongitude).resolve_right hlongitude'
    cases c
    cases d
    rw [Coordinates.mk.injEq]
    exact ⟨hx, hy⟩

namespace Query

/-- Two points with a coordinate that is zero, with different signs. -/
inductive ZerosApart : Query → Query → Prop where
  | points {c d : Coordinates} (zeros : c.ZerosApart d) : ZerosApart (point c) (point d)

/-- Equal queries have one signature, unless they have zeros of different signs. -/
theorem signature_eq_iff_of_same {q q' : Query} (h : q.same q' = true) :
    q.signature = q'.signature ↔ ¬ q.ZerosApart q' := by
  cases q with
  | text s =>
    cases q' with
    | text t =>
      obtain rfl : s = t := eq_of_beq h
      exact iff_of_true rfl nofun
    | point d => cases h
  | point c =>
    cases q' with
    | text t => cases h
    | point d =>
      rw [signature_point_iff, Coordinates.text_inj, Coordinates.eq_iff_of_same h]
      apply not_congr
      constructor
      · exact .points
      · rintro ⟨hzeros⟩
        exact hzeros

end Query

end Gazetteer
