import Gazetteer.Proofs.Address.ReadBack
import Gazetteer.Proofs.Number.Moderate
import Gazetteer.Proofs.Steps

/-!
# Places on the globe can be read back

Whether the number of a double is read at all is a question only for the largest doubles.  Degrees
of latitude and longitude are far from these, so an address on the globe is always read back, though
perhaps with a neighbour of one of its doubles.

    x.within limit → x.reread?.isSome, for limits below 10 ^ 15            (reread?_of_within)
    a.InRange → a.reread?.isSome, and so for lists of addresses            (mapM_reread?_isSome)
-/

namespace Gazetteer

namespace Binary64

theorem isMagnitude_whole (n : Nat) (h : n < 10 ^ 15) : IsMagnitude (n * unitScale) :=
  isMagnitude_mul_unitScale n 0 ⟨(Nat.mul_one n).symm, by omega, by omega⟩

theorem ofNat_eq (n : Nat) (h : IsMagnitude (n * unitScale)) :
    ofNat n = finite false (n * unitScale) h := by
  have hexact := ofUnits_exact false (n * unitScale) 1 (by decide) h
  rwa [Nat.mul_one] at hexact

/-- A number within limits is finite, and its magnitude is at most the limit. -/
theorem finite_of_within (limit : Nat) (hlimit : limit < 10 ^ 15) (x : Binary64)
    (h : x.within limit = true) : ∃ s u hu, x = finite s u hu ∧ u ≤ limit * unitScale := by
  have hmagnitude := isMagnitude_whole limit hlimit
  have hlt := hmagnitude.1
  rw [within, ofNat_eq limit hmagnitude] at h
  generalize limit * unitScale = bound at hmagnitude hlt h ⊢
  cases x with
  | nan => simp [le, negate, position] at h
  | infinite s =>
    cases s <;> simp only [le, negate, position, Bool.and_eq_true, decide_eq_true_eq] at h
    all_goals
      generalize magnitudeLimit = top at h hlt
      simp at h
      omega
  | finite s u hu =>
    refine ⟨s, u, hu, rfl, ?_⟩
    cases s <;> simp [le, negate, position] at h <;> omega

theorem reread?_of_within (limit : Nat) (hlimit : limit < 10 ^ 15) (x : Binary64)
    (h : x.within limit = true) : x.reread?.isSome := by
  obtain ⟨s, u, hu, rfl, hle⟩ := finite_of_within limit hlimit x h
  have hlt : limit * unitScale < 10 ^ 15 * unitScale :=
    Nat.mul_lt_mul_of_pos_right hlimit unitScale_pos
  exact double?_unitsNumeral_isSome s u hu (Nat.lt_of_le_of_lt hle hlt)

end Binary64

namespace Coordinates

/-- A point on the globe. -/
def InRange (c : Coordinates) : Prop :=
  c.latitude.within 90 = true ∧ c.longitude.within 180 = true

instance (c : Coordinates) : Decidable c.InRange := inferInstanceAs (Decidable (_ ∧ _))

theorem reread?_isSome (c : Coordinates) (h : c.InRange) : c.reread?.isSome := by
  obtain ⟨latitude, hlatitude⟩ := Option.isSome_iff_exists.mp
    (c.latitude.reread?_of_within 90 (by decide) h.1)
  obtain ⟨longitude, hlongitude⟩ := Option.isSome_iff_exists.mp
    (c.longitude.reread?_of_within 180 (by decide) h.2)
  rw [reread?, hlatitude, hlongitude]
  rfl

end Coordinates

namespace Bounds

/-- The two corners of a box. -/
def southWest (b : Bounds) : Coordinates := ⟨b.south, b.west⟩

def northEast (b : Bounds) : Coordinates := ⟨b.north, b.east⟩

/-- A box with its corners on the globe. -/
def InRange (b : Bounds) : Prop := b.southWest.InRange ∧ b.northEast.InRange

instance (b : Bounds) : Decidable b.InRange := inferInstanceAs (Decidable (_ ∧ _))

theorem reread?_eq (b : Bounds) : b.reread? = do
    let southWest ← b.southWest.reread?
    let northEast ← b.northEast.reread?
    return ⟨southWest.latitude, southWest.longitude, northEast.latitude, northEast.longitude⟩ := by
  simp only [reread?, Coordinates.reread?, southWest, northEast, bind_assoc, pure_bind]

theorem reread?_isSome (b : Bounds) (h : b.InRange) : b.reread?.isSome := by
  obtain ⟨southWest, hsouthWest⟩ := Option.isSome_iff_exists.mp (b.southWest.reread?_isSome h.1)
  obtain ⟨northEast, hnorthEast⟩ := Option.isSome_iff_exists.mp (b.northEast.reread?_isSome h.2)
  rw [reread?_eq, hsouthWest, hnorthEast]
  rfl

theorem rereadPresent?_isSome (b : Option Bounds) (h : ∀ x ∈ b, x.InRange) :
    (rereadPresent? b).isSome := by
  cases b with
  | none => rfl
  | some b =>
    rw [rereadPresent?, Option.isSome_map]
    exact b.reread?_isSome (h b rfl)

end Bounds

namespace Address

/-- A place on the globe, with its bounds if it has any. -/
def InRange (a : Address) : Prop := a.coordinates.InRange ∧ ∀ b ∈ a.bounds, b.InRange

instance (a : Address) : Decidable a.InRange := inferInstanceAs (Decidable (_ ∧ _))

theorem reread?_isSome (a : Address) (h : a.InRange) : a.reread?.isSome := by
  obtain ⟨coordinates, hcoordinates⟩ := Option.isSome_iff_exists.mp
    (a.coordinates.reread?_isSome h.1)
  obtain ⟨bounds, hbounds⟩ := Option.isSome_iff_exists.mp
    (Bounds.rereadPresent?_isSome a.bounds h.2)
  rw [reread?, hcoordinates, hbounds]
  rfl

/-- Addresses on the globe are all read back. -/
theorem mapM_reread?_isSome (as : List Address) (h : ∀ a ∈ as, a.InRange) :
    (as.mapM reread?).isSome :=
  mapM_isSome_iff.mpr fun a ha => a.reread?_isSome (h a ha)

end Address

end Gazetteer
