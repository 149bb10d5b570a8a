import Mathlib.Algebra.Group.Nat.Defs
import Gazetteer.Text.Blank

/-!
# Texts in the order of their bytes

Texts are compared code point by code point.  In UTF-8 a later code point has more bytes or larger
ones, and no code has another as its front, so comparing byte by byte gives the same order.

    a code is a marked byte and the last digits to the base 64                 (utf8EncodeChar_eq)
    c < d → the code of c and whatever follows < the code of d and whatever follows
                                                                                (utf8EncodeChar_lt)
    bytes s < bytes t ↔ s < t                                                        (bytes_lt_iff)
-/

namespace Gazetteer.Text

open String (utf8EncodeChar)

/-- The bytes of a text in UTF-8. -/
def bytes (s : String) : List UInt8 := s.toUTF8.data.toList

theorem bytes_eq (s : String) : bytes s = s.toList.flatMap utf8EncodeChar := by
  have hencode : s.toUTF8 = s.toList.utf8Encode := by
    rw [String.toUTF8_eq_toByteArray, String.utf8Encode_toList]
  rw [bytes, hencode, List.utf8Encode, List.toList_data_toByteArray]

/-! ## One code point -/

theorem ofNat_lt_ofNat {m n : Nat} (hm : m < 256) (hn : n < 256) :
    UInt8.ofNat m < UInt8.ofNat n ↔ m < n := by
  rw [UInt8.lt_iff_toNat_lt, UInt8.toNat_ofNat_of_lt' hm, UInt8.toNat_ofNat_of_lt' hn]

/-- The last digits of a code point to the base 64, in the bytes that go on with a code. -/
def trail : Nat → Nat → List UInt8
  | 0, _ => []
  | k + 1, n => UInt8.ofNat (n / 64 ^ k % 64 + 0x80) :: trail k n

theorem trail_lt {k m n : Nat} (h : m % 64 ^ k < n % 64 ^ k) (s t : List UInt8) :
    trail k m ++ s < trail k n ++ t := by
  induction k with
  | zero =>
    rw [Nat.pow_zero, Nat.mod_one, Nat.mod_one] at h
    exact absurd h (Nat.lt_irrefl 0)
  | succ k ih =>
    rw [Nat.pow_succ, Nat.mod_mul, Nat.mod_mul] at h
    have hm : m % 64 ^ k < 64 ^ k := Nat.mod_lt _ (Nat.pow_pos (by decide))
    rw [trail, trail, List.cons_append, List.cons_append, List.cons_lt_cons_iff,
      ofNat_lt_ofNat (by omega) (by omega)]
    obtain hlt | heq | hgt := Nat.lt_trichotomy (m / 64 ^ k % 64) (n / 64 ^ k % 64)
    · exact .inl (by omega)
    · rw [heq] at h ⊢
      exact .inr ⟨rfl, ih (by omega)⟩
    · have hmore := Nat.mul_le_mul_left (64 ^ k) (Nat.succ_le_of_lt hgt)
      rw [Nat.mul_succ] at hmore
      omega

/-- What marks the first byte of a code with so many others. -/
def mark : Nat → Nat
  | 0 => 0
  | 1 => 0xc0
  | 2 => 0xe0
  | 3 => 0xf0
  | _ => 0xf8

/-- The first code point that takes so many bytes besides the first. -/
def firstWith : Nat → Nat
  | 0 => 0
  | 1 => 0x80
  | 2 => 0x800
  | 3 => 0x10000
  | _ => 0x110000

theorem utf8EncodeChar_eq (c : Char) : ∃ k < 4,
    (firstWith k ≤ c.val.toNat ∧ c.val.toNat < firstWith (k + 1)) ∧
    c.val.toNat / 64 ^ k + mark k < mark (k + 1) ∧
    utf8EncodeChar c = UInt8.ofNat (c.val.toNat / 64 ^ k + mark k) :: trail k c.val.toNat := by
  have hlimit : c.val.toNat < 0x110000 := by
    have hvalid := c.valid
    rcases hvalid with hlow | hhigh
    · exact Nat.lt_trans hlow (by decide)
    · exact hhigh.2
  unfold utf8EncodeChar
  dsimp only
  generalize c.val.toNat = n at hlimit
  split
  · refine ⟨0, by decide, by simp only [firstWith]; omega, by simp only [mark]; omega, ?_⟩
    simp only [mark, trail, Nat.pow_zero, Nat.div_one, Nat.add_zero]
  split
  · refine ⟨1, by decide, by simp only [firstWith]; omega, by simp only [mark]; omega, ?_⟩
    rw [Nat.mod_eq_of_lt (show n / 64 < 32 by omega)]
    simp only [mark, trail, Nat.pow_zero, Nat.pow_one, Nat.div_one]
  split
  · refine ⟨2, by decide, by simp only [firstWith]; omega, by simp only [mark]; omega, ?_⟩
    rw [Nat.mod_eq_of_lt (show n / 4096 < 16 by omega)]
    simp only [mark, trail, Nat.pow_zero, Nat.pow_one, Nat.div_one, Nat.reducePow]
  · refine ⟨3, by decide, by simp only [firstWith]; omega, by simp only [mark]; omega, ?_⟩
    rw [Nat.mod_eq_of_lt (show n / 262144 < 8 by omega)]
    simp only [mark, trail, Nat.pow_zero, Nat.pow_one, Nat.div_one, Nat.reducePow]

/-- The code of a later code point is larger, whatever follows. -/
theorem utf8EncodeChar_lt {c d : Char} (h : c < d) (s t : List UInt8) :
    utf8EncodeChar c ++ s < utf8EncodeChar d ++ t := by
  have hlt : c.val.toNat < d.val.toNat := h
  obtain ⟨j, hj, hcrange, hcmark, hc⟩ := utf8EncodeChar_eq c
  obtain ⟨k, hk, hdrange, hdmark, hd⟩ := utf8EncodeChar_eq d
  generalize c.val.toNat = m at *
  generalize d.val.toNat = n at *
  have hnext : ∀ k < 4, ∀ j < k, mark (j + 1) ≤ mark k ∧ firstWith (j + 1) ≤ firstWith k := by
    decide
  have hbyte : ∀ k < 4, mark (k + 1) ≤ 256 := by decide
  rw [hc, hd, List.cons_append, List.cons_append, List.cons_lt_cons_iff,
    ofNat_lt_ofNat (Nat.lt_of_lt_of_le hcmark (hbyte j hj))
      (Nat.lt_of_lt_of_le hdmark (hbyte k hk))]
  obtain hfewer | rfl | hmore := Nat.lt_trichotomy j k
  · exact .inl (Nat.lt_of_lt_of_le hcmark (Nat.le_add_left_of_le (hnext k hk j hfewer).1))
  · -- Of two codes with as many bytes the first digits that differ decide.
    have hle : m / 64 ^ j ≤ n / 64 ^ j := Nat.div_le_div_right (Nat.le_of_lt hlt)
    obtain hhead | hhead := Nat.lt_or_eq_of_le hle
    · exact .inl (Nat.add_lt_add_right hhead _)
    · refine .inr ⟨by rw [hhead], trail_lt ?_ s t⟩
      have hm := Nat.div_add_mod m (64 ^ j)
      have hn := Nat.div_add_mod n (64 ^ j)
      rw [hhead] at hm
      omega
  · have hlater := (hnext j hj k hmore).2
    omega

/-! ## Texts -/

theorem flatMap_utf8EncodeChar_lt {s t : List Char} (h : s < t) :
    s.flatMap utf8EncodeChar < t.flatMap utf8EncodeChar := by
  induction s generalizing t with
  | nil =>
    cases t with
    | nil => exact absurd h (List.not_lt_nil [])
    | cons d t =>
      obtain ⟨b, bs, hd⟩ := List.exists_cons_of_ne_nil (@String.utf8EncodeChar_ne_nil d)
      rw [List.flatMap_cons, hd]
      exact List.nil_lt_cons b _
  | cons c s ih =>
    cases t with
    | nil => exact absurd h (List.not_lt_nil _)
    | cons d t =>
      rw [List.flatMap_cons, List.flatMap_cons]
      obtain hlt | ⟨rfl, hrest⟩ := List.cons_lt_cons_iff.mp h
      · exact utf8EncodeChar_lt hlt _ _
      · exact List.append_left_lt (ih hrest)

theorem bytes_lt_iff {s t : String} : bytes s < bytes t ↔ s < t := by
  have hmono {s t : String} (h : s < t) : bytes s < bytes t := by
    rw [bytes_eq, bytes_eq]
    exact flatMap_utf8EncodeChar_lt (String.lt_iff.mp h)
  refine ⟨fun h => Classical.byContradiction fun hnot => ?_, hmono⟩
  by_cases hlater : t < s
  · exact List.lt_asymm h (hmono hlater)
  · have hsame : s = t := String.le_antisymm (String.not_lt.mp hlater) (String.not_lt.mp hnot)
    rw [hsame] at h
    exact List.lt_irrefl _ h

end Gazetteer.Text
