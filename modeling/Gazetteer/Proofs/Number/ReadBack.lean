import Gazetteer.Proofs.Number.Numeral
import Gazetteer.Proofs.Number.Rounding

/-!
# Number texts are read back

In every layout a finite double is written as a numeral, and the numeral's decimal is the shortest
one of the double up to zeros at its end.  So the number text of a double is read as the double, and
different doubles have different texts.

    (finite s u h).chars layout = (u's numeral).chars layout.exponentPlus          (chars_finite)
    ofChars? (x.chars layout) = some x                                            (ofChars?_chars)
    x.chars layout = y.chars layout ↔ x = y                                            (chars_inj)
-/

namespace Gazetteer

open Json (Numeral)

/-! ## Layouts as numerals -/

def positionalNumeral (negative keepsPoint : Bool) (digits : List Char) (before : Int) : Numeral :=
  if before ≤ 0 then ⟨negative, ['0'], some (zeros (-before).toNat ++ digits), none⟩
  else if digits.length ≤ before then
    ⟨negative, digits ++ zeros (before.toNat - digits.length),
      if keepsPoint then some ['0'] else none, none⟩
  else ⟨negative, digits.take before.toNat, some (digits.drop before.toNat), none⟩

def scientificNumeral (negative : Bool) (digits : List Char) (exponent : Int) : Numeral :=
  ⟨negative, digits.take 1, if digits.length ≤ 1 then none else some (digits.drop 1),
    some (decide (exponent < 0), Nat.toDigits 10 exponent.natAbs)⟩

/-- A decimal in a layout. -/
def Decimal.numeral (layout : Layout) (negative : Bool) (d : Decimal) : Numeral :=
  let digits := Nat.toDigits 10 d.digits
  let before := digits.length + d.exponent
  match layout.range with
  | none => positionalNumeral negative layout.keepsPoint digits before
  | some (low, high) =>
    if low < before ∧ before ≤ high then
      positionalNumeral negative layout.keepsPoint digits before
    else scientificNumeral negative digits (before - 1)

theorem unsignedChars_positionalNumeral (plus negative keepsPoint : Bool) (digits : List Char)
    (before : Int) :
    (positionalNumeral negative keepsPoint digits before).unsignedChars plus =
      positional keepsPoint digits before := by
  unfold positionalNumeral positional
  split
  · simp [Numeral.unsignedChars, Numeral.fractionChars, Numeral.exponentChars]
  split
  · cases keepsPoint <;>
      simp [Numeral.unsignedChars, Numeral.fractionChars, Numeral.exponentChars]
  · simp [Numeral.unsignedChars, Numeral.fractionChars, Numeral.exponentChars]

theorem unsignedChars_scientificNumeral (plus negative : Bool) (digits : List Char)
    (exponent : Int) :
    (scientificNumeral negative digits exponent).unsignedChars plus =
      scientific plus digits exponent := by
  unfold scientificNumeral scientific
  match digits with
  | [] => simp [Numeral.unsignedChars, Numeral.fractionChars, Numeral.exponentChars]
  | [d] => simp [Numeral.unsignedChars, Numeral.fractionChars, Numeral.exponentChars]
  | d :: r :: rest =>
    simp [Numeral.unsignedChars, Numeral.fractionChars, Numeral.exponentChars]

theorem unsignedChars_numeral (layout : Layout) (negative : Bool) (d : Decimal) :
    (d.numeral layout negative).unsignedChars layout.exponentPlus = d.chars layout := by
  unfold Decimal.numeral Decimal.chars
  cases layout.range with
  | none => exact unsignedChars_positionalNumeral ..
  | some range =>
    dsimp only
    split
    · exact unsignedChars_positionalNumeral ..
    · exact unsignedChars_scientificNumeral ..

/-! ## Their parts -/

theorem wellFormed_positionalNumeral (negative keepsPoint : Bool) (digits : List Char)
    (before : Int) (h : IsDigits digits) (hlead : digits.head? ≠ some '0') :
    (positionalNumeral negative keepsPoint digits before).WellFormed := by
  have hzeros : ∀ k, ∀ c ∈ zeros k, c.isDigit = true := fun _ _ hc => isDigit_of_mem_zeros hc
  obtain ⟨d, rest, rfl⟩ := List.exists_cons_of_ne_nil h.1
  unfold positionalNumeral
  split
  · refine ⟨isDigits_zero, .inl rfl, ?_, by simp⟩
    rintro ds ⟨⟩
    refine ⟨by simp, fun c hc => ?_⟩
    rcases List.mem_append.mp hc with hc | hc
    · exact hzeros _ c hc
    · exact h.2 c hc
  split
  · refine ⟨h.append (hzeros _), .inr hlead, ?_, by simp⟩
    intro ds hds
    cases keepsPoint with
    | true =>
      cases hds
      exact isDigits_zero
    | false => cases hds
  · next hpos hlen =>
    obtain ⟨k, hk⟩ : ∃ k, before.toNat = k + 1 := ⟨before.toNat - 1, by omega⟩
    simp only [hk]
    refine ⟨⟨by simp, fun c hc => h.2 c (List.mem_of_mem_take hc)⟩, .inr hlead, ?_, by simp⟩
    rintro ds ⟨⟩
    refine ⟨?_, fun c hc => h.2 c (List.mem_of_mem_drop hc)⟩
    intro hnil
    have := List.drop_eq_nil_iff.mp hnil
    omega

theorem wellFormed_scientificNumeral (negative : Bool) (digits : List Char) (exponent : Int)
    (h : IsDigits digits) (hlead : digits.head? ≠ some '0') :
    (scientificNumeral negative digits exponent).WellFormed := by
  obtain ⟨d, rest, rfl⟩ := List.exists_cons_of_ne_nil h.1
  refine ⟨⟨by simp [scientificNumeral], ?_⟩, .inr hlead, ?_, ?_⟩
  · exact fun c hc => h.2 c (List.mem_of_mem_take hc)
  · intro ds hds
    cases rest with
    | nil => cases hds
    | cons r rest =>
      cases hds
      exact ⟨by simp, fun c hc => h.2 c (List.mem_of_mem_drop hc)⟩
  · rintro e ⟨⟩
    exact isDigits_toDigits _

theorem wellFormed_numeral (layout : Layout) (negative : Bool) (d : Decimal) (hd : d.digits ≠ 0) :
    (d.numeral layout negative).WellFormed := by
  have h := isDigits_toDigits d.digits
  have hlead := toDigits_head d.digits hd
  unfold Decimal.numeral
  cases layout.range with
  | none => exact wellFormed_positionalNumeral _ _ _ _ h hlead
  | some range =>
    dsimp only
    split
    · exact wellFormed_positionalNumeral _ _ _ _ h hlead
    · exact wellFormed_scientificNumeral _ _ _ h hlead

/-- The parts stand for the digits, with zeros at their end made up for by the exponent.  There are
such zeros only in whole numbers, up to the place after the point. -/
theorem decimal_positionalNumeral (negative keepsPoint : Bool) (digits : List Char)
    (before : Int) :
    ∃ k : Nat, (k = 0 ∨ (k : Int) ≤ before - digits.length + 1) ∧
      (positionalNumeral negative keepsPoint digits before).decimal =
        ⟨digitsValue digits * 10 ^ k, before - digits.length - k⟩ := by
  unfold positionalNumeral
  split
  · refine ⟨0, .inl rfl, ?_⟩
    have hvalue := digitsValue_zeros_append ((-before).toNat + 1) digits
    have hzeros : zeros ((-before).toNat + 1) = '0' :: zeros (-before).toNat := rfl
    rw [hzeros, List.cons_append] at hvalue
    simp only [Numeral.decimal, Numeral.writtenExponent, Option.getD_some, List.cons_append,
      List.nil_append, hvalue, Nat.pow_zero, Nat.mul_one, Decimal.mk.injEq, true_and,
      List.length_append, length_zeros]
    omega
  split
  · cases keepsPoint with
    | true =>
      refine ⟨before.toNat - digits.length + 1, .inr (by omega), ?_⟩
      have hzeros : zeros (before.toNat - digits.length) ++ ['0'] =
          zeros (before.toNat - digits.length + 1) := List.replicate_succ'.symm
      simp only [Numeral.decimal, Numeral.writtenExponent, Option.getD_some, if_true,
        List.append_assoc, hzeros, digitsValue_append_zeros, Decimal.mk.injEq, true_and,
        List.length_singleton]
      omega
    | false =>
      refine ⟨before.toNat - digits.length, .inr (by omega), ?_⟩
      simp only [Numeral.decimal, Numeral.writtenExponent, Option.getD_none, List.append_nil,
        Bool.false_eq_true, if_false, digitsValue_append_zeros, Decimal.mk.injEq, true_and,
        List.length_nil]
      omega
  · refine ⟨0, .inl rfl, ?_⟩
    simp only [Numeral.decimal, Numeral.writtenExponent, Option.getD_some, List.take_append_drop,
      Nat.pow_zero, Nat.mul_one, Decimal.mk.injEq, true_and, List.length_drop]
    omega

theorem decimal_scientificNumeral (negative : Bool) (digits : List Char) (exponent : Int)
    (h : digits ≠ []) :
    (scientificNumeral negative digits exponent).decimal =
      ⟨digitsValue digits, exponent + 1 - digits.length⟩ := by
  have hexp : (if exponent < 0 then -(digitsValue (Nat.toDigits 10 exponent.natAbs) : Int)
      else digitsValue (Nat.toDigits 10 exponent.natAbs)) = exponent := by
    rw [digitsValue_toDigits]
    split
    · omega
    · omega
  unfold Numeral.decimal
  match digits with
  | [d] =>
    simp only [scientificNumeral, Numeral.writtenExponent, decide_eq_true_iff, hexp,
      List.take_succ_cons, List.take_zero, List.length_cons, List.length_nil, Nat.le_refl, if_true,
      Option.getD_none, List.append_nil, Decimal.mk.injEq, true_and]
    omega
  | d :: r :: rest =>
    simp only [scientificNumeral, Numeral.writtenExponent, decide_eq_true_iff, hexp,
      List.length_cons, if_neg (show ¬ rest.length + 1 + 1 ≤ 1 by omega), Option.getD_some,
      List.take_append_drop, Decimal.mk.injEq, true_and, List.length_drop]
    omega

theorem decimal_numeral (layout : Layout) (negative : Bool) (d : Decimal) :
    ∃ k : Nat, (k = 0 ∨ (k : Int) ≤ d.exponent + 1) ∧
      (d.numeral layout negative).decimal = ⟨d.digits * 10 ^ k, d.exponent - k⟩ := by
  have hpositional (keepsPoint : Bool) :
      ∃ k : Nat, (k = 0 ∨ (k : Int) ≤ d.exponent + 1) ∧
        (positionalNumeral negative keepsPoint (Nat.toDigits 10 d.digits)
          ((Nat.toDigits 10 d.digits).length + d.exponent)).decimal =
            ⟨d.digits * 10 ^ k, d.exponent - k⟩ := by
    obtain ⟨k, hzeros, hk⟩ := decimal_positionalNumeral negative keepsPoint
      (Nat.toDigits 10 d.digits) ((Nat.toDigits 10 d.digits).length + d.exponent)
    refine ⟨k, by omega, ?_⟩
    rw [hk, digitsValue_toDigits, Decimal.mk.injEq]
    omega
  unfold Decimal.numeral
  cases layout.range with
  | none => exact hpositional _
  | some range =>
    dsimp only
    split
    · exact hpositional _
    · refine ⟨0, .inl rfl, ?_⟩
      rw [decimal_scientificNumeral _ _ _ Nat.toDigits_ne_nil, digitsValue_toDigits,
        Nat.pow_zero, Nat.mul_one, Decimal.mk.injEq]
      omega

/-! ## Doubles -/

namespace Binary64

/-- A magnitude in a layout. -/
def unitsNumeral (layout : Layout) (negative : Bool) (u : Nat) : Numeral :=
  if u = 0 then ⟨negative, ['0'], if layout.keepsPoint then some ['0'] else none, none⟩
  else (shortestDecimal layout.tie u).numeral layout negative

theorem negative_unitsNumeral (layout : Layout) (negative : Bool) (u : Nat) :
    (unitsNumeral layout negative u).negative = negative := by
  unfold unitsNumeral Decimal.numeral positionalNumeral scientificNumeral
  dsimp only
  repeat' split
  all_goals rfl

theorem unsignedChars_zero (plus negative keepsPoint : Bool) :
    (Numeral.mk negative ['0'] (if keepsPoint then some ['0'] else none) none).unsignedChars plus =
      '0' :: if keepsPoint then ['.', '0'] else [] := by
  cases keepsPoint <;> rfl

theorem chars_finite (layout : Layout) (s : Bool) (u : Nat) (h : IsMagnitude u) :
    (finite s u h).chars layout = (unitsNumeral layout s u).chars layout.exponentPlus := by
  have hbody : (unitsNumeral layout s u).unsignedChars layout.exponentPlus =
      if u = 0 then '0' :: (if layout.keepsPoint then ['.', '0'] else [])
      else (shortestDecimal layout.tie u).chars layout := by
    unfold unitsNumeral
    split
    · exact unsignedChars_zero ..
    · exact unsignedChars_numeral ..
  rw [Numeral.chars, negative_unitsNumeral, hbody]
  rfl

theorem wellFormed_unitsNumeral (layout : Layout) (s : Bool) (u : Nat) (h : IsMagnitude u) :
    (unitsNumeral layout s u).WellFormed := by
  unfold unitsNumeral
  split
  · refine ⟨isDigits_zero, .inl rfl, ?_, by simp⟩
    intro ds hds
    cases hk : layout.keepsPoint with
    | true =>
      simp only [hk, if_true, Option.mem_def, Option.some.injEq] at hds
      rw [← hds]
      exact isDigits_zero
    | false => simp [hk] at hds
  · next hu => exact wellFormed_numeral _ _ _ (shortestDecimal_ne_zero layout.tie u h hu)

theorem ofDecimal_unitsNumeral (layout : Layout) (s negative : Bool) (u : Nat)
    (h : IsMagnitude u) :
    ofDecimal s (unitsNumeral layout negative u).decimal = finite s u h := by
  unfold unitsNumeral
  split
  · next hu =>
    subst hu
    have hdigits : (Numeral.mk negative ['0'] (if layout.keepsPoint then some ['0'] else none)
        none).decimal.digits = 0 := by
      cases layout.keepsPoint <;> rfl
    exact ofDecimal_zero s _ hdigits
  · next hu =>
    have hread := ofDecimal_shortestDecimal s layout.tie u h hu
    generalize shortestDecimal layout.tie u = d at hread ⊢
    obtain ⟨digits, exponent⟩ := d
    obtain ⟨k, -, hk⟩ := decimal_numeral layout negative ⟨digits, exponent⟩
    rw [hk, ofDecimal_zeros, Int.sub_add_cancel, hread]

theorem toLower_of_isDigit {c : Char} (h : c.isDigit = true) : c.toLower = c := by
  unfold Char.toLower
  unfold Char.isDigit at h
  simp only [Bool.and_eq_true, decide_eq_true_eq] at h
  rw [dif_neg]
  intro hc
  exact absurd (UInt32.le_trans hc.1 h.2) (by decide)

/-- Digits are no name of a number. -/
theorem ofUnsigned?_unitsNumeral (layout : Layout) (s : Bool) (u : Nat) (h : IsMagnitude u) :
    ofUnsigned? s ((unitsNumeral layout s u).unsignedChars layout.exponentPlus) =
      some (finite s u h) := by
  have hwf := wellFormed_unitsNumeral layout s u h
  have hread := Numeral.ofChars?_unsignedChars layout.exponentPlus _ hwf
  have hvalue := ofDecimal_unitsNumeral layout s s u h
  obtain ⟨d, rest, hwhole⟩ := List.exists_cons_of_ne_nil hwf.whole.1
  have hd : d.isDigit = true := hwf.whole.2 d (by simp [hwhole])
  have hlower := toLower_of_isDigit hd
  have hname : ∀ c, c.isDigit = false →
      ∀ l, ((unitsNumeral layout s u).unsignedChars layout.exponentPlus).map Char.toLower ≠
        c :: l := by
    intro c hc l heq
    rw [Numeral.unsignedChars, hwhole, List.cons_append, List.map_cons, List.cons.injEq,
      hlower] at heq
    rw [← heq.1, hd] at hc
    cases hc
  unfold ofUnsigned?
  dsimp only
  rw [if_neg, if_neg (hname 'n' rfl _), hread, Option.map_some, hvalue]
  rintro (heq | heq)
  · exact hname 'i' rfl _ heq
  · exact hname 'i' rfl _ heq

/-- The text of a double is read as the double, in every layout. -/
theorem ofChars?_chars (layout : Layout) (x : Binary64) : ofChars? (x.chars layout) = some x := by
  cases x with
  | nan => rfl
  | infinite s => cases s <;> rfl
  | finite s u h =>
    have hread := ofUnsigned?_unitsNumeral layout s u h
    have hwf := wellFormed_unitsNumeral layout s u h
    rw [chars_finite, Numeral.chars, negative_unitsNumeral]
    cases s with
    | true => exact hread
    | false =>
      simp only [Bool.false_eq_true, if_false]
      unfold ofChars?
      split
      · next t heq => exact absurd (Numeral.digits_head hwf.whole heq) (by decide)
      · next t heq => exact absurd (Numeral.digits_head hwf.whole heq) (by decide)
      · exact hread

theorem chars_inj (layout : Layout) {x y : Binary64} : x.chars layout = y.chars layout ↔ x = y := by
  constructor
  · intro h
    have hx := ofChars?_chars layout x
    rw [h, ofChars?_chars layout y] at hx
    exact (Option.some.inj hx).symm
  · rintro rfl
    rfl

/-- The characters of number texts beside digits. -/
def marks : List Char := ['-', '+', '.', 'e', 'N', 'a', 'i', 'n', 'f']

theorem mem_chars {layout : Layout} {x : Binary64} {c : Char} (h : c ∈ x.chars layout) :
    c.isDigit = true ∨ c ∈ marks := by
  cases x with
  | nan => exact .inr ((by decide : ['N', 'a', 'N'] ⊆ marks) h)
  | infinite s =>
    cases s with
    | true => exact .inr ((by decide : ['-', 'i', 'n', 'f'] ⊆ marks) h)
    | false => exact .inr ((by decide : ['i', 'n', 'f'] ⊆ marks) h)
  | finite s u hu =>
    rw [chars_finite] at h
    exact (Numeral.mem_chars (wellFormed_unitsNumeral layout s u hu) h).imp_right
      fun hmark => (by decide : ['-', '+', '.', 'e'] ⊆ marks) hmark

theorem comma_not_mem_chars (layout : Layout) (x : Binary64) : ',' ∉ x.chars layout := by
  intro h
  have hmark := mem_chars h
  revert hmark
  decide

theorem space_not_mem_chars (layout : Layout) (x : Binary64) : ' ' ∉ x.chars layout := by
  intro h
  have hmark := mem_chars h
  revert hmark
  decide

end Binary64

end Gazetteer
