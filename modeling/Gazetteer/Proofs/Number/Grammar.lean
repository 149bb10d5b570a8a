import Gazetteer.Proofs.Number.Overflow

/-!
# The grammar of number texts

What a text has to look like to be a number, and which number it is:

    number      = sign? (digits | name)
    digits      = significand exponent?
    significand = digit+ | digit+ '.' digit* | digit* '.' digit+
    exponent    = ('e' | 'E') sign? digit+
    name        = 'inf' | 'infinity' | 'nan', in any case

Digits denote the double nearest to the number that they are written for.  The reader of number
texts takes these texts and no others, and gives the doubles that they denote.

    readExponent s = some k ↔ Exponent s k                              (readExponent_eq_some_iff)
    Decimal.ofChars? s = some d ↔ Digits s d                        (decimal_ofChars?_eq_some_iff)
    Binary64.ofChars? s = some x ↔ Denotes s x                              (ofChars?_eq_some_iff)
    Binary64.ofText text = .ok x ↔ Denotes text.toList x                        (ofText_eq_ok_iff)
-/

namespace Gazetteer.NumberText

/-! ## The grammar -/

/-- A sign, or none; whether it is that of negative numbers. -/
inductive Sign : List Char → Bool → Prop where
  | absent : Sign [] false
  | plus : Sign ['+'] false
  | minus : Sign ['-'] true

/-- Digits with at most one point, which has a digit on one of its sides at least. -/
inductive Significand : List Char → Decimal → Prop where
  | whole {ds : List Char} (h : IsDigits ds) : Significand ds ⟨digitsValue ds, 0⟩
  | pointed {whole fraction : List Char} (hwhole : ∀ c ∈ whole, c.isDigit = true)
      (hfraction : ∀ c ∈ fraction, c.isDigit = true) (h : whole ≠ [] ∨ fraction ≠ []) :
      Significand (whole ++ '.' :: fraction) ⟨digitsValue (whole ++ fraction), -fraction.length⟩

/-- An exponent, or none. -/
inductive Exponent : List Char → Int → Prop where
  | absent : Exponent [] 0
  | present {mark : Char} {sign ds : List Char} {negative : Bool} (hmark : mark = 'e' ∨ mark = 'E')
      (hsign : Sign sign negative) (hds : IsDigits ds) :
      Exponent (mark :: (sign ++ ds)) (if negative then -(digitsValue ds : Int) else digitsValue ds)

/-- A significand and its exponent. -/
inductive Digits : List Char → Decimal → Prop where
  | mk {significand exponent : List Char} {d : Decimal} {k : Int}
      (hsignificand : Significand significand d) (hexponent : Exponent exponent k) :
      Digits (significand ++ exponent) ⟨d.digits, d.exponent + k⟩

/-- A number text after its sign, and its double with either sign. -/
inductive Unsigned : List Char → (Bool → Binary64) → Prop where
  | digits {s : List Char} {d : Decimal} (h : Digits s d) :
      Unsigned s fun negative => .ofDecimal negative d
  | infinity {s : List Char} (h : s.map Char.toLower = ['i', 'n', 'f'] ∨
      s.map Char.toLower = ['i', 'n', 'f', 'i', 'n', 'i', 't', 'y']) : Unsigned s .infinite
  | nan {s : List Char} (h : s.map Char.toLower = ['n', 'a', 'n']) : Unsigned s fun _ => .nan

/-- The double that a text denotes. -/
inductive Denotes : List Char → Binary64 → Prop where
  | mk {sign body : List Char} {negative : Bool} {value : Bool → Binary64}
      (hsign : Sign sign negative) (hbody : Unsigned body value) :
      Denotes (sign ++ body) (value negative)

/-! ## Exponents -/

theorem Exponent.noDigit {s : List Char} {k : Int} (h : Exponent s k) : NoDigit s := by
  cases h with
  | absent => exact noDigit_nil
  | present hmark => rcases hmark with rfl | rfl <;> exact noDigit_cons _ rfl

theorem readExponent_eq_some_iff {s : List Char} {k : Int} :
    readExponent s = some k ↔ Exponent s k := by
  constructor
  · intro h
    unfold readExponent at h
    split at h
    · cases h
      exact .absent
    next mark t =>
    split at h
    · next hmark =>
      split at h
      · next ds =>
        obtain ⟨hds, h⟩ := Option.ite_none_right_eq_some.mp h
        cases h
        exact .present hmark .minus ⟨hds.1, List.all_eq_true.mp hds.2⟩
      · next ds =>
        obtain ⟨hds, h⟩ := Option.ite_none_right_eq_some.mp h
        cases h
        exact .present hmark .plus ⟨hds.1, List.all_eq_true.mp hds.2⟩
      · obtain ⟨hds, h⟩ := Option.ite_none_right_eq_some.mp h
        cases h
        exact .present hmark .absent ⟨hds.1, List.all_eq_true.mp hds.2⟩
    · cases h
  · intro h
    cases h with
    | absent => rfl
    | present hmark hsign hds =>
      next ds _ =>
      have hok : ds ≠ [] ∧ ds.all Char.isDigit = true := ⟨hds.1, List.all_eq_true.mpr hds.2⟩
      unfold readExponent
      cases hsign with
      | minus => simp [hmark, hok]
      | plus => simp [hmark, hok]
      | absent =>
        have hhead : ds ++ [] = ds := List.append_nil ds
        rw [List.nil_append]
        dsimp only
        rw [if_pos hmark]
        split
        · exact absurd (Json.Numeral.digits_head hds hhead) (by decide)
        · exact absurd (Json.Numeral.digits_head hds hhead) (by decide)
        · exact if_pos hok

/-! ## Digits -/

theorem isDigit_of_mem_takeWhile {s : List Char} :
    ∀ c ∈ s.takeWhile Char.isDigit, c.isDigit = true :=
  List.all_eq_true.mp List.all_takeWhile

theorem digits_of_ofChars? {s : List Char} {d : Decimal} (h : Decimal.ofChars? s = some d) :
    Digits s d := by
  have hs : s.takeWhile Char.isDigit ++ s.dropWhile Char.isDigit = s :=
    List.takeWhile_append_dropWhile
  unfold Decimal.ofChars? at h
  generalize hwhole : s.takeWhile Char.isDigit = whole at h hs
  have hdigits : ∀ c ∈ whole, c.isDigit = true := hwhole ▸ isDigit_of_mem_takeWhile
  dsimp only at h
  split at h
  · next t hrest =>
    obtain ⟨hsome, h⟩ := Option.ite_none_left_eq_some.mp h
    obtain ⟨k, hk, rfl⟩ := Option.map_eq_some_iff.mp h
    have hvalue : Decimal.mk (digitsValue (whole ++ t.takeWhile Char.isDigit))
        (k - (t.takeWhile Char.isDigit).length) =
        ⟨digitsValue (whole ++ t.takeWhile Char.isDigit),
          -((t.takeWhile Char.isDigit).length : Int) + k⟩ := by
      congr 1
      omega
    have htext : s = whole ++ '.' :: t.takeWhile Char.isDigit ++ t.dropWhile Char.isDigit := by
      rw [← hs, hrest, List.append_assoc, List.cons_append, List.takeWhile_append_dropWhile]
    rw [hvalue, htext]
    have hside := Decidable.not_and_iff_not_or_not.mp hsome
    exact .mk (.pointed hdigits isDigit_of_mem_takeWhile hside)
      (readExponent_eq_some_iff.mp hk)
  · obtain ⟨hsome, h⟩ := Option.ite_none_left_eq_some.mp h
    obtain ⟨k, hk, rfl⟩ := Option.map_eq_some_iff.mp h
    have hne : whole ≠ [] := fun hnil => hsome ⟨hnil, rfl⟩
    have hvalue : Decimal.mk (digitsValue (whole ++ [])) (k - ([] : List Char).length) =
        ⟨digitsValue whole, 0 + k⟩ := by
      rw [List.append_nil, List.length_nil]
      congr 1
      omega
    rw [hvalue, ← hs]
    exact .mk (.whole ⟨hne, hdigits⟩) (readExponent_eq_some_iff.mp hk)

theorem ofChars?_of_digits {s : List Char} {d : Decimal} (h : Digits s d) :
    Decimal.ofChars? s = some d := by
  obtain ⟨hsignificand, hexponent⟩ := h
  next significand exponent d k =>
  have hend := hexponent.noDigit
  have hread := readExponent_eq_some_iff.mpr hexponent
  unfold Decimal.ofChars?
  cases hsignificand with
  | whole hds =>
    rw [Text.takeWhile_append_stop _ hend hds.2, Text.dropWhile_append_stop _ hend hds.2]
    cases hexponent with
    | absent => simp [readExponent, hds.1]
    | present hmark =>
      rcases hmark with rfl | rfl <;> simp [hread, hds.1]
  | pointed hwhole hfraction hsome =>
    next whole fraction =>
    have hpoint : NoDigit ('.' :: (fraction ++ exponent)) := noDigit_cons _ rfl
    rw [List.append_assoc, List.cons_append, Text.takeWhile_append_stop _ hpoint hwhole,
      Text.dropWhile_append_stop _ hpoint hwhole]
    simp only [Text.takeWhile_append_stop _ hend hfraction,
      Text.dropWhile_append_stop _ hend hfraction]
    rw [if_neg (Decidable.not_and_iff_not_or_not.mpr hsome), hread]
    simp only [Option.map_some, Option.some.injEq, Decimal.mk.injEq, true_and]
    omega

theorem decimal_ofChars?_eq_some_iff {s : List Char} {d : Decimal} :
    Decimal.ofChars? s = some d ↔ Digits s d := ⟨digits_of_ofChars?, ofChars?_of_digits⟩

/-! ## Numbers -/

theorem ofUnsigned?_eq_some_iff {s : List Char} {negative : Bool} {x : Binary64} :
    Binary64.ofUnsigned? negative s = some x ↔ ∃ value, Unsigned s value ∧ x = value negative := by
  unfold Binary64.ofUnsigned?
  dsimp only
  constructor
  · intro h
    split at h
    · next hname =>
      cases h
      exact ⟨_, .infinity hname, rfl⟩
    split at h
    · next hname =>
      cases h
      exact ⟨_, .nan hname, rfl⟩
    · obtain ⟨d, hd, rfl⟩ := Option.map_eq_some_iff.mp h
      exact ⟨_, .digits (decimal_ofChars?_eq_some_iff.mp hd), rfl⟩
  · rintro ⟨value, hvalue, rfl⟩
    cases hvalue with
    | infinity h => exact if_pos h
    | nan h =>
      rw [if_neg (by rw [h]; decide), if_pos h]
    | digits h =>
      have hread := decimal_ofChars?_eq_some_iff.mpr h
      -- Digits are no name, as the names have no digits.
      have hname (c : Char) (rest : List Char) (hc : c.isDigit = false) (hdot : c ≠ '.') :
          s.map Char.toLower ≠ c :: rest := by
        intro heq
        rw [Decimal.ofChars?_name heq hc hdot] at hread
        cases hread
      rw [if_neg (not_or.mpr ⟨hname _ _ rfl (by decide), hname _ _ rfl (by decide)⟩),
        if_neg (hname _ _ rfl (by decide)), hread]
      rfl

/-- No sign stands at the front of a number text after its sign. -/
theorem Unsigned.head {s : List Char} {value : Bool → Binary64} (h : Unsigned s value)
    (t : List Char) : s ≠ '-' :: t ∧ s ≠ '+' :: t := by
  have hread : Binary64.ofUnsigned? false s ≠ none := by
    rw [ofUnsigned?_eq_some_iff.mpr ⟨value, h, rfl⟩]
    exact Option.some_ne_none _
  have hnone (c : Char) (hc : c = '-' ∨ c = '+') : Binary64.ofUnsigned? false (c :: t) = none := by
    rcases hc with rfl | rfl <;> simp [Binary64.ofUnsigned?, Decimal.ofChars?]
  constructor
  · rintro rfl
    exact hread (hnone _ (.inl rfl))
  · rintro rfl
    exact hread (hnone _ (.inr rfl))

/-- The reader of number texts has a grammar.  It reads a text if and only if the text denotes a
double, and then as this double. -/
theorem ofChars?_eq_some_iff {s : List Char} {x : Binary64} :
    Binary64.ofChars? s = some x ↔ Denotes s x := by
  constructor
  · intro h
    unfold Binary64.ofChars? at h
    split at h
    · obtain ⟨value, hvalue, rfl⟩ := ofUnsigned?_eq_some_iff.mp h
      exact .mk .minus hvalue
    · obtain ⟨value, hvalue, rfl⟩ := ofUnsigned?_eq_some_iff.mp h
      exact .mk .plus hvalue
    · obtain ⟨value, hvalue, rfl⟩ := ofUnsigned?_eq_some_iff.mp h
      exact .mk .absent hvalue
  · rintro ⟨hsign, hbody⟩
    next body _ value =>
    have hread (negative : Bool) : Binary64.ofUnsigned? negative body = some (value negative) :=
      ofUnsigned?_eq_some_iff.mpr ⟨value, hbody, rfl⟩
    cases hsign with
    | minus => exact hread true
    | plus => exact hread false
    | absent =>
      rw [List.nil_append]
      unfold Binary64.ofChars?
      split
      · exact absurd rfl (hbody.head _).1
      · exact absurd rfl (hbody.head _).2
      · exact hread false

/-! ## Number texts -/

/-- The text of some double. -/
def IsNumber (text : String) : Prop := ∃ x, Denotes text.toList x

theorem ofText_eq_ok_iff {text : String} {x : Binary64} :
    Binary64.ofText text = .ok x ↔ Denotes text.toList x := by
  rw [← ofChars?_eq_some_iff]
  unfold Binary64.ofText
  split
  · next hempty =>
    rw [String.isEmpty_iff.mp hempty]
    exact ⟨nofun, nofun⟩
  · cases Binary64.ofChars? text.toList <;> simp

theorem ofText_eq_error {text : String} (h : ¬ IsNumber text) :
    Binary64.ofText text = .error (if text = "" then .empty else .invalid) := by
  have hnone : Binary64.ofChars? text.toList = none :=
    Option.eq_none_iff_forall_ne_some.mpr fun x hx => h ⟨x, ofChars?_eq_some_iff.mp hx⟩
  unfold Binary64.ofText
  rw [hnone]
  by_cases hempty : text = ""
  · rw [if_pos hempty, hempty]
    rfl
  · rw [if_neg hempty, if_neg (by simpa using hempty)]

end Gazetteer.NumberText
