import Mathlib.Algebra.Group.Nat.Defs
import Gazetteer.Json.Numeral
import Gazetteer.Proofs.Text.Split

/-!
# Numerals and their texts

A numeral is written part by part: sign, whole digits, point and fraction, exponent.  What is
written is read back, by the reader of documents up to a character that cannot go on with a number,
and by the reader of number texts as the decimal that the parts stand for.

    read? (n.chars plus ++ rest) = some (n, rest)                         (read?_chars)
    Decimal.ofChars? (n.unsignedChars plus) = some n.decimal              (ofChars?_unsignedChars)
-/

namespace Gazetteer

/-! ## Runs of digits -/

/-- At least one digit. -/
def IsDigits (ds : List Char) : Prop := ds ≠ [] ∧ ∀ c ∈ ds, c.isDigit = true

/-- What follows does not begin with a digit. -/
def NoDigit (rest : List Char) : Prop := ∀ c ∈ rest.head?, c.isDigit = false

theorem noDigit_nil : NoDigit [] := by simp [NoDigit]

theorem noDigit_cons {c : Char} (rest : List Char) (h : c.isDigit = false) :
    NoDigit (c :: rest) := by
  simpa [NoDigit] using h

theorem isDigits_toDigits (n : Nat) : IsDigits (Nat.toDigits 10 n) :=
  ⟨Nat.toDigits_ne_nil, fun _ hc => Nat.isDigit_of_mem_toDigits (by decide) (by decide) hc⟩

theorem IsDigits.append {ds es : List Char} (h : IsDigits ds) (h' : ∀ c ∈ es, c.isDigit = true) :
    IsDigits (ds ++ es) := by
  refine ⟨by simp [h.1], fun c hc => ?_⟩
  rcases List.mem_append.mp hc with hc | hc
  · exact h.2 c hc
  · exact h' c hc

/-- The first digit of a number is no superfluous zero. -/
theorem toDigits_head (n : Nat) (hn : n ≠ 0) : (Nat.toDigits 10 n).head? ≠ some '0' := by
  induction n using Nat.strongRecOn with
  | ind n ih =>
    by_cases h : n < 10
    · rw [Nat.toDigits_of_lt_base h]
      have hdigit : ∀ k < 10, k ≠ 0 → [Nat.digitChar k].head? ≠ some '0' := by decide
      exact hdigit n h hn
    · have hlt : n / 10 < n := by omega
      have hpos : n / 10 ≠ 0 := by omega
      rw [Nat.toDigits_of_base_le (by decide) (by omega)]
      have hrec := ih (n / 10) hlt hpos
      cases hds : Nat.toDigits 10 (n / 10) with
      | nil => exact absurd hds Nat.toDigits_ne_nil
      | cons d ds =>
        rw [hds] at hrec
        exact hrec

/-- The digits are those of a number, after as many zeros as the width asks for. -/
structure IsPadded (width n : Nat) (ds : List Char) : Prop where
  digits : ∀ c ∈ ds, c.isDigit = true
  value : digitsValue ds = n
  length : ds.length = width ∨ width < ds.length ∧ ds.head? ≠ some '0'

theorem digitsValue_eq (ds : List Char) : digitsValue ds = Nat.ofDigitChars 10 ds 0 :=
  Nat.ofDigitChars_eq_foldl.symm

theorem digitsValue_toDigits (n : Nat) : digitsValue (Nat.toDigits 10 n) = n := by
  rw [digitsValue_eq, Nat.ofDigitChars_ten_toDigits]

theorem digitsValue_zeros_append (k : Nat) (ds : List Char) :
    digitsValue (zeros k ++ ds) = digitsValue ds := by
  rw [digitsValue_eq, digitsValue_eq, zeros, Nat.ofDigitChars_append,
    Nat.ofDigitChars_replicate_zero, Nat.mul_zero]

theorem digitsValue_append_zeros (ds : List Char) (k : Nat) :
    digitsValue (ds ++ zeros k) = digitsValue ds * 10 ^ k := by
  rw [digitsValue_eq, digitsValue_eq, zeros, Nat.ofDigitChars_append,
    Nat.ofDigitChars_replicate_zero, Nat.mul_comm]

theorem isDigits_zero : IsDigits ['0'] := by
  refine ⟨by decide, fun c hc => ?_⟩
  rw [List.mem_singleton.mp hc]
  rfl

theorem length_zeros (k : Nat) : (zeros k).length = k := List.length_replicate

theorem isDigit_of_mem_zeros {k : Nat} {c : Char} (h : c ∈ zeros k) : c.isDigit = true := by
  rw [List.eq_of_mem_replicate h]
  rfl

/-- No zero is put before a number that is wide enough. -/
theorem isPadded_zeros_toDigits {width : Nat} (hwidth : 0 < width) (n : Nat) :
    IsPadded width n (zeros (width - (Nat.toDigits 10 n).length) ++ Nat.toDigits 10 n) where
  digits c hc := by
    rcases List.mem_append.mp hc with hc | hc
    · exact isDigit_of_mem_zeros hc
    · exact (isDigits_toDigits n).2 c hc
  value := (digitsValue_zeros_append _ _).trans (digitsValue_toDigits n)
  length := by
    rw [List.length_append, zeros, List.length_replicate]
    by_cases hwide : width < (Nat.toDigits 10 n).length
    · have hn : n ≠ 0 := by
        rintro rfl
        rw [Nat.toDigits_zero, List.length_singleton] at hwide
        omega
      have hzeros : width - (Nat.toDigits 10 n).length = 0 := by omega
      rw [hzeros, List.replicate_zero, List.nil_append]
      exact .inr ⟨by omega, toDigits_head n hn⟩
    · exact .inl (by omega)

namespace Json.Numeral

/-! ## Writing -/

/-- The fraction with its point. -/
def fractionChars : Option (List Char) → List Char
  | none => []
  | some ds => '.' :: ds

/-- The exponent; `plus` says whether a positive one has a sign. -/
def exponentChars (plus : Bool) : Option (Bool × List Char) → List Char
  | none => []
  | some (negative, ds) => 'e' :: (if negative then ['-'] else if plus then ['+'] else []) ++ ds

/-- The text of a numeral after its sign. -/
def unsignedChars (plus : Bool) (n : Numeral) : List Char :=
  n.whole ++ (fractionChars n.fraction ++ exponentChars plus n.exponent)

/-- The text of a numeral. -/
def chars (plus : Bool) (n : Numeral) : List Char :=
  if n.negative then '-' :: n.unsignedChars plus else n.unsignedChars plus

/-- The parts are digits, and the whole ones have no superfluous zero in front. -/
structure WellFormed (n : Numeral) : Prop where
  whole : IsDigits n.whole
  lead : n.whole = ['0'] ∨ n.whole.head? ≠ some '0'
  fraction : ∀ ds ∈ n.fraction, IsDigits ds
  exponent : ∀ e ∈ n.exponent, IsDigits e.2

/-- The characters of numerals. -/
theorem mem_chars {plus : Bool} {n : Numeral} (h : n.WellFormed) {c : Char}
    (hc : c ∈ n.chars plus) : c.isDigit = true ∨ c ∈ ['-', '+', '.', 'e'] := by
  obtain ⟨negative, whole, fraction, exponent⟩ := n
  have hunsigned : c ∈ unsignedChars plus ⟨negative, whole, fraction, exponent⟩ →
      c.isDigit = true ∨ c ∈ ['-', '+', '.', 'e'] := by
    intro hc
    rcases List.mem_append.mp hc with hc | hc
    · exact .inl (h.whole.2 c hc)
    rcases List.mem_append.mp hc with hc | hc
    · cases fraction with
      | none => cases hc
      | some ds =>
        rcases List.mem_cons.mp hc with rfl | hc
        · simp
        · exact .inl ((h.fraction ds rfl).2 c hc)
    · cases exponent with
      | none => cases hc
      | some e =>
        obtain ⟨sign, ds⟩ := e
        rcases List.mem_cons.mp hc with rfl | hc
        · simp
        rcases List.mem_append.mp hc with hc | hc
        · right
          cases sign <;> cases plus <;> simp_all
        · exact .inl ((h.exponent (sign, ds) rfl).2 c hc)
  cases negative with
  | true =>
    rcases List.mem_cons.mp hc with rfl | hc
    · simp
    · exact hunsigned hc
  | false => exact hunsigned hc

/-- The decimal that the parts stand for. -/
def decimal (n : Numeral) : Decimal :=
  ⟨digitsValue (n.whole ++ n.fraction.getD []),
    n.writtenExponent - ((n.fraction.getD []).length : Int)⟩

/-! ## Reading in documents -/

/-- What follows cannot go on with a number. -/
def Ends (rest : List Char) : Prop :=
  ∀ c ∈ rest.head?, c.isDigit = false ∧ c ≠ '.' ∧ c ≠ 'e' ∧ c ≠ 'E'

theorem Ends.noDigit {rest : List Char} (h : Ends rest) : NoDigit rest := fun c hc => (h c hc).1

theorem noDigit_exponentChars (plus : Bool) (e : Option (Bool × List Char)) (rest : List Char)
    (hrest : NoDigit rest) : NoDigit (exponentChars plus e ++ rest) := by
  cases e with
  | none => exact hrest
  | some e => exact noDigit_cons _ rfl

theorem noDigit_fractionChars (f : Option (List Char)) (rest : List Char) (hrest : NoDigit rest) :
    NoDigit (fractionChars f ++ rest) := by
  cases f with
  | none => exact hrest
  | some ds => exact noDigit_cons _ rfl

theorem readDigits?_append (ds rest : List Char) (h : IsDigits ds) (hrest : NoDigit rest) :
    readDigits? (ds ++ rest) = some (ds, rest) := by
  unfold readDigits?
  rw [Text.takeWhile_append_stop ds hrest h.2, Text.dropWhile_append_stop ds hrest h.2]
  exact if_neg h.1

theorem readWhole?_append (ds rest : List Char) (h : IsDigits ds)
    (hlead : ds = ['0'] ∨ ds.head? ≠ some '0') (hrest : NoDigit rest) :
    readWhole? (ds ++ rest) = some (ds, rest) := by
  unfold readWhole?
  rw [readDigits?_append ds rest h hrest]
  split
  · next hds =>
    simp only [Option.some.injEq, Prod.mk.injEq] at hds
    rw [hds.1] at hlead
    simp at hlead
  · rfl

theorem readFraction?_append (f : Option (List Char)) (rest : List Char)
    (h : ∀ ds ∈ f, IsDigits ds) (hrest : NoDigit rest) (hdot : rest.head? ≠ some '.') :
    readFraction? (fractionChars f ++ rest) = some (f, rest) := by
  cases f with
  | none =>
    rw [fractionChars, List.nil_append, readFraction?]
    intro s hs
    rw [hs] at hdot
    exact hdot rfl
  | some ds =>
    rw [fractionChars, List.cons_append, readFraction?, readDigits?_append ds rest (h ds rfl) hrest]
    rfl

/-- A sign in front of digits is told from them. -/
theorem digits_head {ds rest : List Char} (h : IsDigits ds) {c : Char} {s : List Char}
    (heq : ds ++ rest = c :: s) : c.isDigit = true := by
  cases ds with
  | nil => exact absurd rfl h.1
  | cons d ds =>
    rw [List.cons_append, List.cons.injEq] at heq
    rw [← heq.1]
    exact h.2 d (by simp)

theorem readExponent?_append (plus : Bool) (e : Option (Bool × List Char)) (rest : List Char)
    (h : ∀ p ∈ e, IsDigits p.2) (hrest : Ends rest) :
    readExponent? (exponentChars plus e ++ rest) = some (e, rest) := by
  cases e with
  | none =>
    cases rest with
    | nil => rfl
    | cons c rest =>
      have hc := hrest c rfl
      unfold exponentChars readExponent?
      exact if_neg (by simp [hc.2.2])
  | some p =>
    obtain ⟨negative, ds⟩ := p
    have hds := h (negative, ds) rfl
    have hread := readDigits?_append ds rest hds hrest.noDigit
    unfold exponentChars readExponent?
    cases negative with
    | true => simp [hread]
    | false =>
      cases plus with
      | true => simp [hread]
      | false =>
        simp only [List.cons_append, List.nil_append, Bool.false_eq_true, if_false, true_or,
          if_true]
        split
        · next t heq => exact absurd (digits_head hds heq) (by decide)
        · next t heq => exact absurd (digits_head hds heq) (by decide)
        · rw [hread]
          rfl

/-- A numeral is read as it is written. -/
theorem read?_chars (plus : Bool) (n : Numeral) (h : n.WellFormed) (rest : List Char)
    (hrest : Ends rest) : read? (n.chars plus ++ rest) = some (n, rest) := by
  obtain ⟨negative, whole, fraction, exponent⟩ := n
  have hexp := readExponent?_append plus exponent rest h.exponent hrest
  have hnoexp := noDigit_exponentChars plus exponent rest hrest.noDigit
  have hdot : (exponentChars plus exponent ++ rest).head? ≠ some '.' := by
    cases exponent with
    | none =>
      intro hd
      exact (hrest '.' hd).2.1 rfl
    | some e => simp [exponentChars]
  have hfrac := readFraction?_append fraction _ h.fraction hnoexp hdot
  have hwhole := readWhole?_append whole _ h.whole h.lead (noDigit_fractionChars fraction _ hnoexp)
  unfold read? chars unsignedChars
  cases negative with
  | true =>
    simp only [if_true, List.cons_append, List.append_assoc, hwhole, Option.bind_eq_bind,
      Option.bind_some, hfrac, hexp]
    rfl
  | false =>
    simp only [Bool.false_eq_true, if_false, List.append_assoc]
    split
    · next t heq => exact absurd (digits_head h.whole heq) (by decide)
    · simp only [hwhole, Option.bind_eq_bind, Option.bind_some, hfrac, hexp]
      rfl

/-! ## Reading number texts -/

theorem readExponent_exponentChars (plus : Bool) (n : Numeral)
    (h : ∀ e ∈ n.exponent, IsDigits e.2) :
    readExponent (exponentChars plus n.exponent) = some n.writtenExponent := by
  obtain ⟨sign, whole, fraction, exponent⟩ := n
  cases exponent with
  | none => rfl
  | some e =>
    obtain ⟨negative, ds⟩ := e
    have hds : IsDigits ds := h (negative, ds) rfl
    have hok : ds ≠ [] ∧ ds.all Char.isDigit = true := ⟨hds.1, List.all_eq_true.mpr hds.2⟩
    unfold exponentChars readExponent writtenExponent
    cases negative with
    | true => simp [hok]
    | false =>
      cases plus with
      | true => simp [hok]
      | false =>
        simp only [List.cons_append, List.nil_append, Bool.false_eq_true, if_false, true_or,
          if_true]
        have hhead : ds ++ [] = ds := List.append_nil ds
        split
        · next t => exact absurd (digits_head hds hhead) (by decide)
        · next t => exact absurd (digits_head hds hhead) (by decide)
        · exact if_pos hok

/-- A numeral is a number text of its decimal. -/
theorem ofChars?_unsignedChars (plus : Bool) (n : Numeral) (h : n.WellFormed) :
    Decimal.ofChars? (n.unsignedChars plus) = some n.decimal := by
  have hexp := readExponent_exponentChars plus n h.exponent
  have hend : NoDigit (exponentChars plus n.exponent) := by
    rw [← List.append_nil (exponentChars plus n.exponent)]
    exact noDigit_exponentChars plus n.exponent [] noDigit_nil
  have hfrac := noDigit_fractionChars n.fraction _ hend
  unfold Decimal.ofChars? unsignedChars
  rw [Text.takeWhile_append_stop _ hfrac h.whole.2, Text.dropWhile_append_stop _ hfrac h.whole.2]
  cases hf : n.fraction with
  | none =>
    cases he : n.exponent with
    | none => simp [he, fractionChars, exponentChars, readExponent, h.whole.1, decimal, hf,
        writtenExponent]
    | some e =>
      rw [he, exponentChars, List.cons_append] at hexp
      simp [fractionChars, exponentChars, hexp, h.whole.1, decimal, hf]
  | some ds =>
    have hds := h.fraction ds hf
    simp only [fractionChars, List.cons_append]
    rw [Text.takeWhile_append_stop _ hend hds.2, Text.dropWhile_append_stop _ hend hds.2,
      if_neg (by simp [h.whole.1]), hexp]
    simp [decimal, hf]

end Json.Numeral

end Gazetteer
