import Gazetteer.Proofs.Json.ReadBack

/-!
# Documents with more behind them

A reader stops where the value ends, so what it takes from a text it takes from the text with more
behind it.  Only a number at the very end of the text may go on.  A document in brackets is
therefore read as the array of that one document, and if the array has a value, so has the document:
it lies one level less deep.  A text that is cut off before its end is not read as an object, since
the whole text would have more behind that object then.

    GoesOn read more stops: the reader takes from s ++ more what it takes from s
    Tree.ofText? text = some t → Tree.ofText? ("[" ++ text ++ "]") = some (.array [t])
                                                                               (ofText?_brackets)
    (Tree.array [t]).value? is there → t.value? is there                      (value?_of_brackets)
    a table's text without its end is not read as a table                   (not_holdsTexts_cut)
-/

namespace Gazetteer.Json

open Text (dropWhile_append_next takeWhile_append_next)

/-- What a reader takes from a text it takes from the text with more behind it.  Where it takes the
whole text, `more` has to be such that it stops there. -/
def GoesOn {α : Type} (read : List Char → Option (α × List Char)) (more : List Char)
    (stops : Prop) : Prop :=
  ∀ s a rest, read s = some (a, rest) → (rest = [] → stops) →
    read (s ++ more) = some (a, rest ++ more)

namespace GoesOn

variable {α β : Type} {read : List Char → Option (α × List Char)} {more : List Char} {stops : Prop}

theorem map (h : GoesOn read more stops) (f : α → β) :
    GoesOn (fun s => (read s).map fun (a, rest) => (f a, rest)) more stops := by
  intro s b rest hread hstops
  obtain ⟨⟨a, _⟩, ha, heq⟩ := Option.map_eq_some_iff.mp hread
  cases heq
  dsimp only
  rw [h _ _ _ ha hstops]
  rfl

theorem mono {stops' : Prop} (h : GoesOn read more stops) (himp : stops' → stops) :
    GoesOn read more stops' :=
  fun s a rest hread hstops => h s a rest hread fun hrest => himp (hstops hrest)

end GoesOn

/-! ## Strings -/

theorem goesOn_readPieces? (more : List Char) : GoesOn readPieces? more True := by
  intro s pieces rest h hstops
  clear hstops
  induction s using readPieces?.induct generalizing pieces rest with
  | case1 => cases h
  | case2 s =>
    cases h
    rfl
  | case3 a b c d s ih =>
    rw [readPieces?] at h
    obtain ⟨n, hn, h⟩ := Option.bind_eq_some_iff.mp h
    obtain ⟨⟨_, _⟩, hrest, h⟩ := Option.bind_eq_some_iff.mp h
    cases h
    simp only [List.cons_append]
    rw [readPieces?, hn, ih _ _ hrest]
    rfl
  | case4 e s hcode ih =>
    rw [readPieces?.eq_4 _ _ hcode] at h
    obtain ⟨c, hc, h⟩ := Option.bind_eq_some_iff.mp h
    obtain ⟨⟨_, _⟩, hrest, h⟩ := Option.bind_eq_some_iff.mp h
    cases h
    have hletter : e ≠ 'u' := by
      rintro rfl
      cases hc
    rw [List.cons_append, List.cons_append,
      readPieces?.eq_4 _ _ fun _ _ _ _ _ hu => absurd hu hletter, hc, ih _ _ hrest]
    rfl
  | case5 c s hquote hcode hescape hbad =>
    rw [readPieces?.eq_5 _ _ hquote hcode hescape, if_pos hbad] at h
    cases h
  | case6 c s hquote hcode hescape hplain ih =>
    rw [readPieces?.eq_5 _ _ hquote hcode hescape, if_neg hplain] at h
    obtain ⟨⟨_, _⟩, hrest, h⟩ := Option.map_eq_some_iff.mp h
    cases h
    have hslash : c ≠ '\\' := fun hc => hplain (.inl hc)
    rw [List.cons_append, readPieces?.eq_5 _ _ hquote (fun _ _ _ _ _ hc => absurd hc hslash)
      (fun _ _ hc => absurd hc hslash), if_neg hplain, ih _ _ hrest]
    rfl

/-! ## Numbers -/

namespace Numeral

variable (more : List Char)

theorem goesOn_readDigits? : GoesOn readDigits? more (NoDigit more) := by
  intro s ds rest h hmore
  unfold readDigits? at h ⊢
  dsimp only at h ⊢
  split at h
  · cases h
  · next hne =>
    cases h
    rw [takeWhile_append_next s hmore, dropWhile_append_next s hmore, if_neg hne]

theorem goesOn_readWhole? : GoesOn readWhole? more (NoDigit more) := by
  intro s ds rest h hmore
  unfold readWhole? at h
  split at h
  · cases h
  · next hlead =>
    rw [readWhole?, goesOn_readDigits? more _ _ _ h hmore]
    split
    · next heq =>
      cases heq
      exact absurd h (hlead _ _ _)
    · rfl

/-- Without a point no fraction begins. -/
theorem readFraction?_of_ne {s : List Char} (h : ∀ c ∈ s.head?, c ≠ '.') :
    readFraction? s = some (none, s) := by
  rw [readFraction?]
  rintro t rfl
  exact h '.' rfl rfl

theorem goesOn_readFraction? : GoesOn readFraction? more (Ends more) := by
  intro s f rest h hmore
  cases s with
  | nil =>
    cases h
    exact readFraction?_of_ne fun c hc => (hmore rfl c hc).2.1
  | cons c s =>
    by_cases hc : c = '.'
    · subst hc
      exact ((goesOn_readDigits? more).mono Ends.noDigit).map some _ _ _ h hmore
    · have hne (t : List Char) : readFraction? (c :: t) = some (none, c :: t) :=
        readFraction?_of_ne fun d hd => by cases hd; exact hc
      rw [hne] at h
      cases h
      exact hne _

/-- Without its letter no exponent begins. -/
theorem readExponent?_of_ne {s : List Char} (h : ∀ c ∈ s.head?, c ≠ 'e' ∧ c ≠ 'E') :
    readExponent? s = some (none, s) := by
  cases s with
  | nil => rfl
  | cons c s => exact if_neg fun hc => hc.elim (h c rfl).1 (h c rfl).2

theorem goesOn_readExponent? : GoesOn readExponent? more (Ends more) := by
  intro s e rest h hmore
  cases s with
  | nil =>
    cases h
    exact readExponent?_of_ne fun c hc => (hmore rfl c hc).2.2
  | cons c s =>
    have hdigits (negative : Bool) :=
      ((goesOn_readDigits? more).mono Ends.noDigit).map fun digits => some (negative, digits)
    by_cases hc : c = 'e' ∨ c = 'E'
    · -- the letter is followed by a sign or by the first digit
      cases s with
      | nil =>
        rw [readExponent?.eq_3 _ _ (by simp) (by simp), if_pos hc] at h
        cases h
      | cons d s =>
        by_cases hminus : d = '-'
        · subst hminus
          rw [readExponent?, if_pos hc] at h
          simp only [List.cons_append]
          rw [readExponent?, if_pos hc]
          exact hdigits true _ _ _ h hmore
        by_cases hplus : d = '+'
        · subst hplus
          rw [readExponent?, if_pos hc] at h
          simp only [List.cons_append]
          rw [readExponent?, if_pos hc]
          exact hdigits false _ _ _ h hmore
        have hsign (mark : Char) (hd : d ≠ mark) (s t : List Char) : d :: s ≠ mark :: t :=
          fun heq => hd (List.cons.inj heq).1
        rw [readExponent?.eq_3 _ _ (hsign _ hminus s) (hsign _ hplus s), if_pos hc] at h
        simp only [List.cons_append]
        rw [readExponent?.eq_3 _ _ (hsign _ hminus _) (hsign _ hplus _), if_pos hc]
        exact hdigits false _ _ _ h hmore
    · have hne (t : List Char) : readExponent? (c :: t) = some (none, c :: t) :=
        readExponent?_of_ne fun d hd => by cases hd; exact not_or.mp hc
      rw [hne] at h
      cases h
      exact hne _

/-- What stands after the sign of a numeral. -/
def readUnsigned? (negative : Bool) (s : List Char) : Option (Numeral × List Char) := do
  let (whole, s) ← readWhole? s
  let (fraction, s) ← readFraction? s
  let (exponent, s) ← readExponent? s
  return (⟨negative, whole, fraction, exponent⟩, s)

theorem read?_minus (s : List Char) : read? ('-' :: s) = readUnsigned? true s := by rw [read?]; rfl

theorem read?_of_ne {s : List Char} (h : ∀ c ∈ s.head?, c ≠ '-') :
    read? s = readUnsigned? false s := by
  rw [read?.eq_2]
  · rfl
  · rintro t rfl
    exact h '-' rfl rfl

theorem goesOn_readUnsigned? (negative : Bool) :
    GoesOn (readUnsigned? negative) more (Ends more) := by
  intro s n rest h hmore
  obtain ⟨⟨whole, s₁⟩, hwhole, h⟩ := Option.bind_eq_some_iff.mp h
  obtain ⟨⟨fraction, s₂⟩, hfraction, h⟩ := Option.bind_eq_some_iff.mp h
  obtain ⟨⟨exponent, s₃⟩, hexponent, h⟩ := Option.bind_eq_some_iff.mp h
  cases h
  -- A part that takes the whole text leaves nothing for those after it.
  have hmore₂ : s₂ = [] → Ends more := by
    rintro rfl
    cases hexponent
    exact hmore rfl
  have hmore₁ : s₁ = [] → Ends more := by
    rintro rfl
    cases hfraction
    exact hmore₂ rfl
  rw [readUnsigned?, (goesOn_readWhole? more).mono Ends.noDigit _ _ _ hwhole hmore₁]
  simp only [Option.bind_eq_bind, Option.bind_some,
    goesOn_readFraction? more _ _ _ hfraction hmore₂,
    goesOn_readExponent? more _ _ _ hexponent hmore]
  rfl

/-- Without a digit no unsigned numeral begins. -/
theorem readUnsigned?_head {negative : Bool} {s : List Char}
    (h : (readUnsigned? negative s).isSome) : ∃ c t, s = c :: t ∧ c.isDigit = true := by
  cases s with
  | nil => cases h
  | cons c t =>
    refine ⟨c, t, rfl, ?_⟩
    cases hc : c.isDigit with
    | true => rfl
    | false =>
      have hnone : readDigits? (c :: t) = none := by simp [readDigits?, hc]
      rw [readUnsigned?, readWhole?, hnone] at h
      cases h

/-- A numeral begins with its sign or with a digit. -/
theorem read?_head {s : List Char} (h : (read? s).isSome) :
    ∃ c t, s = c :: t ∧ (c.isDigit = true ∨ c = '-') := by
  cases s with
  | nil => cases h
  | cons c t =>
    refine ⟨c, t, rfl, ?_⟩
    by_cases hc : c = '-'
    · exact .inr hc
    · rw [read?_of_ne fun d hd => by cases hd; exact hc] at h
      obtain ⟨_, _, heq, hdigit⟩ := readUnsigned?_head h
      cases heq
      exact .inl hdigit

theorem goesOn_read? : GoesOn read? more (Ends more) := by
  intro s n rest h hmore
  obtain ⟨c, t, rfl, -⟩ := read?_head (Option.isSome_of_eq_some h)
  by_cases hc : c = '-'
  · subst hc
    rw [read?_minus] at h
    rw [List.cons_append, read?_minus]
    exact goesOn_readUnsigned? more true _ _ _ h hmore
  · have hne (t : List Char) : read? (c :: t) = readUnsigned? false (c :: t) :=
      read?_of_ne fun d hd => by cases hd; exact hc
    rw [hne] at h
    rw [List.cons_append, hne]
    exact goesOn_readUnsigned? more false _ _ _ h hmore

end Numeral

/-! ## Values -/

/-- A number is told by its first character. -/
theorem readTree?_digit (fuel : Nat) {s t : List Char} {c : Char} (hs : skipGaps s = c :: t)
    (hc : c.isDigit = true ∨ c = '-') :
    readTree? (fuel + 1) s = (Numeral.read? (c :: t)).map fun (n, rest) => (.number n, rest) := by
  rw [readTree?, hs]
  split
  case h_7 => rfl
  all_goals
    next heq =>
    obtain ⟨rfl, -⟩ := List.cons.inj heq
    exact absurd hc (by decide)

theorem readTree?_nil (fuel : Nat) : readTree? fuel [] = none := by cases fuel <;> rfl

theorem readItems?_nil (fuel : Nat) : readItems? fuel [] = none := by
  cases fuel with
  | zero => rfl
  | succ fuel =>
    rw [readItems?, readTree?_nil]
    rfl

theorem readMembers?_nil (fuel : Nat) : readMembers? fuel [] = none := by cases fuel <;> rfl

/-- An array that is not closed at once has items. -/
theorem readTree?_items (fuel : Nat) {s t u : List Char} {c : Char} (hs : skipGaps s = '[' :: t)
    (ht : skipGaps t = c :: u) (hc : c ≠ ']') : readTree? (fuel + 1) s =
      (readItems? fuel (c :: u)).map fun (items, rest) => (.array items, rest) := by
  rw [readTree?, hs]
  simp only [ht]
  split
  · next heq => exact absurd (List.cons.inj heq).1 hc
  · rfl

/-- An object that is not closed at once has members. -/
theorem readTree?_members (fuel : Nat) {s t u : List Char} {c : Char}
    (hs : skipGaps s = '\x7b' :: t) (ht : skipGaps t = c :: u) (hc : c ≠ '\x7d') :
    readTree? (fuel + 1) s =
      (readMembers? fuel (c :: u)).map fun (members, rest) => (.object members, rest) := by
  rw [readTree?, hs]
  simp only [ht]
  split
  · next heq => exact absurd (List.cons.inj heq).1 hc
  · rfl

theorem ne_nil_of_skipGaps {s t : List Char} {c : Char} (h : skipGaps s = c :: t) : s ≠ [] := by
  rintro rfl
  cases h

section

variable (more : List Char)

theorem skipGaps_append {s t : List Char} {c : Char} (h : skipGaps s = c :: t) :
    skipGaps (s ++ more) = c :: (t ++ more) := by
  have hstays (hs : s.dropWhile isGap = []) : ∀ c ∈ more.head?, isGap c = false := by
    rw [skipGaps, hs] at h
    cases h
  rw [skipGaps, dropWhile_append_next s hstays, ← skipGaps, h, List.cons_append]

theorem BeginsMember.append {s value : List Char} {key : List Piece}
    (h : BeginsMember s key value) : BeginsMember (s ++ more) key (value ++ more) := by
  obtain ⟨_, _, hquote, hkey, hcolon⟩ := h
  exact ⟨_, _, skipGaps_append more hquote, goesOn_readPieces? more _ _ _ hkey fun _ => trivial,
    skipGaps_append more hcolon⟩

mutual

theorem readTree?_append (fuel fuel' : Nat) (hfuel : fuel ≤ fuel') {s rest : List Char} {t : Tree}
    (h : readTree? fuel s = some (t, rest))
    (hmore : rest = [] → (∃ n, t = .number n) → Numeral.Ends more) :
    readTree? fuel' (s ++ more) = some (t, rest ++ more) := by
  cases fuel with
  | zero => cases h
  | succ fuel =>
    obtain ⟨fuel', rfl⟩ : ∃ n, fuel' = n + 1 := ⟨fuel' - 1, by omega⟩
    have hfuel := Nat.le_of_succ_le_succ hfuel
    rw [readTree?] at h
    split at h
    case h_1 hs | h_2 hs | h_3 hs =>
      cases h
      rw [readTree?, skipGaps_append more hs]
      rfl
    case h_4 s hs =>
      rw [readTree?, skipGaps_append more hs]
      exact (goesOn_readPieces? more).map _ _ _ _ h fun _ => trivial
    case h_5 s hs =>
      split at h
      · next hclose =>
        cases h
        rw [readTree?, skipGaps_append more hs]
        simp only [skipGaps_append more hclose]
      · next hopen =>
        obtain ⟨⟨items, _⟩, hitems, h⟩ := Option.map_eq_some_iff.mp h
        cases h
        cases hfirst : skipGaps s with
        | nil =>
          rw [hfirst, readItems?_nil] at hitems
          cases hitems
        | cons c cs =>
          have hc : c ≠ ']' := by
            rintro rfl
            exact hopen cs hfirst
          rw [hfirst] at hitems
          rw [readTree?_items fuel' (skipGaps_append more hs)
            (skipGaps_append more hfirst) hc, ← List.cons_append,
            readItems?_append fuel fuel' hfuel hitems]
          rfl
    case h_6 s hs =>
      split at h
      · next hclose =>
        cases h
        rw [readTree?, skipGaps_append more hs]
        simp only [skipGaps_append more hclose]
      · next hopen =>
        obtain ⟨⟨members, _⟩, hmembers, h⟩ := Option.map_eq_some_iff.mp h
        cases h
        cases hfirst : skipGaps s with
        | nil =>
          rw [hfirst, readMembers?_nil] at hmembers
          cases hmembers
        | cons c cs =>
          have hc : c ≠ '\x7d' := by
            rintro rfl
            exact hopen cs hfirst
          rw [hfirst] at hmembers
          rw [readTree?_members fuel' (skipGaps_append more hs)
            (skipGaps_append more hfirst) hc, ← List.cons_append,
            readMembers?_append fuel fuel' hfuel hmembers]
          rfl
    case h_7 =>
      obtain ⟨⟨n, _⟩, hn, heq⟩ := Option.map_eq_some_iff.mp h
      obtain ⟨c, u, hs, hc⟩ := Numeral.read?_head (Option.isSome_of_eq_some hn)
      rw [hs] at h
      rw [readTree?_digit fuel' (skipGaps_append more hs) hc]
      refine (Numeral.goesOn_read? more).map _ _ _ _ h fun hrest => hmore hrest ?_
      cases heq
      exact ⟨_, rfl⟩

theorem readItems?_append (fuel fuel' : Nat) (hfuel : fuel ≤ fuel')
    {s rest : List Char} {items : List Tree} (h : readItems? fuel s = some (items, rest)) :
    readItems? fuel' (s ++ more) = some (items, rest ++ more) := by
  cases fuel with
  | zero => cases h
  | succ fuel =>
    obtain ⟨fuel', rfl⟩ : ∃ n, fuel' = n + 1 := ⟨fuel' - 1, by omega⟩
    have hfuel := Nat.le_of_succ_le_succ hfuel
    rw [readItems?] at h
    obtain ⟨⟨t, tail⟩, ht, h⟩ := Option.bind_eq_some_iff.mp h
    have ht' (htail : tail ≠ []) :=
      readTree?_append fuel fuel' hfuel ht fun hnil => absurd hnil htail
    dsimp only at h
    split at h
    · next hcomma =>
      obtain ⟨⟨items, _⟩, hitems, h⟩ := Option.bind_eq_some_iff.mp h
      cases h
      rw [readItems?_comma fuel' _ _ _ _ (ht' (ne_nil_of_skipGaps hcomma))
        (skipGaps_append more hcomma),
        readItems?_append fuel fuel' hfuel hitems]
      rfl
    · next hbracket =>
      cases h
      exact readItems?_bracket fuel' _ _ _ _ (ht' (ne_nil_of_skipGaps hbracket))
        (skipGaps_append more hbracket)
    · cases h

theorem readMembers?_append (fuel fuel' : Nat) (hfuel : fuel ≤ fuel')
    {s rest : List Char} {members : List (List Piece × Tree)}
    (h : readMembers? fuel s = some (members, rest)) :
    readMembers? fuel' (s ++ more) = some (members, rest ++ more) := by
  cases fuel with
  | zero => cases h
  | succ fuel =>
    obtain ⟨fuel', rfl⟩ : ∃ n, fuel' = n + 1 := ⟨fuel' - 1, by omega⟩
    have hfuel := Nat.le_of_succ_le_succ hfuel
    rw [readMembers?] at h
    split at h
    case h_2 => cases h
    next hquote =>
    obtain ⟨⟨key, u⟩, hkey, h⟩ := Option.bind_eq_some_iff.mp h
    dsimp only at h
    split at h
    case h_2 => cases h
    next hcolon =>
    obtain ⟨⟨t, tail⟩, ht, h⟩ := Option.bind_eq_some_iff.mp h
    have hbegins := BeginsMember.append more ⟨_, _, hquote, hkey, hcolon⟩
    have ht' (htail : tail ≠ []) :=
      readTree?_append fuel fuel' hfuel ht fun hnil => absurd hnil htail
    dsimp only at h
    split at h
    · next hcomma =>
      obtain ⟨⟨members, _⟩, hmembers, h⟩ := Option.bind_eq_some_iff.mp h
      cases h
      rw [readMembers?_comma fuel' hbegins (ht' (ne_nil_of_skipGaps hcomma))
        (skipGaps_append more hcomma),
        readMembers?_append fuel fuel' hfuel hmembers]
      rfl
    · next hbrace =>
      cases h
      exact readMembers?_brace fuel' hbegins (ht' (ne_nil_of_skipGaps hbrace))
        (skipGaps_append more hbrace)
    · cases h

end

end

theorem skipGaps_head (s : List Char) : ∀ c ∈ (skipGaps s).head?, isGap c = false := by
  intro c hc
  have h := List.head?_dropWhile_not isGap s
  rw [skipGaps, Option.mem_def] at hc
  rw [hc] at h
  exact h

theorem readTree?_skipGaps (fuel : Nat) (s : List Char) :
    readTree? fuel (skipGaps s) = readTree? fuel s := by
  cases fuel with
  | zero => rfl
  | succ fuel =>
    have hagain : skipGaps (skipGaps s) = skipGaps s := Text.dropWhile_stopped (skipGaps_head s)
    rw [readTree?, readTree?, hagain]

/-- No value begins with a bracket that closes. -/
theorem readTree?_bracket (fuel : Nat) (s : List Char) : readTree? fuel (']' :: s) = none := by
  cases fuel with
  | zero => rfl
  | succ fuel =>
    have hnone : Numeral.read? (']' :: s) = none := rfl
    rw [readTree?, skipGaps_cons _ rfl]
    exact congrArg (Option.map _) hnone

/-- A document in brackets is an array of it alone. -/
theorem ofText?_brackets {text : String} {t : Tree} (h : Tree.ofText? text = some t) :
    Tree.ofText? ("[" ++ text ++ "]") = some (.array [t]) := by
  unfold Tree.ofText? at h
  dsimp only at h
  split at h
  case h_2 => cases h
  next tree rest hread =>
  split at h
  case isFalse => cases h
  next hrest =>
  cases h
  have hclose : skipGaps (rest ++ [']']) = [']'] := by
    have hbracket : ∀ c ∈ [']'].head?, isGap c = false := by simp [isGap]
    rw [skipGaps, dropWhile_append_next rest fun _ => hbracket, ← skipGaps, hrest, List.nil_append]
  rw [← readTree?_skipGaps] at hread
  cases hfirst : skipGaps text.toList with
  | nil =>
    rw [hfirst, readTree?_nil] at hread
    cases hread
  | cons c u =>
    have hc : c ≠ ']' := by
      rintro rfl
      rw [hfirst, readTree?_bracket] at hread
      cases hread
    rw [hfirst] at hread
    have hitem := readTree?_append [']'] _ (2 * text.toList.length + 4) (by omega) hread
      fun _ _ => ends_cons [] (by simp)
    have hitems := readItems?_bracket _ _ _ _ _ hitem hclose
    have hchars : ("[" ++ text ++ "]").toList = '[' :: (text.toList ++ [']']) := by simp
    have hlength : 2 * ('[' :: (text.toList ++ [']'])).length + 2 =
        2 * text.toList.length + 4 + 1 + 1 := by
      simp only [List.length_cons, List.length_append, List.length_nil]
      omega
    unfold Tree.ofText?
    dsimp only
    rw [hchars, hlength, readTree?_items _ (skipGaps_cons _ rfl)
      (skipGaps_append [']'] hfirst) hc, ← List.cons_append, hitems]
    rfl

/-! ## Cut documents -/

/-- If a document ends where its text ends, a text that is cut off before is not read as an
object. -/
theorem not_object_cut {s more : List Char} {t : Tree} {members : List (List Piece × Tree)}
    (hwhole : readTree? (2 * (s ++ more).length + 2) (s ++ more) = some (t, []))
    (hmore : more ≠ []) : Tree.ofText? (String.ofList s) ≠ some (.object members) := by
  intro h
  unfold Tree.ofText? at h
  rw [String.toList_ofList] at h
  dsimp only at h
  split at h
  case h_2 => cases h
  next tree rest hread =>
  split at h
  case isFalse => cases h
  cases h
  have hfuel : 2 * s.length + 2 ≤ 2 * (s ++ more).length + 2 := by
    rw [List.length_append]
    omega
  have hagain := readTree?_append more _ _ hfuel hread fun _ ⟨_, hn⟩ => nomatch hn
  rw [hwhole] at hagain
  cases hrest : rest ++ more with
  | nil => exact hmore (List.append_eq_nil_iff.mp hrest).2
  | cons c u =>
    rw [hrest] at hagain
    cases hagain

/-- The text of a table without its end is not read as a table. -/
theorem not_holdsTexts_cut {s more : List Char} {l : List (String × String)}
    (h : s ++ more = indentedTexts l) (hmore : more ≠ []) : ¬ HoldsTexts (String.ofList s) := by
  rintro ⟨t, ht, htexts⟩
  cases t with
  | object members => exact not_object_cut (h ▸ readTree?_indentedTexts l) hmore ht
  | null | bool b | number n | text pieces | array items => exact htexts

/-! ## Depth -/

namespace Tree

mutual

/-- What has a value has it with one more level allowed. -/
theorem valueWithin?_succ (t : Tree) (depth : Nat) {v : Value}
    (h : t.valueWithin? depth = some v) : t.valueWithin? (depth + 1) = some v := by
  cases t with
  | null | bool b | number n | text pieces => exact h
  | array items =>
    cases depth with
    | zero => cases h
    | succ depth =>
      obtain ⟨values, hvalues, rfl⟩ := Option.map_eq_some_iff.mp h
      rw [valueWithin?, itemsWithin?_succ items depth hvalues]
      rfl
  | object members =>
    cases depth with
    | zero => cases h
    | succ depth =>
      obtain ⟨values, hvalues, rfl⟩ := Option.map_eq_some_iff.mp h
      rw [valueWithin?, membersWithin?_succ members depth hvalues]
      rfl

theorem itemsWithin?_succ (items : List Tree) (depth : Nat) {values : List Value}
    (h : itemsWithin? depth items = some values) :
    itemsWithin? (depth + 1) items = some values := by
  cases items with
  | nil => exact h
  | cons t rest =>
    obtain ⟨v, hv, h⟩ := Option.bind_eq_some_iff.mp h
    obtain ⟨others, hothers, h⟩ := Option.bind_eq_some_iff.mp h
    rw [itemsWithin?, valueWithin?_succ t depth hv, itemsWithin?_succ rest depth hothers]
    exact h

theorem membersWithin?_succ (members : List (List Piece × Tree)) (depth : Nat)
    {values : List (String × Value)} (h : membersWithin? depth members = some values) :
    membersWithin? (depth + 1) members = some values := by
  cases members with
  | nil => exact h
  | cons m rest =>
    obtain ⟨key, t⟩ := m
    obtain ⟨k, hk, h⟩ := Option.bind_eq_some_iff.mp h
    obtain ⟨v, hv, h⟩ := Option.bind_eq_some_iff.mp h
    obtain ⟨others, hothers, h⟩ := Option.bind_eq_some_iff.mp h
    rw [membersWithin?, hk, valueWithin?_succ t depth hv, membersWithin?_succ rest depth hothers]
    exact h

end

theorem value?_of_brackets {t : Tree} (h : (array [t]).value?.isSome) : t.value?.isSome := by
  obtain ⟨_, hvalue⟩ := Option.isSome_iff_exists.mp h
  obtain ⟨_, hitems, -⟩ := Option.map_eq_some_iff.mp hvalue
  obtain ⟨_, hinner, -⟩ := Option.bind_eq_some_iff.mp hitems
  exact Option.isSome_of_eq_some (t.valueWithin?_succ _ hinner)

end Tree

end Gazetteer.Json
