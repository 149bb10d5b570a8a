import Gazetteer.Toml.Scalar
import Gazetteer.Toml.Writer

/-!
# Strings are read back

Each of the ways in which a text may be written as a string is undone by the reader, whatever
follows the string.  In a string over several lines a run of marks needs care: one or two of them
are a part of the text, and so are up to two more before the three that close the string.

    readBasic? (s.flatMap escapeChar ++ '"' :: rest) = some (s, rest)
    readBasicLines? false (escapeLines 0 s ++ threeQuotes ++ rest) = some (s, rest)
    readLiteralLines? (s ++ threeTicks ++ rest) = some (s, rest)
    readText? (textChars s ++ rest) = some (s, rest)                     (readText?_textChars)
-/

namespace Gazetteer.Toml

/-! ## Escapes -/

theorem coded?_upperHexDigit : ∀ n < 128,
    coded? ['0', '0', upperHexDigit (n / 16), upperHexDigit n] = some (Char.ofNat n) := by
  decide

/-- A character is written with a letter, with a code, or as it is. -/
theorem escapeChar_cases (c : Char) :
    (∃ e, escapeChar c = ['\\', e] ∧ e ∈ ['"', '\\', 'n', 'r', 't', 'b', 'f'] ∧
      escaped? e = some c) ∨
    (∃ h l, escapeChar c = ['\\', 'u', '0', '0', h, l] ∧ coded? ['0', '0', h, l] = some c) ∨
    (escapeChar c = [c] ∧ c ≠ '"' ∧ c ≠ '\\' ∧ c ≠ '\n' ∧ isPrintable c = true) := by
  by_cases hletter : c = '"' ∨ c = '\\' ∨ c = '\n' ∨ c = '\r' ∨ c = '\t' ∨ c = '\x08' ∨ c = '\x0c'
  · left
    rcases hletter with rfl | rfl | rfl | rfl | rfl | rfl | rfl
    all_goals exact ⟨_, rfl, by decide, rfl⟩
  · right
    simp only [not_or] at hletter
    obtain ⟨hq, hs, hn, hr, ht, hb, hf⟩ := hletter
    by_cases hcode : c.toNat < 0x20 ∨ c.toNat = 0x7F
    · left
      refine ⟨upperHexDigit (c.toNat / 16), upperHexDigit c.toNat, ?_, ?_⟩
      · simp [escapeChar, *]
      · rw [coded?_upperHexDigit c.toNat (by omega), Char.ofNat_toNat]
    · right
      have hprintable : isPrintable c = true := by
        simp [isPrintable]
        omega
      exact ⟨by simp [escapeChar, *], hq, hs, hn, hprintable⟩

theorem ne_of_printable {c : Char} (h : isPrintable c = true) : c ≠ '\n' ∧ c ≠ '\r' := by
  constructor
  all_goals
    rintro rfl
    cases h

/-! ## On one line -/

theorem readBasic?_escapeChar (c : Char) (rest : List Char) :
    readBasic? (escapeChar c ++ rest) = before c (readBasic? rest) := by
  rcases escapeChar_cases c with ⟨e, h, he, hc⟩ | ⟨a, b, h, hc⟩ | ⟨h, hq, hs, -, hp⟩
  · have hread : readBasic? ('\\' :: e :: rest) =
        (escaped? e).bind fun c => before c (readBasic? rest) := by
      rw [readBasic?]
      · rfl
      all_goals
        intros
        simp_all
    rw [h, List.cons_append, List.cons_append, List.nil_append, hread, hc]
    rfl
  · rw [h]
    simp only [List.cons_append, List.nil_append]
    rw [readBasic?, hc]
    rfl
  · rw [h, List.cons_append, List.nil_append, readBasic?]
    · simp [hp, hs]
    all_goals
      intros
      simp_all

theorem readBasic?_chars (s rest : List Char) :
    readBasic? (s.flatMap escapeChar ++ '"' :: rest) = some (s, rest) := by
  induction s with
  | nil => rfl
  | cons c s ih =>
    rw [List.flatMap_cons, List.append_assoc, readBasic?_escapeChar, ih]
    rfl

theorem readLiteral?_chars (s rest : List Char)
    (h : ∀ c ∈ s, c ≠ '\'' ∧ isPrintable c = true) :
    readLiteral? (s ++ '\'' :: rest) = some (s, rest) := by
  induction s with
  | nil => rfl
  | cons c s ih =>
    obtain ⟨⟨htick, hprint⟩, hs⟩ := List.forall_mem_cons.mp h
    rw [List.cons_append, readLiteral?, if_pos hprint, ih hs]
    · rfl
    · exact htick

/-! ## Marks at the end -/

/-- The text does not start with a character. -/
def Clear (mark : Char) (s : List Char) : Prop := s.head? ≠ some mark

/-- Marks before the closing three are told from what follows the string. -/
theorem closing_replicate (mark : Char) (n : Nat) (rest : List Char) (hn : n ≤ 2)
    (h : Clear mark rest) :
    closing mark (List.replicate n mark ++ rest) = (List.replicate n mark, rest) := by
  unfold Clear at h
  match n, rest with
  | 0, [] => rfl
  | 0, [a] => simp_all [closing]
  | 0, a :: b :: rest => simp_all [closing]
  | 1, [] => simp [closing]
  | 1, a :: rest => simp_all [closing]
  | 2, rest => simp [closing]

theorem replicate_append_cons {α : Type} (n : Nat) (a : α) (s : List α) :
    List.replicate n a ++ a :: s = List.replicate (n + 1) a ++ s := by
  rw [List.replicate_succ', List.append_assoc]
  rfl

/-- Of marks in a row the first three can be taken for the closing ones. -/
theorem replicate_append_three {α : Type} (n : Nat) (a : α) (s : List α) :
    List.replicate n a ++ (a :: a :: a :: s) = a :: a :: a :: (List.replicate n a ++ s) := by
  rw [replicate_append_cons, replicate_append_cons, replicate_append_cons]
  rfl

/-- One or two marks are a part of the text, if no further one follows and the reader takes a mark
that two more do not follow. -/
theorem read_marks (mark : Char) (read : List Char → Option (List Char × List Char))
    (hread : ∀ t, (∀ u, t ≠ mark :: mark :: u) → read (mark :: t) = before mark (read t)) (n : Nat)
    (t s rest : List Char) (hn : n ≤ 2) (ht : Clear mark t) (h : read t = some (s, rest)) :
    read (List.replicate n mark ++ t) = some (List.replicate n mark ++ s, rest) := by
  have hone : read (mark :: t) = some (mark :: s, rest) := by
    rw [hread t fun u hu => ht (by rw [hu, List.head?_cons]), h]
    rfl
  match n with
  | 0 => exact h
  | 1 => exact hone
  | 2 =>
    have htwo : read (mark :: mark :: t) = some (mark :: mark :: s, rest) := by
      rw [hread (mark :: t) fun u hu => ht (by rw [(List.cons.inj hu).2, List.head?_cons]), hone]
      rfl
    exact htwo

/-! ## Over several lines, with escapes -/

theorem readBasicLines?_escapeChar (c : Char) (rest : List Char) :
    readBasicLines? false (escapeChar c ++ rest) = before c (readBasicLines? false rest) := by
  rcases escapeChar_cases c with ⟨e, h, he, hc⟩ | ⟨a, b, h, hc⟩ | ⟨h, hq, hs, hn, hp⟩
  · have hline : readNewline? (skipSpaces (e :: rest)) = none := by
      simp only [List.mem_cons, List.not_mem_nil, or_false] at he
      rcases he with rfl | rfl | rfl | rfl | rfl | rfl | rfl
      all_goals rfl
    have hread : readBasicLines? false ('\\' :: e :: rest) =
        (escaped? e).bind fun c => before c (readBasicLines? false rest) := by
      rw [readBasicLines?, hline]
      · rfl
      all_goals
        intros
        simp_all
    rw [h, List.cons_append, List.cons_append, List.nil_append, hread, hc]
    rfl
  · have hline : readNewline? (skipSpaces ('u' :: '0' :: '0' :: a :: b :: rest)) = none := rfl
    rw [h]
    simp only [List.cons_append, List.nil_append]
    rw [readBasicLines?, hline, hc]
    rfl
  · obtain ⟨-, hr⟩ := ne_of_printable hp
    rw [h, List.cons_append, List.nil_append, readBasicLines?]
    · simp [hp]
    all_goals
      intros
      simp_all

theorem readBasicLines?_quote (t : List Char) (ht : ∀ u, t ≠ '"' :: '"' :: u) :
    readBasicLines? false ('"' :: t) = before '"' (readBasicLines? false t) := by
  rw [readBasicLines?]
  · rfl
  all_goals
    intros
    simp_all

/-- No escape starts with a quote. -/
theorem clear_escapeChar (c : Char) (rest : List Char) : Clear '"' (escapeChar c ++ rest) := by
  rcases escapeChar_cases c with ⟨e, h, -, -⟩ | ⟨a, b, h, -⟩ | ⟨h, hc, -⟩
  · simp [Clear, h]
  · simp [Clear, h]
  · simp [Clear, h, hc]

/-- The induction carries the quotes that have been written since the last other character. -/
theorem readBasicLines?_run (quotes : Nat) (s rest : List Char) (hquotes : quotes ≤ 2)
    (h : Clear '"' rest) :
    readBasicLines? false
        (List.replicate quotes '"' ++ (escapeLines quotes s ++ (threeQuotes ++ rest))) =
      some (List.replicate quotes '"' ++ s, rest) := by
  induction s generalizing quotes with
  | nil =>
    -- the quotes at the end of the text are read after the three that close the string
    rw [escapeLines, List.append_nil, threeQuotes]
    simp only [List.cons_append, List.nil_append]
    rw [replicate_append_three, readBasicLines?, closing_replicate _ _ _ hquotes h]
  | cons c s ih =>
    have hzero := ih 0 (by omega)
    simp only [List.replicate_zero, List.nil_append] at hzero
    rw [escapeLines]
    split
    · next hfeed =>
      subst hfeed
      apply read_marks '"' _ readBasicLines?_quote _ _ _ _ hquotes (by simp [Clear])
      rw [List.cons_append, readBasicLines?, hzero]
      rfl
    · split
      · next hquote =>
        obtain ⟨rfl, hlt⟩ := hquote
        rw [List.cons_append, replicate_append_cons, ih (quotes + 1) hlt, replicate_append_cons]
      · -- another character, or a third quote, which is escaped: the run ends before it
        rw [List.append_assoc]
        apply read_marks '"' _ readBasicLines?_quote _ _ _ _ hquotes (clear_escapeChar c _)
        rw [readBasicLines?_escapeChar, hzero]
        rfl

theorem readBasicLines?_chars (s rest : List Char) (h : Clear '"' rest) :
    readBasicLines? false (escapeLines 0 s ++ (threeQuotes ++ rest)) = some (s, rest) :=
  readBasicLines?_run 0 s rest (by omega) h

/-! ## Over several lines, as they are -/

/-- A character after the longest run so far and the run at the end. -/
def runStep (mark : Char) (runs : Nat × Nat) (c : Char) : Nat × Nat :=
  let run := if c = mark then runs.2 + 1 else 0
  (max runs.1 run, run)

theorem longestRun_eq (mark : Char) (s : List Char) :
    longestRun mark s = (s.foldl (runStep mark) (0, 0)).1 := rfl

theorem le_foldl_runStep (mark : Char) (s : List Char) (runs : Nat × Nat) :
    runs.1 ≤ (s.foldl (runStep mark) runs).1 := by
  induction s generalizing runs with
  | nil => exact Nat.le_refl _
  | cons c s ih => exact Nat.le_trans (Nat.le_max_left _ _) (ih (runStep mark runs c))

theorem readLiteralLines?_tick (t : List Char) (ht : ∀ u, t ≠ '\'' :: '\'' :: u) :
    readLiteralLines? ('\'' :: t) = before '\'' (readLiteralLines? t) := by
  rw [readLiteralLines?]
  · rfl
  all_goals
    intros
    simp_all

/-- A character of a text that stands as it is. -/
def IsPlain (c : Char) : Prop := c = '\n' ∨ isPrintable c = true

theorem readLiteralLines?_plain (c : Char) (rest : List Char) (hc : IsPlain c) (htick : c ≠ '\'') :
    readLiteralLines? (c :: rest) = before c (readLiteralLines? rest) := by
  rcases hc with rfl | hc
  · rw [readLiteralLines?]
  · obtain ⟨hn, hr⟩ := ne_of_printable hc
    rw [readLiteralLines?, if_pos hc]
    all_goals
      intros
      simp_all

/-- The induction carries the ticks since the last other character. -/
theorem readLiteralLines?_run (longest ticks : Nat) (s rest : List Char) (hticks : ticks ≤ longest)
    (hlongest : (s.foldl (runStep '\'') (longest, ticks)).1 ≤ 2) (hplain : ∀ c ∈ s, IsPlain c)
    (h : Clear '\'' rest) :
    readLiteralLines? (List.replicate ticks '\'' ++ (s ++ (threeTicks ++ rest))) =
      some (List.replicate ticks '\'' ++ s, rest) := by
  induction s generalizing longest ticks with
  | nil =>
    have hbound : ticks ≤ 2 := Nat.le_trans hticks hlongest
    rw [List.nil_append, List.append_nil, threeTicks]
    simp only [List.cons_append, List.nil_append]
    rw [replicate_append_three, readLiteralLines?, closing_replicate _ _ _ hbound h]
  | cons c s ih =>
    obtain ⟨hc, hs⟩ := List.forall_mem_cons.mp hplain
    rw [List.foldl_cons] at hlongest
    by_cases htick : c = '\''
    · subst htick
      have hstep : runStep '\'' (longest, ticks) '\'' = (max longest (ticks + 1), ticks + 1) := rfl
      rw [hstep] at hlongest
      have hnext := ih _ (ticks + 1) (Nat.le_max_right _ _) hlongest hs
      rw [List.cons_append, replicate_append_cons, hnext, replicate_append_cons]
    · have hstep : runStep '\'' (longest, ticks) c = (max longest 0, 0) := by
        simp [runStep, htick]
      rw [hstep] at hlongest
      have hnext := ih _ 0 (Nat.zero_le _) hlongest hs
      have hbound : ticks ≤ 2 := by
        have hfold := le_foldl_runStep '\'' s (max longest 0, 0)
        omega
      simp only [List.replicate_zero, List.nil_append] at hnext
      apply read_marks '\'' _ readLiteralLines?_tick _ _ _ _ hbound (by simp [Clear, htick])
      rw [List.cons_append, readLiteralLines?_plain _ _ hc htick, hnext]
      rfl

theorem readLiteralLines?_chars (s rest : List Char) (hrun : longestRun '\'' s ≤ 2)
    (hplain : ∀ c ∈ s, IsPlain c) (h : Clear '\'' rest) :
    readLiteralLines? (s ++ (threeTicks ++ rest)) = some (s, rest) := by
  rw [longestRun_eq] at hrun
  exact readLiteralLines?_run 0 0 s rest (Nat.le_refl _) hrun hplain h

/-! ## Any text -/

theorem hasControl_eq_false {s : List Char} : hasControl s = false ↔ ∀ c ∈ s, IsPlain c := by
  simp [hasControl, IsPlain, Decidable.or_iff_not_imp_left]

theorem hasLineFeed_eq_false {s : List Char} : hasLineFeed s = false ↔ ∀ c ∈ s, c ≠ '\n' := by
  simp only [hasLineFeed, List.contains_eq_mem, decide_eq_false_iff_not]
  exact ⟨fun h c hc he => h (he ▸ hc), fun h hc => h _ hc rfl⟩

theorem printable_of_plain {s : List Char} (hcontrol : hasControl s = false)
    (hfeed : hasLineFeed s = false) {c : Char} (hc : c ∈ s) : isPrintable c = true :=
  (hasControl_eq_false.mp hcontrol c hc).resolve_left (hasLineFeed_eq_false.mp hfeed c hc)

/-- A mark that closes a string at once is not the second of three. -/
theorem single_mark {mark : Char} {s rest : List Char} (hs : Clear mark s) (h : Clear mark rest)
    (u : List Char) : s ++ mark :: rest ≠ mark :: mark :: u := by
  intro hu
  cases s with
  | nil => exact h (by rw [(List.cons.inj hu).2, List.head?_cons])
  | cons c s => exact hs (by rw [(List.cons.inj hu).1, List.head?_cons])

theorem readText?_basicChars (s rest : List Char) (h : Clear '"' rest) :
    readText? (basicChars s ++ rest) = some (s, rest) := by
  have hchars : basicChars s ++ rest = '"' :: (s.flatMap escapeChar ++ '"' :: rest) := by
    simp [basicChars]
  have hfirst : Clear '"' (s.flatMap escapeChar) := by
    cases s with
    | nil => simp [Clear]
    | cons c s => exact clear_escapeChar c _
  rw [hchars, readText?]
  · exact readBasic?_chars s rest
  · exact single_mark hfirst h

theorem readText?_literalChars (s rest : List Char) (htick : '\'' ∉ s)
    (hprintable : ∀ c ∈ s, isPrintable c = true) (h : Clear '\'' rest) :
    readText? (literalChars s ++ rest) = some (s, rest) := by
  have hchars : literalChars s ++ rest = '\'' :: (s ++ '\'' :: rest) := by
    simp [literalChars]
  have hfirst : Clear '\'' s := fun hhead => htick (List.mem_of_head? hhead)
  rw [hchars, readText?]
  · exact readLiteral?_chars s rest fun c hc => ⟨fun he => htick (he ▸ hc), hprintable c hc⟩
  · exact single_mark hfirst h

/-- The line feed after the opening does not count, and nothing else is taken for one. -/
theorem skip_opening (s t : List Char) (h : hasLineFeed s = false → readNewline? t = none) :
    (readNewline? (opening s ++ t)).getD (opening s ++ t) = t := by
  unfold opening
  split
  · rfl
  · next hfeed => rw [List.nil_append, h (by simpa using hfeed), Option.getD_none]

theorem readNewline?_eq_none {c : Char} (hn : c ≠ '\n') (hr : c ≠ '\r') (t : List Char) :
    readNewline? (c :: t) = none := by
  rw [readNewline?]
  all_goals
    intros
    simp_all

theorem readNewline?_escapeChar (c : Char) (t : List Char) :
    readNewline? (escapeChar c ++ t) = none := by
  rcases escapeChar_cases c with ⟨e, h, -, -⟩ | ⟨a, b, h, -⟩ | ⟨h, -, -, hn, hp⟩
  · rw [h]
    rfl
  · rw [h]
    rfl
  · rw [h]
    exact readNewline?_eq_none hn (ne_of_printable hp).2 t

theorem readText?_basicLinesChars (s rest : List Char) (h : Clear '"' rest) :
    readText? (basicLinesChars s ++ rest) = some (s, rest) := by
  have hchars : basicLinesChars s ++ rest =
      '"' :: '"' :: '"' :: (opening s ++ (escapeLines 0 s ++ (threeQuotes ++ rest))) := by
    simp [basicLinesChars, threeQuotes]
  have hfirst : hasLineFeed s = false →
      readNewline? (escapeLines 0 s ++ (threeQuotes ++ rest)) = none := by
    intro hfeed
    cases s with
    | nil => rfl
    | cons c s =>
      have hc : c ≠ '\n' := hasLineFeed_eq_false.mp hfeed c (by simp)
      rw [escapeLines, if_neg hc]
      split
      · next hquote =>
        rw [hquote.1]
        rfl
      · rw [List.append_assoc]
        exact readNewline?_escapeChar c _
  rw [hchars, readText?, skip_opening _ _ hfirst]
  exact readBasicLines?_chars s rest h

theorem readText?_literalLinesChars (s rest : List Char) (hcontrol : hasControl s = false)
    (hrun : longestRun '\'' s ≤ 2) (h : Clear '\'' rest) :
    readText? (literalLinesChars s ++ rest) = some (s, rest) := by
  have hchars : literalLinesChars s ++ rest =
      '\'' :: '\'' :: '\'' :: (opening s ++ (s ++ (threeTicks ++ rest))) := by
    simp [literalLinesChars, threeTicks]
  have hfirst : hasLineFeed s = false → readNewline? (s ++ (threeTicks ++ rest)) = none := by
    intro hfeed
    cases s with
    | nil => rfl
    | cons c s =>
      obtain ⟨hn, hr⟩ := ne_of_printable (printable_of_plain hcontrol hfeed (List.mem_cons_self ..))
      exact readNewline?_eq_none hn hr _
  rw [hchars, readText?, skip_opening _ _ hfirst]
  exact readLiteralLines?_chars s rest hrun (hasControl_eq_false.mp hcontrol) h

/-- A text is read back, if no mark follows it. -/
theorem readText?_textChars (s rest : List Char) (hquote : Clear '"' rest)
    (htick : Clear '\'' rest) : readText? (textChars s ++ rest) = some (s, rest) := by
  unfold textChars
  split
  · exact readText?_basicChars s rest hquote
  split
  · next h =>
    simp only [Bool.and_eq_true, Bool.not_eq_true', List.contains_eq_mem,
      decide_eq_false_iff_not] at h
    obtain ⟨⟨hcontrol, hnone⟩, hfeed⟩ := h
    exact readText?_literalChars s rest hnone (fun c => printable_of_plain hcontrol hfeed) htick
  split
  · exact readText?_basicLinesChars s rest hquote
  split
  · next h =>
    simp only [Bool.and_eq_true, Bool.not_eq_true', decide_eq_true_eq] at h
    exact readText?_literalLinesChars s rest h.1 h.2 htick
  split
  · exact readText?_basicLinesChars s rest hquote
  · exact readText?_basicChars s rest hquote

end Gazetteer.Toml
