import Gazetteer.Proofs.Text.Split
import Gazetteer.Proofs.Toml.Strings
import Gazetteer.Toml.Document

/-!
# Lines are read as statements

A line that is written for a key and a value, or to open a table, is read as the statement it
stands for, whatever follows the line.  A document of such lines, with empty lines between them, is
read as its statements.

    readSimpleKey? (keyChars s ++ rest) = some (String.ofList s, rest)  (readSimpleKey?_keyChars)
    Spelled value v → Line (lineChars key value) (.assign ⟨[], key⟩ v)              (line_assign)
    Line (headerChars outer inner) (.header ⟨[outer], inner⟩)                       (line_header)
    Lines s statements → read? (String.ofList s) is what the statements give    (Lines.read?_eq)
-/

namespace Gazetteer.Toml

/-! ## What is not passed over -/

/-- The text starts with a character that is no part of a blank, a line end or a comment. -/
def Solid (s : List Char) : Prop :=
  ∃ c t, s = c :: t ∧ (isBare c = true ∨ c = '"' ∨ c = '\'' ∨ c = '[')

namespace Solid

theorem append {s : List Char} (h : Solid s) (rest : List Char) : Solid (s ++ rest) := by
  obtain ⟨c, t, rfl, hc⟩ := h
  exact ⟨c, t ++ rest, rfl, hc⟩

theorem first {s : List Char} (h : Solid s) :
    ∃ c t, s = c :: t ∧ isSpace c = false ∧ c ≠ '\n' ∧ c ≠ '\r' ∧ c ≠ '#' := by
  obtain ⟨c, t, rfl, hc⟩ := h
  refine ⟨c, t, rfl, ?_⟩
  rcases hc with hc | rfl | rfl | rfl
  · have hne : ∀ d, isBare d = false → c ≠ d := by
      rintro d hd rfl
      rw [hc] at hd
      cases hd
    have hspace : isSpace c = false := by
      simp [isSpace, hne ' ' rfl, hne '\t' rfl]
    exact ⟨hspace, hne _ rfl, hne _ rfl, hne _ rfl⟩
  all_goals decide

theorem skipSpaces_eq {s : List Char} (h : Solid s) : skipSpaces s = s := by
  obtain ⟨c, t, rfl, hc, -⟩ := h.first
  simp [skipSpaces, hc]

theorem skipTrivia?_eq {s : List Char} (h : Solid s) : skipTrivia? false s = some s := by
  obtain ⟨c, t, rfl, hspace, hn, hr, hcomment⟩ := h.first
  rw [skipTrivia?]
  · simp [hcomment, hspace]
  all_goals
    intros
    simp_all

end Solid

theorem solid_bare {s : List Char} (hne : s ≠ []) (hs : ∀ c ∈ s, isBare c = true) : Solid s := by
  obtain ⟨c, t, rfl⟩ := List.exists_cons_of_ne_nil hne
  exact ⟨c, t, rfl, .inl (hs c (by simp))⟩

theorem solid_basicChars (s : List Char) : Solid (basicChars s) :=
  ⟨'"', _, rfl, .inr (.inl rfl)⟩

theorem solid_literalChars (s : List Char) : Solid (literalChars s) :=
  ⟨'\'', _, rfl, .inr (.inr (.inl rfl))⟩

/-- A text starts with one of the two marks. -/
theorem textChars_first (s : List Char) :
    ∃ mark t, textChars s = mark :: t ∧ (mark = '"' ∨ mark = '\'') := by
  unfold textChars
  split
  · exact ⟨'"', _, rfl, .inl rfl⟩
  split
  · exact ⟨'\'', _, rfl, .inr rfl⟩
  split
  · exact ⟨'"', _, rfl, .inl rfl⟩
  split
  · exact ⟨'\'', _, rfl, .inr rfl⟩
  split
  · exact ⟨'"', _, rfl, .inl rfl⟩
  · exact ⟨'"', _, rfl, .inl rfl⟩

theorem solid_textChars (s : List Char) : Solid (textChars s) := by
  obtain ⟨mark, t, h, hmark⟩ := textChars_first s
  exact ⟨mark, t, h, .inr (hmark.imp id .inl)⟩

/-! ## Keys -/

theorem bare_ne_mark {c : Char} (h : isBare c = true) : c ≠ '"' ∧ c ≠ '\'' := by
  constructor
  all_goals
    rintro rfl
    cases h

theorem readSimpleKey?_bare (s rest : List Char) (hs : ∀ c ∈ s, isBare c = true) (hne : s ≠ [])
    (h : ∀ c ∈ rest.head?, isBare c = false) :
    readSimpleKey? (s ++ rest) = some (String.ofList s, rest) := by
  have htake := Text.takeWhile_append_stop s h hs
  have hdrop := Text.dropWhile_append_stop s h hs
  obtain ⟨c, t, rfl⟩ := List.exists_cons_of_ne_nil hne
  obtain ⟨hquote, htick⟩ := bare_ne_mark (hs c (by simp))
  rw [List.cons_append] at htake hdrop ⊢
  rw [readSimpleKey?]
  · simp [htake, hdrop]
  all_goals
    intros
    simp_all

theorem readSimpleKey?_keyChars (s rest : List Char) (h : ∀ c ∈ rest.head?, isBare c = false) :
    readSimpleKey? (keyChars s ++ rest) = some (String.ofList s, rest) := by
  have hbasic : readSimpleKey? (basicChars s ++ rest) = some (String.ofList s, rest) := by
    have hchars : basicChars s ++ rest = '"' :: (s.flatMap escapeChar ++ '"' :: rest) := by
      simp [basicChars]
    rw [hchars, readSimpleKey?, readBasic?_chars]
    rfl
  unfold keyChars
  split
  · next hbare =>
    simp only [Bool.and_eq_true, Bool.not_eq_true', List.isEmpty_eq_false_iff,
      List.all_eq_true] at hbare
    exact readSimpleKey?_bare s rest hbare.2 hbare.1 h
  split
  · exact hbasic
  split
  · next h =>
    simp only [Bool.and_eq_true, Bool.not_eq_true', List.contains_eq_mem,
      decide_eq_false_iff_not] at h
    obtain ⟨⟨hcontrol, hnone⟩, hfeed⟩ := h
    have hchars : literalChars s ++ rest = '\'' :: (s ++ '\'' :: rest) := by
      simp [literalChars]
    rw [hchars, readSimpleKey?, readLiteral?_chars s rest fun c hc =>
      ⟨fun he => hnone (he ▸ hc), printable_of_plain hcontrol hfeed hc⟩]
    rfl
  · exact hbasic

theorem solid_keyChars (s : List Char) : Solid (keyChars s) := by
  unfold keyChars
  split
  · next hbare =>
    simp only [Bool.and_eq_true, Bool.not_eq_true', List.isEmpty_eq_false_iff,
      List.all_eq_true] at hbare
    exact solid_bare hbare.1 hbare.2
  split
  · exact solid_basicChars s
  split
  · exact solid_literalChars s
  · exact solid_basicChars s

/-- A key that needs no quotes. -/
def BareKey (key : String) : Prop := key.toList ≠ [] ∧ ∀ c ∈ key.toList, isBare c = true

instance (key : String) : Decidable (BareKey key) :=
  decidable_of_iff ((!key.toList.isEmpty && key.toList.all isBare) = true) (by simp [BareKey])

theorem BareKey.first {key : String} (h : BareKey key) : ∃ c t, key.toList = c :: t ∧ c ≠ '[' := by
  obtain ⟨c, t, hkey⟩ := List.exists_cons_of_ne_nil h.1
  refine ⟨c, t, hkey, ?_⟩
  rintro rfl
  exact absurd (h.2 '[' (by simp [hkey])) (by decide)

/-- The last part of a key ends where no further part follows. -/
theorem readKeyParts?_last (fuel : Nat) (name : String) (s t rest : List Char)
    (hname : readSimpleKey? (skipSpaces s) = some (name, t)) (ht : skipSpaces t = rest)
    (hdot : Clear '.' rest) : readKeyParts? (fuel + 1) s = some ([name], rest) := by
  rw [readKeyParts?, hname]
  simp only [Option.bind_eq_bind, Option.bind_some, ht]
  split
  · exact absurd rfl hdot
  · rfl

theorem readKeyParts?_dot (fuel : Nat) (name : String) (names : List String)
    (s t u rest : List Char) (hname : readSimpleKey? (skipSpaces s) = some (name, t))
    (ht : skipSpaces t = '.' :: u) (hnames : readKeyParts? fuel u = some (names, rest)) :
    readKeyParts? (fuel + 1) s = some (name :: names, rest) := by
  rw [readKeyParts?, hname]
  simp only [Option.bind_eq_bind, Option.bind_some, ht, hnames]
  rfl

theorem readSimpleKey?_bareKey {key : String} (hkey : BareKey key) (s : List Char)
    (hs : ∀ c ∈ s.head?, isBare c = false) :
    readSimpleKey? (skipSpaces (key.toList ++ s)) = some (key, s) := by
  have hsolid := (solid_bare hkey.1 hkey.2).append s
  rw [hsolid.skipSpaces_eq, readSimpleKey?_bare _ _ hkey.2 hkey.1 hs, String.ofList_toList]

/-- A key that needs no quotes, up to the sign of an assignment or the end of a header. -/
theorem readKey?_bareKey {key : String} (hkey : BareKey key) (s rest : List Char)
    (hs : ∀ c ∈ s.head?, isBare c = false) (hrest : skipSpaces s = rest) (hdot : Clear '.' rest) :
    readKey? (key.toList ++ s) = some (⟨[], key⟩, rest) := by
  have hparts := readKeyParts?_last nestingLimit key _ _ rest (readSimpleKey?_bareKey hkey s hs)
    hrest hdot
  rw [readKey?, hparts]
  rfl

/-- A key of two parts, up to the end of a header. -/
theorem readKey?_dotted {outer : String} (houter : BareKey outer) (inner : String)
    (rest : List Char) :
    readKey? (outer.toList ++ '.' :: (keyChars inner.toList ++ ']' :: rest)) =
      some (⟨[outer], inner⟩, ']' :: rest) := by
  have hinner : readSimpleKey? (skipSpaces (keyChars inner.toList ++ ']' :: rest)) =
      some (inner, ']' :: rest) := by
    rw [((solid_keyChars inner.toList).append _).skipSpaces_eq,
      readSimpleKey?_keyChars _ _ (by simp [isBare]), String.ofList_toList]
  have hlast := readKeyParts?_last 78 inner _ _ (']' :: rest) hinner rfl (by simp [Clear])
  have hparts := readKeyParts?_dot 79 outer [inner] _ _ _ _
    (readSimpleKey?_bareKey houter ('.' :: (keyChars inner.toList ++ ']' :: rest))
      (by simp [isBare])) rfl hlast
  rw [readKey?, nestingLimit, hparts]
  rfl

/-! ## Values -/

theorem readScalar?_textChars (s rest : List Char) (hquote : Clear '"' rest)
    (htick : Clear '\'' rest) :
    readScalar? (textChars s ++ rest) = some (.text (String.ofList s), rest) := by
  have hread := readText?_textChars s rest hquote htick
  obtain ⟨mark, t, h, hmark⟩ := textChars_first s
  rw [h, List.cons_append] at hread ⊢
  rw [readScalar?, if_pos hmark, hread]
  · rfl
  all_goals
    intros
    rcases hmark with rfl | rfl
    all_goals simp_all

/-- What is neither an array nor an inline table is a value without others in it. -/
theorem readValue?_scalar (fuel depth : Nat) (s : List Char) (harray : Clear '[' s)
    (htable : Clear '\x7b' s) : readValue? (fuel + 1) depth s = readScalar? s := by
  rw [readValue?]
  all_goals
    intros
    simp_all [Clear]

theorem readValue?_textChars (fuel depth : Nat) (s : String) (rest : List Char)
    (hquote : Clear '"' rest) (htick : Clear '\'' rest) :
    readValue? (fuel + 1) depth (textChars s.toList ++ rest) = some (.text s, rest) := by
  obtain ⟨mark, t, h, hmark⟩ := textChars_first s.toList
  rw [readValue?_scalar, readScalar?_textChars _ _ hquote htick, String.ofList_toList]
  all_goals
    rw [h]
    rcases hmark with rfl | rfl
    all_goals simp [Clear]

theorem readItems?_end (fuel depth : Nat) (s rest : List Char)
    (hs : skipTrivia? false s = some (']' :: rest)) :
    readItems? (fuel + 1) depth s = some ([], rest) := by
  rw [readItems?, hs]
  rfl

/-- An item before a comma. -/
theorem readItems?_comma (fuel depth : Nat) (s t u w rest : List Char) (v : Value)
    (items : List Value) (hs : skipTrivia? false s = some t) (ht : Clear ']' t)
    (hv : readValue? fuel depth t = some (v, u)) (hu : skipTrivia? false u = some (',' :: w))
    (hitems : readItems? fuel depth w = some (items, rest)) :
    readItems? (fuel + 1) depth s = some (v :: items, rest) := by
  rw [readItems?, hs]
  simp only [Option.bind_eq_bind, Option.bind_some]
  split
  · exact absurd rfl ht
  · simp [hv, hu, hitems]

/-- An item before the closing bracket. -/
theorem readItems?_last (fuel depth : Nat) (s t u rest : List Char) (v : Value)
    (hs : skipTrivia? false s = some t) (ht : Clear ']' t)
    (hv : readValue? fuel depth t = some (v, u)) (hu : skipTrivia? false u = some (']' :: rest)) :
    readItems? (fuel + 1) depth s = some ([v], rest) := by
  rw [readItems?, hs]
  simp only [Option.bind_eq_bind, Option.bind_some]
  split
  · exact absurd rfl ht
  · simp [hv, hu]

theorem clear_textChars {c : Char} (hquote : c ≠ '"') (htick : c ≠ '\'') (s rest : List Char) :
    Clear c (textChars s ++ rest) := by
  obtain ⟨mark, t, h, hmark⟩ := textChars_first s
  rw [h]
  rcases hmark with rfl | rfl
  · simpa [Clear] using Ne.symm hquote
  · simpa [Clear] using Ne.symm htick

/-- An item on a line of its own. -/
def itemChars (s : String) : List Char :=
  [' ', ' ', ' ', ' '] ++ textChars s.toList ++ [',', '\n']

/-- Every item takes the comma and the line feed before it; the last line feed stands before the
closing bracket. -/
theorem readItems?_lines (depth : Nat) (texts : List String) (rest : List Char) (fuel : Nat)
    (hfuel : texts.length + 1 < fuel) :
    readItems? fuel depth ('\n' :: (texts.flatMap itemChars ++ ']' :: rest)) =
      some (texts.map .text, rest) := by
  induction texts generalizing fuel with
  | nil =>
    obtain ⟨fuel, rfl⟩ : ∃ n, fuel = n + 1 := ⟨fuel - 1, by omega⟩
    exact readItems?_end fuel depth _ rest rfl
  | cons s texts ih =>
    obtain ⟨fuel, rfl⟩ : ∃ n, fuel = n + 2 := ⟨fuel - 2, by simp at hfuel; omega⟩
    have hitems := ih (fuel + 1) (by simp at hfuel; omega)
    have hshape : '\n' :: ((s :: texts).flatMap itemChars ++ ']' :: rest) =
        '\n' :: ' ' :: ' ' :: ' ' :: ' ' :: (textChars s.toList ++
          ',' :: '\n' :: (texts.flatMap itemChars ++ ']' :: rest)) := by
      simp [itemChars]
    have hskip := ((solid_textChars s.toList).append
      (',' :: '\n' :: (texts.flatMap itemChars ++ ']' :: rest))).skipTrivia?_eq
    have hvalue := readValue?_textChars fuel depth s
      (',' :: '\n' :: (texts.flatMap itemChars ++ ']' :: rest)) (by simp [Clear]) (by simp [Clear])
    rw [hshape]
    exact readItems?_comma (fuel + 1) depth _ _ _ _ rest _ _ hskip
      (clear_textChars (by decide) (by decide) _ _) hvalue rfl hitems

theorem length_le_flatMap_itemChars (texts : List String) :
    texts.length ≤ (texts.flatMap itemChars).length := by
  induction texts with
  | nil => simp
  | cons s texts ih =>
    simp only [List.flatMap_cons, List.length_append, List.length_cons, itemChars]
    omega

theorem readItems?_arrayChars (depth : Nat) (texts : List String) (rest : List Char) :
    ∃ t, arrayChars texts ++ rest = '[' :: t ∧ ∀ fuel, t.length + 2 ≤ fuel →
      readItems? fuel depth t = some (texts.map .text, rest) := by
  match texts with
  | [] =>
    refine ⟨_, rfl, fun fuel hfuel => ?_⟩
    obtain ⟨fuel, rfl⟩ : ∃ n, fuel = n + 1 := ⟨fuel - 1, by omega⟩
    exact readItems?_end fuel depth _ rest rfl
  | [s] =>
    refine ⟨textChars s.toList ++ ']' :: rest, by simp [arrayChars], fun fuel hfuel => ?_⟩
    obtain ⟨fuel, rfl⟩ : ∃ n, fuel = n + 2 := ⟨fuel - 2, by omega⟩
    exact readItems?_last (fuel + 1) depth _ _ _ rest _
      ((solid_textChars s.toList).append _).skipTrivia?_eq
      (clear_textChars (by decide) (by decide) _ _)
      (readValue?_textChars fuel depth s _ (by simp [Clear]) (by simp [Clear])) rfl
  | s :: s' :: texts =>
    have hlines : arrayChars (s :: s' :: texts) ++ rest =
        '[' :: '\n' :: ((s :: s' :: texts).flatMap itemChars ++ ']' :: rest) := by
      simp only [arrayChars, List.map_cons, List.flatMap_cons, List.flatMap_map, List.append_assoc,
        List.cons_append, List.nil_append, itemChars]
      rfl
    refine ⟨_, hlines, fun fuel hfuel => ?_⟩
    apply readItems?_lines
    have hlength := length_le_flatMap_itemChars (s :: s' :: texts)
    simp only [List.length_append, List.length_cons] at hfuel hlength ⊢
    omega

/-- A value that is read from a line's text, whatever follows the line. -/
structure Spelled (chars : List Char) (v : Value) : Prop where
  unspaced : ∀ rest, skipSpaces (chars ++ rest) = chars ++ rest
  read : ∀ rest fuel, (chars ++ '\n' :: rest).length + 2 ≤ fuel →
    readValue? fuel nestingLimit (chars ++ '\n' :: rest) = some (v, '\n' :: rest)

theorem spelled_bool (b : Bool) :
    Spelled (if b then "true".toList else "false".toList) (.bool b) := by
  cases b
  all_goals
    refine ⟨fun rest => rfl, fun rest fuel hfuel => ?_⟩
    obtain ⟨fuel, rfl⟩ : ∃ n, fuel = n + 1 := ⟨fuel - 1, by omega⟩
    rw [readValue?_scalar _ _ _ (by simp [Clear]) (by simp [Clear])]
    rfl

theorem spelled_text (s : String) : Spelled (textChars s.toList) (.text s) := by
  refine ⟨fun rest => ((solid_textChars _).append rest).skipSpaces_eq, fun rest fuel hfuel => ?_⟩
  obtain ⟨fuel, rfl⟩ : ∃ n, fuel = n + 1 := ⟨fuel - 1, by omega⟩
  exact readValue?_textChars fuel _ s _ (by simp [Clear]) (by simp [Clear])

theorem spelled_array (texts : List String) :
    Spelled (arrayChars texts) (.array (texts.map .text)) := by
  constructor
  · intro rest
    obtain ⟨t, ht, -⟩ := readItems?_arrayChars 0 texts rest
    rw [ht]
    rfl
  · intro rest fuel hfuel
    obtain ⟨t, ht, hread⟩ := readItems?_arrayChars 78 texts ('\n' :: rest)
    rw [ht] at hfuel ⊢
    obtain ⟨fuel, rfl⟩ : ∃ n, fuel = n + 1 := ⟨fuel - 1, by omega⟩
    rw [nestingLimit, readValue?, hread fuel (by simp at hfuel; omega)]
    rfl

/-! ## Lines -/

/-- A line that is read as a statement, whatever follows it. -/
structure Line (chars : List Char) (statement : Statement) : Prop where
  solid : Solid chars
  read : ∀ rest, readStatement? (chars ++ rest) = some (statement, rest)

theorem readLineEnd?_lineFeed (rest : List Char) : readLineEnd? ('\n' :: rest) = some rest := rfl

theorem line_assign {key : String} (hkey : BareKey key) {value : List Char} {v : Value}
    (hvalue : Spelled value v) : Line (lineChars key value) (.assign ⟨[], key⟩ v) := by
  have hsolid : Solid (lineChars key value) := by
    rw [lineChars, List.append_assoc]
    exact (solid_bare hkey.1 hkey.2).append _
  refine ⟨hsolid, fun rest => ?_⟩
  have hshape : lineChars key value ++ rest =
      key.toList ++ ' ' :: '=' :: ' ' :: (value ++ '\n' :: rest) := by
    simp [lineChars]
  have hread := readKey?_bareKey hkey (' ' :: '=' :: ' ' :: (value ++ '\n' :: rest))
    ('=' :: ' ' :: (value ++ '\n' :: rest)) (by simp [isBare]) rfl (by simp [Clear])
  obtain ⟨c, t, hkeyChars, hc⟩ := hkey.first
  rw [hshape]
  rw [hkeyChars, List.cons_append] at hread ⊢
  rw [readStatement?]
  · have hspaces : skipSpaces (' ' :: (value ++ '\n' :: rest)) = value ++ '\n' :: rest :=
      hvalue.unspaced ('\n' :: rest)
    have hassigned := hvalue.read rest (2 * (' ' :: (value ++ '\n' :: rest)).length + 2) (by
      simp only [List.length_cons]
      omega)
    rw [hread]
    simp only [Option.bind_eq_bind, Option.bind_some, hspaces, hassigned, readLineEnd?_lineFeed]
    rfl
  all_goals
    intros
    simp_all

/-- A header is read as its key is. -/
theorem line_bracketed {s : List Char} {key : Key} (hfirst : ∃ c t, s = c :: t ∧ c ≠ '[')
    (hkey : ∀ rest, readKey? (s ++ ']' :: rest) = some (key, ']' :: rest)) :
    Line ('[' :: s ++ [']', '\n']) (.header key) := by
  refine ⟨⟨'[', _, rfl, by simp⟩, fun rest => ?_⟩
  have hshape : '[' :: s ++ [']', '\n'] ++ rest = '[' :: (s ++ ']' :: '\n' :: rest) := by simp
  have hread := hkey ('\n' :: rest)
  obtain ⟨c, t, rfl, hc⟩ := hfirst
  rw [hshape]
  rw [List.cons_append] at hread ⊢
  rw [readStatement?]
  · rw [hread]
    simp [readLineEnd?_lineFeed]
  all_goals
    intros
    simp_all

theorem line_table {key : String} (hkey : BareKey key) :
    Line ('[' :: key.toList ++ [']', '\n']) (.header ⟨[], key⟩) :=
  line_bracketed hkey.first fun rest =>
    readKey?_bareKey hkey (']' :: rest) _ (by simp [isBare]) rfl (by simp [Clear])

theorem line_header {outer : String} (houter : BareKey outer) (inner : String) :
    Line (headerChars outer inner) (.header ⟨[outer], inner⟩) := by
  obtain ⟨c, t, hchars, hc⟩ := houter.first
  have hshape : headerChars outer inner =
      '[' :: (outer.toList ++ '.' :: keyChars inner.toList) ++ [']', '\n'] := by
    simp [headerChars]
  rw [hshape]
  apply line_bracketed
  · exact ⟨c, t ++ '.' :: keyChars inner.toList, by rw [hchars]; rfl, hc⟩
  · intro rest
    rw [List.append_assoc, List.cons_append]
    exact readKey?_dotted houter inner rest

/-! ## Documents -/

/-- A text of lines and empty lines, with the statements of the lines. -/
inductive Lines : List Char → List Statement → Prop
  | nil : Lines [] []
  | line {chars rest : List Char} {statement : Statement} {statements : List Statement} :
      Line chars statement → Lines rest statements →
      Lines (chars ++ rest) (statement :: statements)
  | gap {rest : List Char} {statements : List Statement} :
      Lines rest statements → Lines ('\n' :: rest) statements

theorem Line.lines {chars : List Char} {statement : Statement} (h : Line chars statement) :
    Lines chars [statement] := by
  have hlines := Lines.line h .nil
  rwa [List.append_nil] at hlines

theorem Lines.append {s t : List Char} {before after : List Statement} (hs : Lines s before)
    (ht : Lines t after) : Lines (s ++ t) (before ++ after) := by
  induction hs with
  | nil => exact ht
  | line hline _ ih =>
    rw [List.append_assoc]
    exact .line hline ih
  | gap _ ih => exact .gap ih

theorem Lines.flatMap {α : Type} {chars : α → List Char} {statements : α → List Statement}
    (h : ∀ a, Lines (chars a) (statements a)) (l : List α) :
    Lines (l.flatMap chars) (l.flatMap statements) := by
  induction l with
  | nil => exact .nil
  | cons a l ih =>
    rw [List.flatMap_cons, List.flatMap_cons]
    exact (h a).append ih

theorem readStatements?_solid (fuel : Nat) {s rest : List Char} {statement : Statement}
    {statements : List Statement} (hs : Solid s) (hread : readStatement? s = some (statement, rest))
    (hrest : readStatements? fuel rest = some statements) :
    readStatements? (fuel + 1) s = some (statement :: statements) := by
  rw [readStatements?, hs.skipTrivia?_eq]
  obtain ⟨c, t, rfl, -⟩ := hs
  simp [hread, hrest]

theorem Lines.read {s : List Char} {statements : List Statement} (h : Lines s statements) :
    ∀ fuel, s.length < fuel → readStatements? fuel s = some statements := by
  induction h with
  | nil =>
    intro fuel hfuel
    obtain ⟨fuel, rfl⟩ : ∃ n, fuel = n + 1 := ⟨fuel - 1, by omega⟩
    rfl
  | @line chars rest statement statements hline _ ih =>
    intro fuel hfuel
    obtain ⟨fuel, rfl⟩ : ∃ n, fuel = n + 1 := ⟨fuel - 1, by omega⟩
    have hlength : 0 < chars.length := by
      obtain ⟨c, t, rfl, -⟩ := hline.solid
      simp
    rw [List.length_append] at hfuel
    exact readStatements?_solid fuel (hline.solid.append rest) (hline.read rest)
      (ih fuel (by omega))
  | @gap rest statements _ ih =>
    intro fuel hfuel
    obtain ⟨fuel, rfl⟩ : ∃ n, fuel = n + 1 := ⟨fuel - 1, by omega⟩
    have hskip : readStatements? (fuel + 1) ('\n' :: rest) = readStatements? (fuel + 1) rest := by
      rw [readStatements?, readStatements?, skipTrivia?]
    rw [hskip]
    exact ih (fuel + 1) (by simp at hfuel; omega)

/-- A document is read as what its statements are put together to. -/
theorem Lines.read?_eq {s : List Char} {statements : List Statement} {d : Draft}
    (h : Lines s statements) (hmark : Clear '\uFEFF' s)
    (hfold : statements.foldlM Draft.add Draft.empty = some d) :
    read? (String.ofList s) = some (memberValues d.root) := by
  have hread := h.read (s.length + 1) (Nat.lt_succ_self _)
  rw [read?, String.toList_ofList]
  split
  · exact absurd rfl hmark
  · rw [hread]
    simp only [Option.bind_eq_bind, Option.bind_some, hfold]
    rfl

end Gazetteer.Toml
