import Gazetteer.Proofs.Text.Split
import Gazetteer.Proofs.Xml.Reader

/-!
# Documents are read back

What the writer makes of an element is read as the element: tags with their attributes, escaped data
and sections as they were before, and nothing of the lines and margins between elements.  Sections
are the delicate part: the mark that ends one is divided wherever it stands in the data, so reading
never ends a section early, and what the sections hold is the data again.

    r.read (s ++ t) through r.read s                                              (read_append)
    unescape? (s.flatMap escapeChar) = some s                                     (unescape?_escape)
    a section reads divide s ++ "]]>" as s, apart from marks that straddle        (read_divide)
    e.Proper → (e.render depth) adds e.node to the open element                   (read_render)
    Node.ofText? d.render = some d.root.node                                      (ofText?_render)
-/

namespace Gazetteer.Xml

/-! ## Escapes -/

/-- The characters that are escaped, and the others. -/
theorem escapeChar_cases (c : Char) :
    (c = '<' ∨ c = '>' ∨ c = '&' ∨ c = '\'' ∨ c = '"') ∨
      (c ≠ '<' ∧ c ≠ '>' ∧ c ≠ '&' ∧ c ≠ '"') ∧ escapeChar c = [c] := by
  by_cases hspecial : c = '<' ∨ c = '>' ∨ c = '&' ∨ c = '\'' ∨ c = '"'
  · exact .inl hspecial
  · simp only [not_or] at hspecial
    obtain ⟨hlt, hgt, hamp, hapos, hquot⟩ := hspecial
    refine .inr ⟨⟨hlt, hgt, hamp, hquot⟩, ?_⟩
    rw [escapeChar, if_neg hlt, if_neg hgt, if_neg hamp, if_neg hapos, if_neg hquot]

theorem unescape?_escapeChar (c : Char) (s : List Char) :
    unescape? (escapeChar c ++ s) = (unescape? s).map (c :: ·) := by
  obtain (rfl | rfl | rfl | rfl | rfl) | ⟨⟨hlt, -, hamp, -⟩, hplain⟩ := escapeChar_cases c
  case inr =>
    rw [hplain]
    show unescape? (c :: s) = _
    rw [unescape?, if_neg (by simp [hamp, hlt])]
    all_goals
      intro t heq
      exact absurd heq hamp
  all_goals rfl

theorem unescape?_escape (s : List Char) : unescape? (s.flatMap escapeChar) = some s := by
  induction s with
  | nil => rfl
  | cons c s ih =>
    rw [List.flatMap_cons, unescape?_escapeChar, ih]
    rfl

/-- Escaped data has no character that means something to the reader. -/
theorem not_special_of_mem_escape {s : List Char} {c : Char} (h : c ∈ s.flatMap escapeChar) :
    c ≠ '<' ∧ c ≠ '>' ∧ c ≠ '"' := by
  obtain ⟨d, -, hc⟩ := List.mem_flatMap.mp h
  have hfree {mark : Char} (hmark : mark ∉ escapeChar d) : c ≠ mark := by
    rintro rfl
    exact hmark hc
  obtain (rfl | rfl | rfl | rfl | rfl) | ⟨⟨hlt, hgt, -, hquot⟩, hplain⟩ := escapeChar_cases d
  case inr =>
    rw [hplain, List.mem_singleton] at hc
    rw [hc]
    exact ⟨hlt, hgt, hquot⟩
  all_goals exact ⟨hfree (by decide), hfree (by decide), hfree (by decide)⟩

namespace Reader

/-! ## Steps -/

theorem read_cons (r : Reader) (c : Char) (s : List Char) :
    r.read (c :: s) = (r.step c).bind fun r => r.read s := List.foldlM_cons

theorem read_append (r : Reader) (s t : List Char) :
    r.read (s ++ t) = (r.read s).bind fun r => r.read t := List.foldlM_append

theorem read_trans {r r' r'' : Reader} {s t : List Char} (h : r.read s = some r')
    (h' : r'.read t = some r'') : r.read (s ++ t) = some r'' := by
  rw [read_append, h, Option.bind_some, h']

/-- A step that keeps its mode, followed by others. -/
theorem read_of_step {r r' r'' : Reader} {c : Char} {s : List Char} (h : r.step c = some r')
    (h' : r'.read s = some r'') : r.read (c :: s) = some r'' := by
  rw [read_cons, h, Option.bind_some, h']

variable (f : Frame) (o : List Frame)

theorem read_text (seen s : List Char) (h : '<' ∉ s) :
    read ⟨f, o, .text seen⟩ s = some ⟨f, o, .text (s.reverse ++ seen)⟩ := by
  induction s generalizing seen with
  | nil => rfl
  | cons c s ih =>
    obtain ⟨hc, hs⟩ := List.ne_and_not_mem_of_not_mem_cons h
    have hstep : step ⟨f, o, .text seen⟩ c = some ⟨f, o, .text (c :: seen)⟩ := by
      unfold step
      dsimp only
      rw [if_neg (Ne.symm hc)]
    rw [read_of_step hstep (ih (c :: seen) hs), List.reverse_cons, List.append_assoc]
    rfl

/-- Escaped data, up to the next tag. -/
theorem read_escaped (s : List Char) :
    read ⟨f, o, .text []⟩ (s.flatMap escapeChar ++ ['<']) =
      some ⟨f.addText s, o, .tag false []⟩ := by
  have htext := read_text f o [] (s.flatMap escapeChar) fun h =>
    (not_special_of_mem_escape h).1 rfl
  apply read_trans htext
  rw [read_cons, step]
  dsimp only
  rw [if_pos rfl, List.append_nil, List.reverse_reverse, unescape?_escape]
  rfl

/-- Characters inside a tag. -/
theorem read_tag (quoted : Bool) (seen s : List Char)
    (hs : ∀ c ∈ s, c ≠ '<' ∧ c ≠ '"' ∧ (quoted = false → c ≠ '>'))
    (hmark : seen = [] → s.head? ≠ some '!') :
    read ⟨f, o, .tag quoted seen⟩ s = some ⟨f, o, .tag quoted (s.reverse ++ seen)⟩ := by
  induction s generalizing seen with
  | nil => rfl
  | cons c s ih =>
    obtain ⟨hlt, hquote, hgt⟩ := hs c (by simp)
    have hstep : step ⟨f, o, .tag quoted seen⟩ c = some ⟨f, o, .tag quoted (c :: seen)⟩ := by
      unfold step
      dsimp only
      rw [if_neg hlt, if_neg hquote, if_neg (by simpa [and_comm, imp_not_comm] using hgt),
        if_neg (fun h => hmark h.2 (by rw [h.1]; rfl))]
    have hrest := ih (c :: seen) (fun d hd => hs d (List.mem_cons_of_mem _ hd))
      (fun h => nomatch h)
    rw [read_of_step hstep hrest, List.reverse_cons, List.append_assoc]
    rfl

theorem read_quote (quoted : Bool) (seen : List Char) :
    read ⟨f, o, .tag quoted seen⟩ ['"'] = some ⟨f, o, .tag (!quoted) ('"' :: seen)⟩ := rfl

end Reader

/-! ## Tags -/

/-- A name that the reader knows as one. -/
def IsName (name : String) : Prop := name.toList ≠ [] ∧ ∀ c ∈ name.toList, isNameChar c = true

instance (name : String) : Decidable (IsName name) :=
  decidable_of_iff (name.toList ≠ [] ∧ name.toList.all isNameChar = true)
    (by rw [IsName, List.all_eq_true])

theorem ne_of_isNameChar {c d : Char} (h : isNameChar c = true) (hd : isNameChar d = false) :
    c ≠ d := by
  rintro rfl
  rw [h] at hd
  cases hd

theorem isSpace_of_isNameChar {c : Char} (h : isNameChar c = true) : isSpace c = false := by
  have hspace (d : Char) (hd : isNameChar d = false) : decide (c = d) = false :=
    decide_eq_false (ne_of_isNameChar h hd)
  simp [isSpace, hspace ' ' rfl, hspace '\t' rfl, hspace '\n' rfl, hspace '\r' rfl]

/-- Names may stand inside a tag, between quotes or not. -/
theorem inTag_of_isNameChar {c : Char} (h : isNameChar c = true) (quoted : Bool) :
    c ≠ '<' ∧ c ≠ '"' ∧ (quoted = false → c ≠ '>') :=
  ⟨ne_of_isNameChar h rfl, ne_of_isNameChar h rfl, fun _ => ne_of_isNameChar h rfl⟩

/-- What stands before the quotes of a value. -/
def leadChars (key : String) : List Char := ' ' :: key.toList ++ ['=']

/-- An attribute inside a tag. -/
def attributeChars (a : String × String) : List Char :=
  leadChars a.1 ++ '"' :: (a.2.toList.flatMap escapeChar ++ ['"'])

/-- What stands between the brackets of an opening tag. -/
def tagChars (name : String) (attributes : List (String × String)) : List Char :=
  name.toList ++ attributes.flatMap attributeChars

theorem toList_tagText (name : String) (attributes : List (String × String)) :
    (tagText name attributes).toList = tagChars name attributes := by
  unfold tagText tagChars
  rw [String.toList_append, String.toList_join, List.flatMap_map]
  congr 2
  funext a
  simp [attributeChars, leadChars, escape]

theorem key?_leadChars {key : String} (h : IsName key) : key? (leadChars key) = some key := by
  have hstop : ∀ c ∈ ['='].head?, isNameChar c = false := by simp [isNameChar]
  have htake := Text.takeWhile_append_stop key.toList hstop h.2
  have hdrop := Text.dropWhile_append_stop key.toList hstop h.2
  have hfront : (leadChars key).dropWhile isSpace = key.toList ++ ['='] := by
    obtain ⟨c, s, hkey⟩ := List.exists_cons_of_ne_nil h.1
    have hc := isSpace_of_isNameChar (h.2 c (by simp [hkey]))
    rw [leadChars, List.cons_append, List.dropWhile_cons_of_pos rfl, hkey, List.cons_append,
      List.dropWhile_cons_of_neg (by simp [hc])]
  unfold key?
  dsimp only
  rw [hfront, htake, hdrop, if_pos ⟨rfl, h.1, rfl⟩, String.ofList_toList]

/-- The attributes of a tag are found between its quotes. -/
theorem attributes?_attributeChars (attributes : List (String × String))
    (h : ∀ a ∈ attributes, IsName a.1) :
    attributes? (Text.splitAt '"' (attributes.flatMap attributeChars)) = some attributes := by
  induction attributes with
  | nil => rfl
  | cons a rest ih =>
    obtain ⟨key, value⟩ := a
    have hkey : IsName key := h (key, value) (by simp)
    have hlead : '"' ∉ leadChars key := by
      intro hmem
      simp only [leadChars, List.mem_append, List.mem_cons, List.not_mem_nil, or_false] at hmem
      obtain (heq | hname) | heq := hmem
      · exact absurd heq (by decide)
      · exact ne_of_isNameChar (hkey.2 _ hname) rfl rfl
      · exact absurd heq (by decide)
    have hvalue : '"' ∉ value.toList.flatMap escapeChar := fun hmem =>
      (not_special_of_mem_escape hmem).2.2 rfl
    have hchars : (((key, value) :: rest).flatMap attributeChars) =
        leadChars key ++ '"' :: (value.toList.flatMap escapeChar ++
          '"' :: rest.flatMap attributeChars) := by
      simp [attributeChars]
    rw [hchars, Text.splitAt_append _ _ _ hlead, Text.splitAt_append _ _ _ hvalue,
      attributes?, key?_leadChars hkey, unescape?_escape, ih fun a ha => h a (List.mem_cons_of_mem _ ha)]
    simp

/-- A tag with names for its keys, none of them twice. -/
structure IsTag (name : String) (attributes : List (String × String)) : Prop where
  name : IsName name
  keys : ∀ a ∈ attributes, IsName a.1
  distinct : (attributes.map (·.1)).Nodup

theorem ofTag?_tagChars {name : String} {attributes : List (String × String)}
    (h : IsTag name attributes) :
    Frame.ofTag? (tagChars name attributes) =
      some { name := name, attributes := attributes } := by
  have hrest : ∀ c ∈ (attributes.flatMap attributeChars).head?, isNameChar c = false := by
    cases attributes with
    | nil => simp
    | cons a rest => simp [attributeChars, leadChars, isNameChar]
  have htake := Text.takeWhile_append_stop name.toList hrest h.name.2
  have hdrop := Text.dropWhile_append_stop name.toList hrest h.name.2
  unfold Frame.ofTag? tagChars
  dsimp only
  rw [htake, hdrop, attributes?_attributeChars attributes h.keys]
  simp [h.name.1, h.distinct]

namespace Reader

variable (f : Frame) (o : List Frame)

theorem read_attributes (attributes : List (String × String)) (h : ∀ a ∈ attributes, IsName a.1)
    (seen : List Char) (hseen : seen ≠ []) :
    read ⟨f, o, .tag false seen⟩ (attributes.flatMap attributeChars) =
      some ⟨f, o, .tag false ((attributes.flatMap attributeChars).reverse ++ seen)⟩ := by
  induction attributes generalizing seen with
  | nil => rfl
  | cons a rest ih =>
    obtain ⟨key, value⟩ := a
    have hlead := read_tag f o false seen (leadChars key) (by
      intro c hc
      simp only [leadChars, List.mem_append, List.mem_cons, List.not_mem_nil, or_false] at hc
      obtain (rfl | hname) | rfl := hc
      · decide
      · exact inTag_of_isNameChar ((h (key, value) (by simp)).2 c hname) false
      · decide) (fun hnil => absurd hnil hseen)
    have hvalue := read_tag f o true ('"' :: ((leadChars key).reverse ++ seen))
      (value.toList.flatMap escapeChar) (by
        intro c hc
        have hplain := not_special_of_mem_escape hc
        exact ⟨hplain.1, hplain.2.2, fun hfalse => nomatch hfalse⟩) (fun hnil => nomatch hnil)
    have hquoted := read_trans (read_trans hlead (read_quote f o false _))
      (read_trans hvalue (read_quote f o true _))
    have hrest := read_trans hquoted (ih (fun a ha => h a (List.mem_cons_of_mem _ ha)) _ (by simp))
    simpa [attributeChars] using hrest

variable {name : String} {attributes : List (String × String)}

theorem read_tagChars (h : IsTag name attributes) :
    read ⟨f, o, .tag false []⟩ (tagChars name attributes) =
      some ⟨f, o, .tag false (tagChars name attributes).reverse⟩ := by
  have hname := read_tag f o false [] name.toList
    (fun c hc => inTag_of_isNameChar (h.name.2 c hc) false) (by
      intro _ hmark
      have hfirst := h.name.2 _ (List.mem_of_mem_head? hmark)
      exact ne_of_isNameChar hfirst rfl rfl)
  have hattributes := read_attributes f o attributes h.keys (name.toList.reverse ++ []) (by
    simpa using h.name.1)
  have hread := read_trans hname hattributes
  simpa [tagChars] using hread

/-- A tag that begins with a name opens an element or is one. -/
theorem endTag?_name (r : Reader) {c : Char} {body : List Char} (hc : isNameChar c = true) :
    r.endTag? (c :: body) =
      if (c :: body).getLast? = some '/' then
        (Frame.ofTag? (c :: body).dropLast).map fun f =>
          ⟨r.frame.addChild f.node, r.outer, .text []⟩
      else (Frame.ofTag? (c :: body)).map fun f => ⟨f, r.frame :: r.outer, .text []⟩ := by
  rw [endTag?]
  · intro s heq
    exact absurd (List.cons.inj heq).1 (ne_of_isNameChar hc rfl)
  · intro s heq
    exact absurd (List.cons.inj heq).1 (ne_of_isNameChar hc rfl)

theorem tagChars_cons (h : IsTag name attributes) :
    ∃ c body, tagChars name attributes = c :: body ∧ isNameChar c = true := by
  obtain ⟨c, s, hname⟩ := List.exists_cons_of_ne_nil h.name.1
  exact ⟨c, _, by rw [tagChars, hname, List.cons_append], h.name.2 c (by simp [hname])⟩

theorem read_end (seen : List Char) :
    read ⟨f, o, .tag false seen⟩ ['>'] = endTag? ⟨f, o, .tag false seen⟩ seen.reverse := by
  have hstep : step ⟨f, o, .tag false seen⟩ '>' =
      endTag? ⟨f, o, .tag false seen⟩ seen.reverse := rfl
  rw [read_cons, hstep]
  exact Option.bind_fun_some _

theorem read_empty (h : IsTag name attributes) :
    read ⟨f, o, .tag false []⟩ (tagChars name attributes ++ ['/', '>']) =
      some ⟨f.addChild (.element name attributes "" []), o, .text []⟩ := by
  obtain ⟨c, body, hchars, hc⟩ := tagChars_cons h
  have hslash := read_tag f o false (tagChars name attributes).reverse ['/'] (by simp) (by
    intro hnil
    rw [hchars] at hnil
    simp at hnil)
  have htag := read_trans (read_tagChars f o h) hslash
  rw [← List.reverse_append] at htag
  have hend := read_end f o (tagChars name attributes ++ ['/']).reverse
  rw [List.reverse_reverse, hchars, List.cons_append, endTag?_name _ hc, ← List.cons_append,
    ← hchars, if_pos (by simp), List.dropLast_concat, ofTag?_tagChars h] at hend
  have hread := read_trans htag hend
  simpa [Frame.node] using hread

theorem read_open (h : IsTag name attributes) :
    read ⟨f, o, .tag false []⟩ (tagChars name attributes ++ ['>']) =
      some ⟨{ name := name, attributes := attributes }, f :: o, .text []⟩ := by
  obtain ⟨c, body, hchars, hc⟩ := tagChars_cons h
  have hlast : (tagChars name attributes).getLast? ≠ some '/' := by
    -- The last character is one of the name, or a quote.
    obtain hnone | ⟨init, a, hsnoc⟩ := attributes.eq_nil_or_concat
    · intro hslash
      rw [hnone, tagChars, List.flatMap_nil, List.append_nil] at hslash
      exact ne_of_isNameChar (h.name.2 _ (List.mem_of_getLast? hslash)) rfl rfl
    · have hquote : tagChars name attributes = name.toList ++ init.flatMap attributeChars ++
          leadChars a.1 ++ '"' :: a.2.toList.flatMap escapeChar ++ ['"'] := by
        simp [tagChars, hsnoc, attributeChars]
      rw [hquote, List.getLast?_concat]
      decide
  have hend := read_end f o (tagChars name attributes).reverse
  rw [List.reverse_reverse, hchars, endTag?_name _ hc, ← hchars, if_neg hlast,
    ofTag?_tagChars h] at hend
  exact read_trans (read_tagChars f o h) hend

theorem read_close (f' : Frame) (h : IsName f'.name) :
    read ⟨f', f :: o, .tag false []⟩ ('/' :: f'.name.toList ++ ['>']) =
      some ⟨f.addChild f'.node, o, .text []⟩ := by
  have hslash := read_tag f' (f :: o) false [] ('/' :: f'.name.toList) (by
    intro c hc
    obtain rfl | hname := List.mem_cons.mp hc
    · decide
    · exact inTag_of_isNameChar (h.2 c hname) false) (by simp)
  have hend := read_end f' (f :: o) ('/' :: f'.name.toList).reverse
  rw [List.reverse_reverse, endTag?] at hend
  dsimp only at hend
  rw [if_pos rfl] at hend
  rw [List.append_nil] at hslash
  exact read_trans hslash hend

/-! ## Sections -/

theorem divide_mark (s : List Char) :
    divide (']' :: ']' :: '>' :: s) = "]]]]><![CDATA[>".toList ++ divide s := rfl

theorem divide_cons {c : Char} {s : List Char} (h : ∀ t, c = ']' → s = ']' :: '>' :: t → False) :
    divide (c :: s) = c :: divide s := by
  rw [divide.eq_def]
  split
  · next heq =>
    obtain ⟨hc, hs⟩ := List.cons.inj heq
    exact (h _ hc hs).elim
  · next heq =>
    obtain ⟨rfl, rfl⟩ := List.cons.inj heq
    rfl
  · next heq => cases heq

/-- The end mark does not lie partly in what a section has seen and partly in what follows. -/
def Apart (seen s : List Char) : Prop :=
  ¬ (seen.take 2 = [']', ']'] ∧ s.take 1 = ['>']) ∧
    ¬ (seen.take 1 = [']'] ∧ s.take 2 = [']', '>'])

theorem Apart.next {seen s : List Char} {c : Char} (h : Apart seen (c :: s))
    (hne : ∀ t, c = ']' → s = ']' :: '>' :: t → False) : Apart (c :: seen) s := by
  constructor
  · rintro ⟨hmark, hs⟩
    obtain ⟨rfl, hseen⟩ := List.cons.inj hmark
    exact h.2 ⟨hseen, by rw [List.take_succ_cons, hs]⟩
  · rintro ⟨hmark, hs⟩
    obtain ⟨rfl, -⟩ := List.cons.inj hmark
    have hrest : s = ']' :: '>' :: s.drop 2 :=
      (List.take_append_drop 2 s).symm.trans (by rw [hs]; rfl)
    exact hne _ rfl hrest

theorem addText_nil : f.addText [] = f := by
  unfold Frame.addText
  simp

theorem read_sectionStart :
    read ⟨f, o, .text []⟩ "<![CDATA[".toList = some ⟨f, o, .section []⟩ := by
  have hread : read ⟨f, o, .text []⟩ "<![CDATA[".toList =
      some ⟨f.addText [], o, .section []⟩ := rfl
  rw [hread, addText_nil]

theorem step_section (seen : List Char) (c : Char)
    (h : ¬ (seen.take 2 = [']', ']'] ∧ c = '>')) :
    step ⟨f, o, .section seen⟩ c = some ⟨f, o, .section (c :: seen)⟩ := by
  unfold step
  dsimp only
  split
  · next seen' => exact absurd ⟨rfl, rfl⟩ h
  · rfl

theorem step_bracket (seen : List Char) :
    step ⟨f, o, .section seen⟩ ']' = some ⟨f, o, .section (']' :: seen)⟩ :=
  step_section f o seen ']' (by simp)

theorem read_sectionEnd (seen : List Char) :
    read ⟨f, o, .section seen⟩ "]]>".toList = some ⟨f.addSection seen.reverse, o, .text []⟩ :=
  read_of_step (step_bracket f o _) (read_of_step (step_bracket f o _) rfl)

theorem addSection_addSection (s t : List Char) :
    (f.addSection s).addSection t = f.addSection (s ++ t) := by
  simp [Frame.addSection]

/-- Divided data is read as the data, up to the end of its last section. -/
theorem read_divide (seen s : List Char) (h : Apart seen s) :
    read ⟨f, o, .section seen⟩ (divide s ++ "]]>".toList) =
      some ⟨f.addSection (seen.reverse ++ s), o, .text []⟩ := by
  induction s using divide.induct generalizing f seen with
  | case1 s ih =>
    -- Two brackets and the end of this section, then a new one with the rest of the mark.
    have hend := read_sectionEnd f o (']' :: ']' :: seen)
    have hstart := read_sectionStart (f.addSection (']' :: ']' :: seen).reverse) o
    have hmark := step_section (f.addSection (']' :: ']' :: seen).reverse) o [] '>' (by simp)
    have hrest := ih (f.addSection (']' :: ']' :: seen).reverse) ['>'] (by simp [Apart])
    have hread := read_of_step (step_bracket f o seen) (read_of_step (step_bracket f o _)
      (read_trans hend (read_trans hstart (read_of_step hmark hrest))))
    have hchars : divide (']' :: ']' :: '>' :: s) ++ "]]>".toList = ']' :: ']' ::
        ("]]>".toList ++ ("<![CDATA[".toList ++ '>' :: (divide s ++ "]]>".toList))) := by
      rw [divide_mark, List.append_assoc]
      simp
    have hdata : (']' :: ']' :: seen).reverse ++ (['>'].reverse ++ s) =
        seen.reverse ++ ']' :: ']' :: '>' :: s := by
      simp
    rw [hchars, hread, addSection_addSection, hdata]
  | case2 c s hne ih =>
    have hstep := step_section f o seen c (fun hmark => h.1 ⟨hmark.1, by rw [hmark.2]; rfl⟩)
    have hrest := ih f (c :: seen) (h.next hne)
    have hread := read_of_step hstep hrest
    rw [divide_cons hne, List.cons_append, hread, List.reverse_cons, List.append_assoc]
    rfl
  | case3 =>
    have hnil : divide [] = [] := rfl
    rw [hnil, List.nil_append, List.append_nil, read_sectionEnd]

end Reader

/-! ## Elements -/

mutual

/-- An element that the reader can tell: its tags are tags, and it has children if it is for them.
-/
def Element.Proper : Element → Prop
  | .empty name attributes => IsTag name attributes
  | .text name _ => IsName name
  | .sections name _ => IsName name
  | .parent name attributes children => IsTag name attributes ∧ children ≠ [] ∧ AllProper children

def AllProper : List Element → Prop
  | [] => True
  | e :: rest => e.Proper ∧ AllProper rest

end

mutual

/-- What an element is to a reader. -/
def Element.node : Element → Node
  | .empty name attributes => .element name attributes "" []
  | .text name data => .element name [] data []
  | .sections name data => .element name [] data []
  | .parent name attributes children => .element name attributes "" (nodes children)

def nodes : List Element → List Node
  | [] => []
  | e :: rest => e.node :: nodes rest

end

theorem isTag_of_isName {name : String} (h : IsName name) : IsTag name [] :=
  ⟨h, by simp, by simp⟩

theorem tagChars_nil (name : String) : tagChars name [] = name.toList := List.append_nil _

theorem toList_pushn (s : String) (c : Char) (n : Nat) :
    (s.pushn c n).toList = s.toList ++ List.replicate n c := by
  induction n with
  | zero => exact (List.append_nil _).symm
  | succ n ih =>
    have hpush : s.pushn c (n + 1) = (s.pushn c n).push c := rfl
    rw [hpush, String.toList_push, ih, List.append_assoc, List.replicate_succ']

theorem mem_margin {depth : Nat} {c : Char} (h : c ∈ (margin depth).toList) :
    c = '\n' ∨ c = ' ' := by
  rw [margin, String.toList_append, toList_pushn] at h
  obtain h | h := List.mem_append.mp h
  · exact .inl (List.mem_singleton.mp h)
  · exact .inr (List.eq_of_mem_replicate h)

/-- Margins are written as they would be escaped. -/
theorem escape_margin (depth : Nat) :
    (margin depth).toList.flatMap escapeChar = (margin depth).toList := by
  have hself (s : List Char) (h : ∀ c ∈ s, escapeChar c = [c]) : s.flatMap escapeChar = s := by
    induction s with
    | nil => rfl
    | cons c s ih =>
      rw [List.flatMap_cons, h c (by simp), ih fun d hd => h d (List.mem_cons_of_mem _ hd)]
      rfl
  apply hself
  intro c hc
  obtain rfl | rfl := mem_margin hc
  · rfl
  · rfl

theorem Frame.addText_margin (f : Frame) (depth : Nat) :
    f.addText (margin depth).toList = { f with data := f.data ++ (margin depth).toList } := by
  have hspace : (margin depth).toList.all isSpace = true := by
    rw [List.all_eq_true]
    intro c hc
    obtain rfl | rfl := mem_margin hc
    · rfl
    · rfl
  unfold addText
  rw [if_pos hspace]

namespace Reader

variable (o : List Frame)

/-- A line begins, and a tag on it. -/
theorem read_margin (f : Frame) (depth : Nat) :
    read ⟨f, o, .text []⟩ ((margin depth).toList ++ ['<']) =
      some ⟨f.addText (margin depth).toList, o, .tag false []⟩ := by
  have hread := read_escaped f o (margin depth).toList
  rwa [escape_margin] at hread

/-- Data between the tags of an element, in one piece. -/
theorem read_textElement (f : Frame) {name : String} (h : IsName name) (data : List Char) :
    read ⟨f, o, .tag false []⟩ (name.toList ++ '>' :: (data.flatMap escapeChar ++
      '<' :: ('/' :: name.toList ++ ['>']))) =
        some ⟨f.addChild (.element name [] (String.ofList data) []), o, .text []⟩ := by
  have hopen := read_open f o (isTag_of_isName h)
  rw [tagChars_nil] at hopen
  have hdata := read_escaped ⟨name, [], [], [], []⟩ (f :: o) data
  have hclose := read_close f o (Frame.addText ⟨name, [], [], [], []⟩ data) h
  have hread := read_trans hopen (read_trans hdata hclose)
  rw [List.append_assoc, List.append_assoc] at hread
  exact hread

/-- Sections between the tags of an element. -/
theorem read_sectionsElement (f : Frame) {name : String} (h : IsName name) (data : List Char) :
    read ⟨f, o, .tag false []⟩ (name.toList ++ '>' :: ("<![CDATA[".toList ++ (divide data ++
      "]]>".toList) ++ '<' :: ('/' :: name.toList ++ ['>']))) =
        some ⟨f.addChild (.element name [] (String.ofList data) []), o, .text []⟩ := by
  have hopen := read_open f o (isTag_of_isName h)
  rw [tagChars_nil] at hopen
  have hstart := read_sectionStart ⟨name, [], [], [], []⟩ (f :: o)
  have hdata := read_divide ⟨name, [], [], [], []⟩ (f :: o) [] data (by simp [Apart])
  have hnext := read_escaped (Frame.addSection ⟨name, [], [], [], []⟩ data) (f :: o) []
  rw [addText_nil] at hnext
  have hclose := read_close f o (Frame.addSection ⟨name, [], [], [], []⟩ data) h
  have hread := read_trans hopen (read_trans (read_trans hstart hdata) (read_trans hnext hclose))
  rw [List.append_assoc] at hread
  exact hread

end Reader

theorem toList_sectionsText (s : String) :
    (sectionsText s).toList = "<![CDATA[".toList ++ (divide s.toList ++ "]]>".toList) := by
  unfold sectionsText
  rw [String.toList_append, String.toList_append, List.append_assoc,
    @String.toList_ofList (divide s.toList)]

theorem nodes_ne_nil {es : List Element} (h : es ≠ []) : nodes es ≠ [] := by
  cases es with
  | nil => exact absurd rfl h
  | cons e rest => exact List.cons_ne_nil _ _

namespace Reader

mutual

/-- An element in its lines is read as a child of the open element. -/
theorem read_render (e : Element) (depth : Nat) (h : e.Proper) (f : Frame) (o : List Frame) :
    read ⟨f, o, .text []⟩ (e.render depth).toList =
      some ⟨(f.addText (margin depth).toList).addChild e.node, o, .text []⟩ := by
  have hmargin := read_margin o f depth
  cases e with
  | empty name attributes =>
    have hchars : (Element.render depth (.empty name attributes)).toList =
        (margin depth).toList ++ ['<'] ++ (tagChars name attributes ++ ['/', '>']) := by
      simp [Element.render, toList_tagText]
    rw [hchars]
    exact read_trans hmargin (read_empty _ o h)
  | text name data =>
    have hchars : (Element.render depth (.text name data)).toList =
        (margin depth).toList ++ ['<'] ++ (name.toList ++ '>' ::
          (data.toList.flatMap escapeChar ++ '<' :: ('/' :: name.toList ++ ['>']))) := by
      simp [Element.render, escape]
    have hread := read_trans hmargin (read_textElement o _ h data.toList)
    rw [String.ofList_toList] at hread
    rw [hchars]
    exact hread
  | sections name data =>
    have hchars : (Element.render depth (.sections name data)).toList =
        (margin depth).toList ++ ['<'] ++ (name.toList ++ '>' :: ("<![CDATA[".toList ++
          (divide data.toList ++ "]]>".toList) ++ '<' :: ('/' :: name.toList ++ ['>']))) := by
      simp [Element.render, toList_sectionsText]
    have hread := read_trans hmargin (read_sectionsElement o _ h data.toList)
    rw [String.ofList_toList] at hread
    rw [hchars]
    exact hread
  | parent name attributes children =>
    obtain ⟨htag, hne, hchildren⟩ := h
    have hchars : (Element.render depth (.parent name attributes children)).toList =
        (margin depth).toList ++ ['<'] ++ (tagChars name attributes ++ ['>'] ++
          ((renderAll (depth + 1) children).toList ++ ((margin depth).toList ++ ['<'] ++
            ('/' :: name.toList ++ ['>'])))) := by
      simp [Element.render, toList_tagText]
    have hopen := read_open (f.addText (margin depth).toList) o htag
    obtain ⟨layout, hinner⟩ := read_renderAll children (depth + 1) hchildren
      ⟨name, attributes, [], [], []⟩ (f.addText (margin depth).toList :: o)
    have hlast := read_margin (f.addText (margin depth).toList :: o)
      ⟨name, attributes, layout, [], nodes children⟩ depth
    rw [Frame.addText_margin ⟨name, attributes, layout, [], nodes children⟩] at hlast
    have hclose := read_close (f.addText (margin depth).toList) o
      ⟨name, attributes, layout ++ (margin depth).toList, [], nodes children⟩ htag.name
    -- Between its children the element has layout alone, which does not count.
    have hnode :
        Frame.node ⟨name, attributes, layout ++ (margin depth).toList, [], nodes children⟩ =
          (Element.parent name attributes children).node := by
      have hempty : (nodes children).isEmpty = false := by
        simpa using nodes_ne_nil hne
      rw [Frame.node, hempty, Element.node]
      rfl
    rw [hnode] at hclose
    rw [hchars]
    exact read_trans hmargin (read_trans hopen (read_trans hinner (read_trans hlast hclose)))

/-- Elements one after the other are read as children; between them there is only layout. -/
theorem read_renderAll (es : List Element) (depth : Nat) (h : AllProper es) (f : Frame)
    (o : List Frame) : ∃ layout, read ⟨f, o, .text []⟩ (renderAll depth es).toList =
      some ⟨{ f with data := f.data ++ layout, children := f.children ++ nodes es }, o,
        .text []⟩ := by
  cases es with
  | nil =>
    refine ⟨[], ?_⟩
    rw [nodes, List.append_nil, List.append_nil]
    rfl
  | cons e rest =>
    obtain ⟨he, hrest⟩ := h
    have hfirst := read_render e depth he f o
    rw [Frame.addText_margin] at hfirst
    obtain ⟨layout, hlater⟩ := read_renderAll rest depth hrest
      (Frame.addChild { f with data := f.data ++ (margin depth).toList } e.node) o
    refine ⟨(margin depth).toList ++ layout, ?_⟩
    rw [renderAll, String.toList_append, read_trans hfirst hlater]
    simp [Frame.addChild, nodes]

end

end Reader

/-! ## Documents -/

/-- The declaration of a document. -/
def declaration (standalone : Option String) : String :=
  "<?xml version=\"1.0\" encoding=\"UTF-8\"" ++ (match standalone with
    | some answer => " standalone=\"" ++ answer ++ "\""
    | none => "") ++ "?>"

/-- The answers to whether a document stands alone. -/
def IsAnswer (standalone : Option String) : Prop := standalone ∈ [none, some "yes", some "no"]

namespace Reader

theorem read_declaration {standalone : Option String} (h : IsAnswer standalone) :
    start.read (declaration standalone).toList = some start := by
  unfold IsAnswer at h
  simp only [List.mem_cons, List.not_mem_nil, or_false] at h
  obtain rfl | rfl | rfl := h
  · rfl
  · rfl
  · rfl

end Reader

/-- A document is read as its root element. -/
theorem Node.ofText?_render (d : Document) (hstandalone : IsAnswer d.standalone)
    (h : d.root.Proper) : Node.ofText? d.render = some d.root.node := by
  have hdeclaration := Reader.read_declaration hstandalone
  have hroot := Reader.read_render d.root 0 h { name := "", attributes := [] } []
  rw [Frame.addText_margin] at hroot
  have hchars : d.render.toList =
      (declaration d.standalone).toList ++ ((d.root.render 0).toList ++ ['\n']) := by
    have hrender : d.render = declaration d.standalone ++ d.root.render 0 ++ "\n" := rfl
    rw [hrender, String.toList_append, String.toList_append, List.append_assoc]
    rfl
  have hread := Reader.read_trans hdeclaration (Reader.read_trans hroot
    (Reader.read_text _ [] [] ['\n'] (by decide)))
  rw [ofText?, hchars, hread]
  rfl

/-- Not so elements that cross, data that is not escaped, and a section that ends early. -/
example : ∀ text ∈ ["<a><b></a></b>", "<a>1 & 2</a>", "<a><![CDATA[x]]>y<z]]></a>"],
    (Node.ofText? text).isNone := by decide +kernel

end Gazetteer.Xml
