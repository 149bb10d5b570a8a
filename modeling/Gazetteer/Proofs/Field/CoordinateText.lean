import Gazetteer.Field.Preparation
import Gazetteer.Proofs.Number.Grammar
import Gazetteer.Proofs.Number.Limits
import Gazetteer.Proofs.Text.Trim

/-!
# Texts of coordinates

A text of coordinates has a latitude before its first comma and a longitude after it, up to the next
comma, with blanks around both.  Both are number texts of finite doubles within their limits.  Every
other text is refused with the first fault that it has: too few parts, a latitude that is no number,
a longitude that is none, a latitude out of range, a longitude out of range.

    Reads input r: what comes of an input, by the grammar alone
    ofText input = r ↔ Reads input r; and points are read as they are shown          (ofText_reads)
-/

namespace Gazetteer

/-! ## The first two parts of a text -/

namespace Text

/-- The first two parts of a text between separators.  More may follow. -/
inductive FirstParts (sep : Char) : List Char → List Char → List Char → Prop where
  | two {a b : List Char} (ha : sep ∉ a) (hb : sep ∉ b) : FirstParts sep (a ++ sep :: b) a b
  | more {a b rest : List Char} (ha : sep ∉ a) (hb : sep ∉ b) :
      FirstParts sep (a ++ sep :: (b ++ sep :: rest)) a b

variable {sep : Char} {s a b : List Char}

theorem FirstParts.splitAt_eq (h : FirstParts sep s a b) :
    ∃ rest, splitAt sep s = a :: b :: rest := by
  cases h with
  | two ha hb => exact ⟨[], by rw [splitAt_append _ _ _ ha, splitAt_of_notMem hb]⟩
  | more ha hb => exact ⟨_, by rw [splitAt_append _ _ _ ha, splitAt_append _ _ _ hb]⟩

theorem exists_firstParts (h : sep ∈ s) : ∃ a b, FirstParts sep s a b := by
  have hsplits {l : List Char} (hl : sep ∈ l) : ∃ a b, l = a ++ sep :: b ∧ sep ∉ a := by
    obtain ⟨⟨a, b⟩, hsplit⟩ :=
      Option.ne_none_iff_exists'.mp fun hnone => splitOnce_eq_none_iff.mp hnone hl
    exact ⟨a, b, of_splitOnce hsplit⟩
  obtain ⟨a, tail, rfl, ha⟩ := hsplits h
  by_cases hmore : sep ∈ tail
  · obtain ⟨b, rest, rfl, hb⟩ := hsplits hmore
    exact ⟨a, b, .more ha hb⟩
  · exact ⟨a, tail, .two ha hmore⟩

end Text

/-! ## Numbers of degrees -/

namespace Binary64

/-- A finite double whose magnitude is at most a whole number. -/
def UpTo (limit : Nat) (x : Binary64) : Prop :=
  ∃ negative units h, x = .finite negative units h ∧ units ≤ limit * unitScale

theorem within_iff {limit : Nat} (hlimit : limit < 10 ^ 15) {x : Binary64} :
    x.within limit = true ↔ x.UpTo limit := by
  constructor
  · exact finite_of_within limit hlimit x
  · rintro ⟨s, u, h, rfl, hle⟩
    exact within_of_le hlimit s u h hle

theorem UpTo.isFinite {limit : Nat} {x : Binary64} (h : x.UpTo limit) : x.isFinite = true := by
  obtain ⟨s, u, hu, rfl, -⟩ := h
  rfl

theorem isBlank_of_mem_chars {layout : Layout} {x : Binary64} {c : Char} (h : c ∈ x.chars layout) :
    Text.isBlank c = false := by
  have hmarks : marks.all (fun c => !Text.isBlank c) = true := by decide
  exact (mem_chars h).elim Text.isBlank_of_isDigit fun hmark => by
    simpa using List.all_eq_true.mp hmarks c hmark

theorem trimmed_chars (layout : Layout) (x : Binary64) : Text.Trimmed (x.chars layout) :=
  ⟨fun _ hc => isBlank_of_mem_chars (List.mem_of_mem_head? hc),
    fun _ hc => isBlank_of_mem_chars (List.mem_of_getLast? hc)⟩

end Binary64

/-- The text of a finite double. -/
def IsDegrees (part : List Char) (x : Binary64) : Prop :=
  NumberText.Denotes part x ∧ x.isFinite = true

section Degrees

variable {input : String} {axis : Axis} {part : List Char} {x : Binary64}

theorem degrees_eq_ok_iff : degrees input axis part = .ok x ↔ IsDegrees part x := by
  unfold degrees IsDegrees
  rw [← NumberText.ofChars?_eq_some_iff]
  cases Binary64.ofChars? part with
  | none => simp
  | some y =>
    dsimp only
    split
    · next hfinite =>
      simp only [Except.ok.injEq, Option.some.injEq]
      constructor
      · rintro rfl
        exact ⟨rfl, hfinite⟩
      · exact And.left
    · next hfinite =>
      simp only [reduceCtorEq, Option.some.injEq, false_iff, not_and]
      rintro rfl
      exact hfinite

/-- A text that is no finite number is told of. -/
theorem degrees_eq_error (h : ¬ ∃ x, IsDegrees part x) : degrees input axis part =
    .error (.malformedCoordinates input (.notNumber axis (String.ofList part))) := by
  have hnot (x : Binary64) : degrees input axis part ≠ .ok x :=
    fun hok => h ⟨x, degrees_eq_ok_iff.mp hok⟩
  unfold degrees at hnot ⊢
  split
  · next x hread =>
    split
    · next hfinite =>
      rw [hread] at hnot
      exact absurd (if_pos hfinite) (hnot x)
    · rfl
  · rfl

end Degrees

namespace Coordinates

/-! ## The grammar -/

/-- The first two parts of an input between commas, without the blanks at their ends. -/
def Parts (input : String) (first second : List Char) : Prop :=
  ∃ a b, Text.FirstParts ',' input.toList a b ∧ Text.TrimsTo a first ∧ Text.TrimsTo b second

/-- What comes of an input: a point, or the first fault. -/
inductive Reads (input : String) : Except Error Coordinates → Prop where
  | single (h : ',' ∉ input.toList) : Reads input (.error (.malformedCoordinates input .notPair))
  | latitude {first second : List Char} (h : Parts input first second)
      (hfirst : ¬ ∃ x, IsDegrees first x) :
      Reads input (.error (.malformedCoordinates input
        (.notNumber .latitude (String.ofList first))))
  | longitude {first second : List Char} {x : Binary64} (h : Parts input first second)
      (hfirst : IsDegrees first x) (hsecond : ¬ ∃ y, IsDegrees second y) :
      Reads input (.error (.malformedCoordinates input
        (.notNumber .longitude (String.ofList second))))
  | beyondPole {first second : List Char} {x y : Binary64} (h : Parts input first second)
      (hfirst : IsDegrees first x) (hsecond : IsDegrees second y) (hx : ¬ x.UpTo 90) :
      Reads input (.error (.malformedCoordinates input (.outOfRange .latitude x)))
  | beyondTurn {first second : List Char} {x y : Binary64} (h : Parts input first second)
      (hfirst : IsDegrees first x) (hsecond : IsDegrees second y) (hx : x.UpTo 90)
      (hy : ¬ y.UpTo 180) :
      Reads input (.error (.malformedCoordinates input (.outOfRange .longitude y)))
  | point {first second : List Char} {x y : Binary64} (h : Parts input first second)
      (hfirst : IsDegrees first x) (hsecond : IsDegrees second y) (hx : x.UpTo 90)
      (hy : y.UpTo 180) : Reads input (.ok ⟨x, y⟩)

variable {input : String}

theorem exists_parts (h : ',' ∈ input.toList) : ∃ first second, Parts input first second := by
  obtain ⟨a, b, hparts⟩ := Text.exists_firstParts h
  exact ⟨_, _, a, b, hparts, Text.trimsTo_trimChars a, Text.trimsTo_trimChars b⟩

/-- The parts are numbers of degrees, one after the other, and only then within limits. -/
theorem ofText_of_parts {first second : List Char} (h : Parts input first second) :
    ofText input = (do
      let latitude ← degrees input .latitude first
      let longitude ← degrees input .longitude second
      if !latitude.within 90 then
        .error (.malformedCoordinates input (.outOfRange .latitude latitude))
      else if !longitude.within 180 then
        .error (.malformedCoordinates input (.outOfRange .longitude longitude))
      else .ok ⟨latitude, longitude⟩) := by
  obtain ⟨a, b, hparts, ha, hb⟩ := h
  obtain ⟨rest, hsplit⟩ := hparts.splitAt_eq
  unfold ofText
  simp only [hsplit, List.map_cons, ha.trimChars_eq, hb.trimChars_eq]

theorem ofText_of_degrees {first second : List Char} {x y : Binary64}
    (h : Parts input first second) (hfirst : IsDegrees first x) (hsecond : IsDegrees second y) :
    ofText input =
      if !x.within 90 then .error (.malformedCoordinates input (.outOfRange .latitude x))
      else if !y.within 180 then .error (.malformedCoordinates input (.outOfRange .longitude y))
      else .ok ⟨x, y⟩ := by
  rw [ofText_of_parts h, degrees_eq_ok_iff.mpr hfirst, degrees_eq_ok_iff.mpr hsecond]
  dsimp only [bind, Except.bind]

theorem Reads.ofText_eq {r : Except Error Coordinates} (h : Reads input r) :
    ofText input = r := by
  have hwithin {limit : Nat} (hlimit : limit < 10 ^ 15) {x : Binary64} (hx : x.UpTo limit) :
      x.within limit = true := (Binary64.within_iff hlimit).mpr hx
  have hbeyond {limit : Nat} (hlimit : limit < 10 ^ 15) {x : Binary64} (hx : ¬ x.UpTo limit) :
      x.within limit = false := by
    rwa [Bool.eq_false_iff, Ne, Binary64.within_iff hlimit]
  cases h with
  | single h =>
    rw [ofText, Text.splitAt_of_notMem h]
    rfl
  | latitude h hfirst =>
    rw [ofText_of_parts h, degrees_eq_error hfirst]
    rfl
  | longitude h hfirst hsecond =>
    rw [ofText_of_parts h, degrees_eq_ok_iff.mpr hfirst, degrees_eq_error hsecond]
    rfl
  | beyondPole h hfirst hsecond hx =>
    rw [ofText_of_degrees h hfirst hsecond, hbeyond (by decide) hx]
    rfl
  | beyondTurn h hfirst hsecond hx hy =>
    rw [ofText_of_degrees h hfirst hsecond, hwithin (by decide) hx, hbeyond (by decide) hy]
    rfl
  | point h hfirst hsecond hx hy =>
    rw [ofText_of_degrees h hfirst hsecond, hwithin (by decide) hx, hwithin (by decide) hy]
    rfl

/-- Something comes of every input. -/
theorem exists_reads (input : String) : ∃ r, Reads input r := by
  by_cases hcomma : ',' ∈ input.toList
  · obtain ⟨first, second, h⟩ := exists_parts hcomma
    by_cases hfirst : ∃ x, IsDegrees first x
    · obtain ⟨x, hx⟩ := hfirst
      by_cases hsecond : ∃ y, IsDegrees second y
      · obtain ⟨y, hy⟩ := hsecond
        by_cases hpole : x.UpTo 90
        · by_cases hturn : y.UpTo 180
          · exact ⟨_, .point h hx hy hpole hturn⟩
          · exact ⟨_, .beyondTurn h hx hy hpole hturn⟩
        · exact ⟨_, .beyondPole h hx hy hpole⟩
      · exact ⟨_, .longitude h hx hsecond⟩
    · exact ⟨_, .latitude h hfirst⟩
  · exact ⟨_, .single hcomma⟩

theorem ofText_eq_iff {r : Except Error Coordinates} : ofText input = r ↔ Reads input r := by
  constructor
  · rintro rfl
    obtain ⟨r, hr⟩ := exists_reads input
    rwa [hr.ofText_eq]
  · exact Reads.ofText_eq

/-! ## Points are read as they are shown -/

theorem comma_notMem_padded {before after : String} (hbefore : Text.Blank before.toList)
    (hafter : Text.Blank after.toList) (x : Binary64) :
    ',' ∉ before.toList ++ x.chars .plain ++ after.toList := by
  have hblank {pad : String} (h : Text.Blank pad.toList) : ',' ∉ pad.toList :=
    fun hc => absurd (h ',' hc) (by decide)
  simp only [List.mem_append, not_or]
  exact ⟨⟨hblank hbefore, Binary64.comma_not_mem_chars .plain x⟩, hblank hafter⟩

theorem isDegrees_chars {limit : Nat} {x : Binary64} (h : x.UpTo limit) :
    IsDegrees (x.chars .plain) x :=
  ⟨NumberText.ofChars?_eq_some_iff.mp (Binary64.ofChars?_chars .plain x), h.isFinite⟩

theorem ofText_padded {c : Coordinates} (hx : c.latitude.UpTo 90) (hy : c.longitude.UpTo 180)
    {a b d e : String} (ha : Text.Blank a.toList) (hb : Text.Blank b.toList)
    (hd : Text.Blank d.toList) (he : Text.Blank e.toList) :
    ofText (a ++ c.latitude.text ++ b ++ "," ++ d ++ c.longitude.text ++ e) = .ok c := by
  have hchars : (a ++ c.latitude.text ++ b ++ "," ++ d ++ c.longitude.text ++ e).toList =
      (a.toList ++ c.latitude.chars .plain ++ b.toList) ++
        ',' :: (d.toList ++ c.longitude.chars .plain ++ e.toList) := by
    simp [Binary64.text]
  have hparts : Parts (a ++ c.latitude.text ++ b ++ "," ++ d ++ c.longitude.text ++ e)
      (c.latitude.chars .plain) (c.longitude.chars .plain) := by
    refine ⟨_, _, ?_, ⟨a.toList, b.toList, rfl, ha, hb, Binary64.trimmed_chars .plain _⟩,
      ⟨d.toList, e.toList, rfl, hd, he, Binary64.trimmed_chars .plain _⟩⟩
    rw [hchars]
    exact .two (comma_notMem_padded ha hb _) (comma_notMem_padded hd he _)
  exact ofText_eq_iff.mpr (.point hparts (isDegrees_chars hx) (isDegrees_chars hy) hx hy)

/-- Texts of coordinates have a grammar, and points are among them.  What is read from an input,
point or fault, is what the grammar says of it.  A point within the limits is read from its text bit
for bit, whatever blanks stand around its numbers. -/
theorem ofText_reads :
    (∀ (input : String) (r : Except Error Coordinates), ofText input = r ↔ Reads input r) ∧
    ∀ c : Coordinates, c.latitude.UpTo 90 → c.longitude.UpTo 180 →
      ofText c.text = .ok c ∧
      ∀ a b d e : String, (∀ pad ∈ [a, b, d, e], Text.Blank pad.toList) →
        ofText (a ++ c.latitude.text ++ b ++ "," ++ d ++ c.longitude.text ++ e) = .ok c := by
  refine ⟨fun input r => ofText_eq_iff, fun c hx hy => ⟨?_, ?_⟩⟩
  · have hnone : Text.Blank "".toList := by simp [Text.Blank]
    have htext : c.text =
        "" ++ c.latitude.text ++ "" ++ "," ++ "" ++ c.longitude.text ++ "" := by
      simp [text]
    rw [htext]
    exact ofText_padded hx hy hnone hnone hnone hnone
  · intro a b d e hpads
    simp only [List.forall_mem_cons] at hpads
    obtain ⟨ha, hb, hd, he, -⟩ := hpads
    exact ofText_padded hx hy ha hb hd he

/-- At the end of a range, and at the negative zero. -/
theorem ofText_reads_zero :
    let c : Coordinates := ⟨.zero true, .ofNat 180⟩
    c.latitude.UpTo 90 ∧ c.longitude.UpTo 180 ∧
      (∀ pad ∈ ["\t", "\u00a0", "", "\u3000"], Text.Blank pad.toList) ∧
      ofText c.text = .ok c ∧ ofText "\t-0\u00a0,180\u3000" = .ok c ∧
      Reads "\t-0\u00a0,180\u3000" (.ok c) := by
  intro c
  have hx : c.latitude.UpTo 90 := (Binary64.within_iff (by decide)).mp (by decide +kernel)
  have hy : c.longitude.UpTo 180 := (Binary64.within_iff (by decide)).mp (by decide +kernel)
  have hpads : ∀ pad ∈ ["\t", "\u00a0", "", "\u3000"], Text.Blank pad.toList := by decide +kernel
  obtain ⟨htext, hpadded⟩ := ofText_reads.2 c hx hy
  have hshown : "\t" ++ c.latitude.text ++ "\u00a0" ++ "," ++ "" ++ c.longitude.text ++ "\u3000" =
      "\t-0\u00a0,180\u3000" := by
    decide +kernel
  have hread := hpadded _ _ _ _ hpads
  rw [hshown] at hread
  exact ⟨hx, hy, hpads, htext, hread, (ofText_reads.1 _ _).mp hread⟩

end Coordinates

end Gazetteer
