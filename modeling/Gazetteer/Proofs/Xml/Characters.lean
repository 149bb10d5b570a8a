import Gazetteer.Proofs.Xml.ReadBack

/-!
# The characters of documents

A document of XML may have tabs, line ends, and all characters from the space on except two at the
end of the first plane; a parser has to refuse any other character wherever it stands, in a section
as well.  The writer adds only characters that are allowed, and writes those of names, values and
data, escaped or divided, in full.  So its documents are legal just if what it is given is.

    Legal (escape s) ↔ Legal s, Legal (sectionsText s) ↔ Legal s   (legal_escape, legal_sectionsText)
    Legal (e.render depth) ↔ e.Legal                                          (legal_render_iff)
-/

namespace Gazetteer.Xml

/-- The characters that a document may have. -/
def isChar (c : Char) : Bool :=
  c = '\t' || c = '\n' || c = '\r' || (0x20 ≤ c.toNat && c.toNat ≤ 0xD7FF)
    || (0xE000 ≤ c.toNat && c.toNat ≤ 0xFFFD) || 0x10000 ≤ c.toNat

/-- The text has no other characters. -/
def Legal (s : String) : Prop := s.toList.all isChar = true

instance (s : String) : Decidable (Legal s) := inferInstanceAs (Decidable (_ = _))

/-- Reads a document as a parser that refuses what is not legal. -/
def Node.ofLegalText? (text : String) : Option Node :=
  if Legal text then ofText? text else none

/-! ## Texts -/

theorem legal_iff (s : String) : Legal s ↔ ∀ c ∈ s.toList, isChar c = true := List.all_eq_true

@[simp] theorem legal_append (s t : String) : Legal (s ++ t) ↔ Legal s ∧ Legal t := by
  rw [Legal, String.toList_append, List.all_append, Bool.and_eq_true]
  exact Iff.rfl

theorem legal_join (parts : List String) : Legal (String.join parts) ↔ ∀ s ∈ parts, Legal s := by
  rw [Legal, String.toList_join, List.all_flatMap, List.all_eq_true]
  exact Iff.rfl

theorem all_isChar_escapeChar (c : Char) : (escapeChar c).all isChar = isChar c := by
  obtain (rfl | rfl | rfl | rfl | rfl) | ⟨-, hplain⟩ := escapeChar_cases c
  case inr => rw [hplain, List.all_cons, List.all_nil, Bool.and_true]
  all_goals decide +kernel

@[simp] theorem legal_escape (s : String) : Legal (escape s) ↔ Legal s := by
  rw [Legal, escape, String.toList_ofList, List.all_flatMap]
  simp only [all_isChar_escapeChar]
  exact Iff.rfl

theorem all_isChar_divide (s : List Char) : (divide s).all isChar = s.all isChar := by
  induction s using divide.induct with
  | case1 s ih =>
    have hmark : "]]]]><![CDATA[>".toList.all isChar = true := by decide +kernel
    have hfront : (']' :: ']' :: '>' :: s).all isChar = s.all isChar := by
      simp only [List.all_cons, (by decide +kernel : isChar ']' = true),
        (by decide +kernel : isChar '>' = true), Bool.true_and]
    rw [Reader.divide_mark, List.all_append, hmark, Bool.true_and, ih, hfront]
  | case2 c s hne ih => rw [Reader.divide_cons hne, List.all_cons, List.all_cons, ih]
  | case3 => rfl

@[simp] theorem legal_sectionsText (s : String) : Legal (sectionsText s) ↔ Legal s := by
  have hopen : "<![CDATA[".toList.all isChar = true := by decide +kernel
  have hclose : "]]>".toList.all isChar = true := by decide +kernel
  rw [Legal, toList_sectionsText, List.all_append, List.all_append, hopen, hclose,
    all_isChar_divide, Bool.true_and, Bool.and_true]
  exact Iff.rfl

/-! ## Elements -/

/-- A name with attributes, all of them legal. -/
def LegalTag (name : String) (attributes : List (String × String)) : Prop :=
  Legal name ∧ ∀ a ∈ attributes, Legal a.1 ∧ Legal a.2

instance (name : String) (attributes : List (String × String)) :
    Decidable (LegalTag name attributes) := inferInstanceAs (Decidable (_ ∧ _))

theorem legal_tagText (name : String) (attributes : List (String × String)) :
    Legal (tagText name attributes) ↔ LegalTag name attributes := by
  have hspace : Legal " " := by decide +kernel
  have hquote : Legal "\"" := by decide +kernel
  have hequals : Legal "=\"" := by decide +kernel
  simp only [tagText, legal_append, legal_join, List.forall_mem_map, legal_escape, LegalTag,
    hspace, hquote, hequals, true_and, and_true]

theorem legal_margin (depth : Nat) : Legal (margin depth) := by
  rw [legal_iff]
  intro c hc
  obtain rfl | rfl := mem_margin hc
  · decide
  · decide

mutual

/-- All that the writer is given for an element is legal. -/
def Element.Legal : Element → Prop
  | .empty name attributes => LegalTag name attributes
  | .text name data => Xml.Legal name ∧ Xml.Legal data
  | .sections name data => Xml.Legal name ∧ Xml.Legal data
  | .parent name attributes children => LegalTag name attributes ∧ AllLegal children

def AllLegal : List Element → Prop
  | [] => True
  | e :: rest => e.Legal ∧ AllLegal rest

end

mutual

theorem legal_render_iff (e : Element) (depth : Nat) : Legal (e.render depth) ↔ e.Legal := by
  have hmargin := legal_margin depth
  have hopen : Legal "<" := by decide +kernel
  have hclose : Legal ">" := by decide +kernel
  have hslash : Legal "</" := by decide +kernel
  have hempty : Legal "/>" := by decide +kernel
  cases e with
  | empty name attributes =>
    simp only [Element.render, legal_append, legal_tagText, Element.Legal, hmargin, hopen, hempty,
      true_and, and_true]
  | text name data =>
    simp only [Element.render, legal_append, legal_escape, Element.Legal, hmargin, hopen, hclose,
      hslash, true_and, and_true]
    exact ⟨fun h => h.1, fun h => ⟨h, h.1⟩⟩
  | sections name data =>
    simp only [Element.render, legal_append, legal_sectionsText, Element.Legal, hmargin, hopen,
      hclose, hslash, true_and, and_true]
    exact ⟨fun h => h.1, fun h => ⟨h, h.1⟩⟩
  | parent name attributes children =>
    have hchildren := legal_renderAll_iff children (depth + 1)
    simp only [Element.render, legal_append, legal_tagText, Element.Legal, hmargin, hopen, hclose,
      hslash, hchildren, true_and, and_true]
    exact ⟨fun h => h.1, fun h => ⟨h, h.1.1⟩⟩

theorem legal_renderAll_iff (es : List Element) (depth : Nat) :
    Legal (renderAll depth es) ↔ AllLegal es := by
  cases es with
  | nil => exact iff_of_true rfl trivial
  | cons e rest =>
    rw [renderAll, legal_append, legal_render_iff e depth, legal_renderAll_iff rest depth]
    exact Iff.rfl

end

/-- A document is legal if and only if its root is. -/
theorem legal_render (d : Document) (hstandalone : IsAnswer d.standalone) :
    Legal d.render ↔ d.root.Legal := by
  have hdeclaration : Legal (declaration d.standalone) := by
    unfold IsAnswer at hstandalone
    simp only [List.mem_cons, List.not_mem_nil, or_false] at hstandalone
    obtain h | h | h := hstandalone <;> rw [h] <;> decide +kernel
  have hend : Legal "\n" := by decide +kernel
  have hrender : d.render = declaration d.standalone ++ d.root.render 0 ++ "\n" := rfl
  rw [hrender, legal_append, legal_append, legal_render_iff]
  simp only [hdeclaration, hend, true_and, and_true]

end Gazetteer.Xml
