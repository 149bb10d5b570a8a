import Gazetteer.Proofs.Json.Strings
import Gazetteer.Proofs.Table

/-!
# Tables of texts are read back

A table of texts that is written as an object over several lines is read as the same table.  The
documents that are not read as a table are those that are no object, or have a member that is no
text.

    Tree.ofText? (String.ofList (indentedTexts l)) = some (textsTree l)    (ofText?_indentedTexts)
    (textsTree t.entries).texts? = some t                                  (texts?_textsTree)
    t.texts?.isSome ↔ t.IsTexts                                            (texts?_isSome_iff)
-/

namespace Gazetteer

namespace Json

/-- The document that entries are written as. -/
def textsTree (l : List (String × String)) : Tree :=
  .object (l.map fun e => (piecesOf e.1, .text (piecesOf e.2)))

/-! ## Members on lines -/

/-- A member, after its indentation. -/
def memberChars (e : String × String) : List Char := quoted e.1 ++ ':' :: ' ' :: quoted e.2

/-- What follows the first member. -/
def furtherChars (l : List (String × String)) : List Char :=
  l.flatMap (fun e => ',' :: '\n' :: ' ' :: ' ' :: memberChars e) ++ ['\n', '\x7d']

theorem indentedTexts_cons (e : String × String) (rest : List (String × String)) :
    indentedTexts (e :: rest) =
      '\x7b' :: '\n' :: ' ' :: ' ' :: (memberChars e ++ furtherChars rest) := by
  have hlines : ∀ (e : String × String) (l : List (String × String)),
      [',', '\n'].intercalate ((e :: l).map fun e => ' ' :: ' ' :: memberChars e) ++
          ['\n', '\x7d'] =
        ' ' :: ' ' :: (memberChars e ++ furtherChars l) := by
    intro e l
    induction l generalizing e with
    | nil => simp [furtherChars]
    | cons e' l ih =>
      have hl := ih e'
      rw [List.map_cons] at hl
      rw [List.map_cons, List.map_cons, List.intercalate_cons_cons, List.append_assoc, hl]
      simp [furtherChars]
  have h := hlines e rest
  unfold indentedTexts
  simp only [List.isEmpty_cons, Bool.false_eq_true, if_false]
  simp only [memberChars] at h ⊢
  simp only [List.cons_append, List.nil_append] at h ⊢
  rw [h]

theorem quoted_append (s : String) (rest : List Char) :
    quoted s ++ rest = '"' :: (s.toList.flatMap escapeChar ++ '"' :: rest) := by
  simp [quoted]

theorem readTree?_object (fuel : Nat) (s t : List Char) (hs : skipGaps s = '"' :: t) :
    readTree? (fuel + 1) ('\x7b' :: s) =
      (readMembers? fuel ('"' :: t)).map fun (members, rest) => (.object members, rest) := by
  have hbrace : skipGaps ('\x7b' :: s) = '\x7b' :: s := rfl
  rw [readTree?, hbrace]
  simp only [hs]
  rfl

theorem readTree?_quoted (fuel : Nat) (s : String) (rest : List Char) :
    readTree? (fuel + 1) (' ' :: (quoted s ++ rest)) = some (.text (piecesOf s), rest) := by
  rw [quoted_append]
  simp [readTree?, skipGaps, isGap, readPieces?_literal, piecesOf]

/-- A text begins with the key of a member and its colon; `value` is what stands behind them. -/
def BeginsMember (s : List Char) (key : List Piece) (value : List Char) : Prop :=
  ∃ t u, skipGaps s = '"' :: t ∧ readPieces? t = some (key, u) ∧ skipGaps u = ':' :: value

theorem beginsMember_quoted {s value : List Char} {k : String}
    (h : skipGaps s = quoted k ++ ':' :: value) : BeginsMember s (piecesOf k) value :=
  ⟨_, _, h.trans (quoted_append k _), readPieces?_literal _ _, rfl⟩

/-- A member is read, if its value is, and so are those after a comma. -/
theorem readMembers?_comma (fuel : Nat) {s value tail s' : List Char} {key : List Piece} {t : Tree}
    (hs : BeginsMember s key value) (hvalue : readTree? fuel value = some (t, tail))
    (htail : skipGaps tail = ',' :: s') :
    readMembers? (fuel + 1) s = (readMembers? fuel s').map fun (members, rest) =>
      ((key, t) :: members, rest) := by
  obtain ⟨_, _, hquote, hkey, hcolon⟩ := hs
  rw [readMembers?, hquote]
  simp only [hkey, Option.bind_eq_bind, Option.bind_some, hcolon, hvalue, htail]
  cases readMembers? fuel s' <;> rfl

/-- The last member is read up to the closing brace. -/
theorem readMembers?_brace (fuel : Nat) {s value tail s' : List Char} {key : List Piece} {t : Tree}
    (hs : BeginsMember s key value) (hvalue : readTree? fuel value = some (t, tail))
    (htail : skipGaps tail = '\x7d' :: s') :
    readMembers? (fuel + 1) s = some ([(key, t)], s') := by
  obtain ⟨_, _, hquote, hkey, hcolon⟩ := hs
  rw [readMembers?, hquote]
  simp only [hkey, Option.bind_eq_bind, Option.bind_some, hcolon, hvalue, htail]
  rfl

theorem readMembers?_lines (e : String × String) (rest : List (String × String)) (fuel : Nat)
    (s : List Char) (hs : skipGaps s = memberChars e ++ furtherChars rest)
    (hfuel : rest.length + 2 ≤ fuel) :
    readMembers? fuel s =
      some ((e :: rest).map fun e => (piecesOf e.1, Tree.text (piecesOf e.2)), []) := by
  induction rest generalizing e fuel s with
  | nil =>
    obtain ⟨fuel, rfl⟩ : ∃ n, fuel = n + 2 := ⟨fuel - 2, by simp at hfuel; omega⟩
    have hvalue := readTree?_quoted fuel e.2 (furtherChars [])
    rw [memberChars, List.append_assoc] at hs
    exact readMembers?_brace (fuel + 1) (beginsMember_quoted hs) hvalue rfl
  | cons e' rest ih =>
    obtain ⟨fuel, rfl⟩ : ∃ n, fuel = n + 2 := ⟨fuel - 2, by simp at hfuel; omega⟩
    have hvalue := readTree?_quoted fuel e.2 (furtherChars (e' :: rest))
    have htail : skipGaps (furtherChars (e' :: rest)) =
        ',' :: '\n' :: ' ' :: ' ' :: (memberChars e' ++ furtherChars rest) := by
      simp [furtherChars, skipGaps, isGap]
    have hgap : skipGaps ('\n' :: ' ' :: ' ' :: (memberChars e' ++ furtherChars rest)) =
        memberChars e' ++ furtherChars rest := by
      rw [memberChars, List.append_assoc, quoted_append]
      rfl
    rw [memberChars, List.append_assoc] at hs
    rw [readMembers?_comma (fuel + 1) (beginsMember_quoted hs) hvalue htail,
      ih e' (fuel + 1) _ hgap (by simp at hfuel; omega)]
    rfl

/-! ## The whole document -/

theorem length_lt_indentedTexts (e : String × String) (rest : List (String × String)) :
    rest.length < (indentedTexts (e :: rest)).length := by
  have h : rest.length ≤ (furtherChars rest).length := by
    induction rest with
    | nil => simp
    | cons e rest ih =>
      simp only [furtherChars, List.flatMap_cons, List.length_append, List.length_cons] at ih ⊢
      omega
  rw [indentedTexts_cons]
  simp only [List.length_cons, List.length_append]
  omega

/-- Entries are read as they are written, to the end of the text. -/
theorem readTree?_indentedTexts (l : List (String × String)) :
    readTree? (2 * (indentedTexts l).length + 2) (indentedTexts l) = some (textsTree l, []) := by
  cases l with
  | nil => rfl
  | cons e rest =>
    have hlen := length_lt_indentedTexts e rest
    have hquote : ∃ t, memberChars e ++ furtherChars rest = '"' :: t := by
      rw [memberChars, List.append_assoc, quoted_append]
      exact ⟨_, rfl⟩
    obtain ⟨t, ht⟩ := hquote
    have hmembers := readMembers?_lines e rest (2 * (indentedTexts (e :: rest)).length + 1)
      ('"' :: t) ht.symm (by omega)
    generalize hfuel : 2 * (indentedTexts (e :: rest)).length + 1 = fuel at hmembers
    have hfuel' : 2 * (indentedTexts (e :: rest)).length + 2 = fuel + 1 := by omega
    rw [hfuel', indentedTexts_cons, ht, readTree?_object _ _ t rfl, hmembers]
    rfl

theorem ofText?_indentedTexts (l : List (String × String)) :
    Tree.ofText? (String.ofList (indentedTexts l)) = some (textsTree l) := by
  unfold Tree.ofText?
  simp only [String.toList_ofList, readTree?_indentedTexts]
  rfl

/-! ## Members with decoded keys -/

theorem keyed?_cons (pieces : List Piece) (t : Tree) (rest : List (List Piece × Tree)) :
    Tree.keyed? ((pieces, t) :: rest) =
      (Piece.text? pieces).bind fun key => (Tree.keyed? rest).map ((key, t) :: ·) := by
  have hcons : Tree.keyed? ((pieces, t) :: rest) =
      do return (← (Piece.text? pieces).map (·, t)) :: (← Tree.keyed? rest) := List.mapM_cons
  rw [hcons]
  cases Piece.text? pieces with
  | none => rfl
  | some key => cases Tree.keyed? rest <;> rfl

/-- Keys are read back, whatever is under them. -/
theorem keyed?_piecesOf {α : Type} (f : α → Tree) (l : List (String × α)) :
    Tree.keyed? (l.map fun e => (piecesOf e.1, f e.2)) = some (l.map fun e => (e.1, f e.2)) := by
  induction l with
  | nil => rfl
  | cons e rest ih =>
    rw [List.map_cons, keyed?_cons, text?_piecesOf, ih, List.map_cons]
    rfl

/-- Entries in order are the table that is read from their document. -/
theorem texts?_textsTree (t : Table String) : (textsTree t.entries).texts? = some t := by
  have htexts : ∀ l : List (String × String),
      (l.map fun e => (e.1, Tree.text (piecesOf e.2))).mapM
        (fun e => e.2.text?.map (e.1, ·)) = some l := by
    intro l
    induction l with
    | nil => rfl
    | cons e rest ih =>
      rw [List.map_cons, List.mapM_cons, ih]
      simp [Tree.text?]
  rw [textsTree, Tree.texts?, keyed?_piecesOf fun s => Tree.text (piecesOf s)]
  show ((t.entries.map fun e => (e.1, Tree.text (piecesOf e.2))).mapM
    fun (e : String × Tree) => e.2.text?.map (e.1, ·)).bind
      (fun l => some (Table.ofList l)) = some t
  rw [htexts, Option.bind_some, Table.ofList_entries]

/-! ## Documents that are no tables -/

/-- An object in which every member is a text. -/
def Tree.IsTexts : Tree → Prop
  | object members => ∀ m ∈ members, (Piece.text? m.1).isSome ∧ m.2.text?.isSome
  | _ => False

/-- The text is a document of that kind. -/
def HoldsTexts (text : String) : Prop := ∃ t, Tree.ofText? text = some t ∧ t.IsTexts

/-- Members are read as texts if their keys and values are. -/
theorem isSome_members_iff (members : List (List Piece × Tree)) :
    ((Tree.keyed? members).bind fun l =>
      l.mapM fun (e : String × Tree) => e.2.text?.map (e.1, ·)).isSome ↔
      ∀ m ∈ members, (Piece.text? m.1).isSome ∧ m.2.text?.isSome := by
  induction members with
  | nil => simp [Tree.keyed?]
  | cons m rest ih =>
    obtain ⟨pieces, t⟩ := m
    rw [List.forall_mem_cons, ← ih, keyed?_cons]
    cases Piece.text? pieces with
    | none => simp
    | some key =>
      cases Tree.keyed? rest with
      | none => simp
      | some l =>
        simp only [Option.bind_some, Option.map_some, List.mapM_cons]
        cases t.text? with
        | none => simp
        | some text =>
          cases l.mapM fun (e : String × Tree) => e.2.text?.map (e.1, ·) <;> simp

/-- Exactly these trees are read as tables. -/
theorem texts?_isSome_iff (t : Tree) : t.texts?.isSome ↔ t.IsTexts := by
  cases t with
  | object members =>
    have hread : (Tree.object members).texts? = ((Tree.keyed? members).bind fun l =>
        l.mapM fun (e : String × Tree) => e.2.text?.map (e.1, ·)).bind
          fun l => some (Table.ofList l) := by
      rw [Tree.texts?]
      cases Tree.keyed? members <;> rfl
    rw [hread, Tree.IsTexts, ← isSome_members_iff]
    generalize (Tree.keyed? members).bind _ = texts
    cases texts <;> rfl
  | null => simp [Tree.texts?, Tree.IsTexts]
  | bool b => simp [Tree.texts?, Tree.IsTexts]
  | number n => simp [Tree.texts?, Tree.IsTexts]
  | text pieces => simp [Tree.texts?, Tree.IsTexts]
  | array items => simp [Tree.texts?, Tree.IsTexts]

theorem texts?_eq_none_iff (text : String) :
    (Tree.ofText? text).bind Tree.texts? = none ↔ ¬ HoldsTexts text := by
  unfold HoldsTexts
  cases Tree.ofText? text with
  | none => simp
  | some t => simp [← texts?_isSome_iff]

end Json

end Gazetteer
