import Gazetteer.Address.Json
import Gazetteer.Proofs.Json.TextTable
import Gazetteer.Proofs.Number.ReadBack

/-!
# Documents are read back

The text of a value is a document, and the document that is read from it is `Value.tree`: numbers as
the numerals they are written as, texts as their pieces, all else as it is.  What a number is worth
is asked for later, so nothing is said here about how doubles are read.

    readTree? fuel (v.chars ++ rest) = some (v.tree, rest)            (readTree?_chars)
    Tree.ofText? v.compact = some v.tree                              (ofText?_compact)
    the fields of an object with different keys are its members       (fields?_members)
-/

namespace Gazetteer.Json

/-! ## The document of a value -/

/-- What a double is written as. -/
def doubleTree : Binary64 → Tree
  | .finite s u _ => .number (Binary64.unitsNumeral .json s u)
  | _ => .null

/-- What a whole number is written as. -/
def wholeTree (negative : Bool) (n : Nat) : Tree :=
  .number ⟨negative, Nat.toDigits 10 n, none, none⟩

namespace Value

mutual

def tree : Value → Tree
  | null => .null
  | bool b => .bool b
  | natural n => wholeTree false n
  | negative n => wholeTree true n
  | double x => doubleTree x
  | text s => .text (piecesOf s)
  | array items => .array (itemsTrees items)
  | object members => .object (membersTrees members)

def itemsTrees : List Value → List Tree
  | [] => []
  | v :: rest => v.tree :: itemsTrees rest

def membersTrees : List (String × Value) → List (List Piece × Tree)
  | [] => []
  | (k, v) :: rest => (piecesOf k, v.tree) :: membersTrees rest

end

theorem itemsTrees_eq (items : List Value) : itemsTrees items = items.map tree := by
  induction items with
  | nil => rfl
  | cons v rest ih => rw [itemsTrees, ih, List.map_cons]

theorem membersTrees_eq (members : List (String × Value)) :
    membersTrees members = members.map fun m => (piecesOf m.1, m.2.tree) := by
  induction members with
  | nil => rfl
  | cons m rest ih =>
    obtain ⟨k, v⟩ := m
    rw [membersTrees, ih, List.map_cons]

theorem itemsChars_cons_cons (v v' : Value) (rest : List Value) :
    itemsChars (v :: v' :: rest) = v.chars ++ ',' :: itemsChars (v' :: rest) := by
  rw [itemsChars]
  simp

theorem membersChars_cons_cons (k : String) (v : Value) (m : String × Value)
    (rest : List (String × Value)) :
    membersChars ((k, v) :: m :: rest) =
      quoted k ++ (':' :: (v.chars ++ ',' :: membersChars (m :: rest))) := by
  rw [membersChars]
  · simp
  · simp

end Value

/-! ## Numbers -/

theorem wellFormed_whole (negative : Bool) (n : Nat) :
    (Numeral.mk negative (Nat.toDigits 10 n) none none).WellFormed := by
  refine ⟨isDigits_toDigits n, ?_, by simp, by simp⟩
  by_cases hn : n = 0
  · subst hn
    exact .inl rfl
  · exact .inr (toDigits_head n hn)

theorem chars_whole (negative : Bool) (n : Nat) :
    (Numeral.mk negative (Nat.toDigits 10 n) none none).chars true =
      (if negative then ['-'] else []) ++ Nat.toDigits 10 n := by
  cases negative <;>
    simp [Numeral.chars, Numeral.unsignedChars, Numeral.fractionChars, Numeral.exponentChars]

/-- A numeral begins with a digit or a sign. -/
theorem chars_cons (plus : Bool) (n : Numeral) (h : n.WellFormed) :
    ∃ c s, n.chars plus = c :: s ∧ (c.isDigit = true ∨ c = '-') := by
  obtain ⟨d, ds, hwhole⟩ := List.exists_cons_of_ne_nil h.whole.1
  unfold Numeral.chars
  split
  · exact ⟨'-', _, rfl, .inr rfl⟩
  · have hd := h.whole.2 d (by simp [hwhole])
    rw [Numeral.unsignedChars, hwhole]
    exact ⟨d, _, rfl, .inl hd⟩

theorem skipGaps_cons {c : Char} (s : List Char) (h : isGap c = false) :
    skipGaps (c :: s) = c :: s :=
  List.dropWhile_cons_of_neg (by simp [h])

/-- A character that begins a value, and nothing else. -/
def Begins (c : Char) : Prop := isGap c = false ∧ c ≠ ']' ∧ c ≠ '\x7d'

theorem begins_of_digit {c : Char} (h : c.isDigit = true ∨ c = '-') : Begins c := by
  rcases h with h | rfl
  · refine ⟨?_, ?_, ?_⟩
    · cases hgap : isGap c with
      | false => rfl
      | true =>
        simp only [isGap, Bool.or_eq_true, decide_eq_true_eq] at hgap
        rcases hgap with ((rfl | rfl) | rfl) | rfl <;> cases h
    · rintro rfl
      cases h
    · rintro rfl
      cases h
  · exact ⟨rfl, by decide, by decide⟩

theorem readTree?_number (fuel : Nat) (plus : Bool) (n : Numeral) (h : n.WellFormed)
    (rest : List Char) (hrest : Numeral.Ends rest) :
    readTree? (fuel + 1) (n.chars plus ++ rest) = some (.number n, rest) := by
  have hread := Numeral.read?_chars plus n h rest hrest
  obtain ⟨c, s, hc, hdigit⟩ := chars_cons plus n h
  rw [hc, List.cons_append] at hread ⊢
  rw [readTree?, skipGaps_cons _ (begins_of_digit hdigit).1]
  split
  case h_7 => rw [hread]; rfl
  all_goals
    next heq =>
    simp only [List.cons.injEq] at heq
    rw [heq.1] at hdigit
    exact absurd hdigit (by decide)

theorem doubleChars_finite (s : Bool) (u : Nat) (h : IsMagnitude u) :
    doubleChars (.finite s u h) = (Binary64.unitsNumeral .json s u).chars true :=
  Binary64.chars_finite .json s u h

/-! ## Values -/

/-- The text of a value begins like a value. -/
theorem chars_begins (v : Value) : ∃ c s, v.chars = c :: s ∧ Begins c := by
  have hother : ∀ c ∈ ['n', 't', 'f', '"', '[', '\x7b'], Begins c := by
    intro c hc
    simp only [List.mem_cons, List.not_mem_nil, or_false] at hc
    rcases hc with rfl | rfl | rfl | rfl | rfl | rfl
    all_goals exact ⟨rfl, by decide, by decide⟩
  have hnumber (n : Numeral) (h : n.WellFormed) : ∃ c s, n.chars true = c :: s ∧ Begins c := by
    obtain ⟨c, s, hc, hdigit⟩ := chars_cons true n h
    exact ⟨c, s, hc, begins_of_digit hdigit⟩
  unfold Value.chars
  cases v with
  | null => exact ⟨_, _, rfl, hother _ (by simp)⟩
  | bool b => cases b <;> exact ⟨_, _, rfl, hother _ (by simp)⟩
  | natural n =>
    have h := hnumber _ (wellFormed_whole false n)
    rwa [chars_whole] at h
  | negative n =>
    have h := hnumber _ (wellFormed_whole true n)
    rwa [chars_whole] at h
  | double x =>
    cases x with
    | nan => exact ⟨_, _, rfl, hother _ (by simp)⟩
    | infinite s => exact ⟨_, _, rfl, hother _ (by simp)⟩
    | finite s u h =>
      have hchars := hnumber _ (Binary64.wellFormed_unitsNumeral .json s u h)
      rwa [← doubleChars_finite s u h] at hchars
  | text s => exact ⟨_, _, rfl, hother _ (by simp)⟩
  | array items => exact ⟨_, _, rfl, hother _ (by simp)⟩
  | object members => exact ⟨_, _, rfl, hother _ (by simp)⟩

theorem itemsChars_begins (v : Value) (items : List Value) :
    ∃ c s, Value.itemsChars (v :: items) = c :: s ∧ Begins c := by
  obtain ⟨c, s, hc, hbegins⟩ := chars_begins v
  cases items with
  | nil => exact ⟨c, s, hc, hbegins⟩
  | cons v' items =>
    rw [Value.itemsChars_cons_cons, hc]
    exact ⟨c, _, rfl, hbegins⟩

theorem readTree?_null (fuel : Nat) (rest : List Char) :
    readTree? (fuel + 1) ('n' :: 'u' :: 'l' :: 'l' :: rest) = some (.null, rest) := by
  rw [readTree?, skipGaps_cons _ rfl]
  rfl

theorem readTree?_double (fuel : Nat) (x : Binary64) (rest : List Char)
    (hrest : Numeral.Ends rest) :
    readTree? (fuel + 1) (doubleChars x ++ rest) = some (doubleTree x, rest) := by
  cases x with
  | nan => exact readTree?_null fuel rest
  | infinite s => exact readTree?_null fuel rest
  | finite s u h =>
    rw [doubleChars_finite]
    exact readTree?_number fuel true _ (Binary64.wellFormed_unitsNumeral .json s u h) rest hrest

theorem readTree?_text (fuel : Nat) (s : String) (rest : List Char) :
    readTree? (fuel + 1) (quoted s ++ rest) = some (.text (piecesOf s), rest) := by
  have hquoted : quoted s ++ rest = '"' :: (s.toList.flatMap escapeChar ++ '"' :: rest) := by
    simp [quoted]
  rw [hquoted, readTree?, skipGaps_cons _ rfl]
  simp [readPieces?_literal, piecesOf]

/-- A nonempty array is read if its items are. -/
theorem readTree?_array (fuel : Nat) (c : Char) (s : List Char) (hc : Begins c) :
    readTree? (fuel + 1) ('[' :: c :: s) =
      (readItems? fuel (c :: s)).map fun (items, rest) => (.array items, rest) := by
  rw [readTree?, skipGaps_cons _ rfl]
  simp only [skipGaps_cons _ hc.1]
  split
  · next heq =>
    simp only [List.cons.injEq] at heq
    exact absurd heq.1 hc.2.1
  · rfl

theorem readItems?_comma (fuel : Nat) (s tail s' : List Char) (t : Tree)
    (h : readTree? fuel s = some (t, tail)) (htail : skipGaps tail = ',' :: s') :
    readItems? (fuel + 1) s =
      (readItems? fuel s').map fun (items, rest) => (t :: items, rest) := by
  rw [readItems?, h]
  simp only [Option.bind_eq_bind, Option.bind_some, htail]
  cases readItems? fuel s' <;> rfl

theorem readItems?_bracket (fuel : Nat) (s tail s' : List Char) (t : Tree)
    (h : readTree? fuel s = some (t, tail)) (htail : skipGaps tail = ']' :: s') :
    readItems? (fuel + 1) s = some ([t], s') := by
  rw [readItems?, h]
  simp only [Option.bind_eq_bind, Option.bind_some, htail]
  rfl

theorem ends_cons {c : Char} (rest : List Char) (h : c = ',' ∨ c = ']' ∨ c = '\x7d') :
    Numeral.Ends (c :: rest) := by
  intro d hd
  cases hd
  rcases h with rfl | rfl | rfl <;> decide

theorem skipGaps_quoted (k : String) (rest : List Char) :
    skipGaps (quoted k ++ rest) = quoted k ++ rest := by
  rw [quoted_append]
  rfl

theorem membersChars_quote (m : String × Value) (members : List (String × Value)) :
    ∃ t, Value.membersChars (m :: members) = '"' :: t := by
  obtain ⟨k, v⟩ := m
  cases members with
  | nil =>
    rw [Value.membersChars, quoted_append]
    exact ⟨_, rfl⟩
  | cons m' members =>
    rw [Value.membersChars_cons_cons, quoted_append]
    exact ⟨_, rfl⟩

mutual

/-- A value is read as it is written. -/
theorem readTree?_chars (v : Value) (fuel : Nat) (rest : List Char)
    (hfuel : 2 * v.chars.length < fuel) (hrest : Numeral.Ends rest) :
    readTree? fuel (v.chars ++ rest) = some (v.tree, rest) := by
  obtain ⟨fuel, rfl⟩ : ∃ n, fuel = n + 1 := ⟨fuel - 1, by omega⟩
  cases v with
  | null => exact readTree?_null fuel rest
  | bool b =>
    cases b with
    | true => rw [Value.chars, Value.tree, if_pos rfl, readTree?]; rfl
    | false => rw [Value.chars, Value.tree, if_neg (by decide), readTree?]; rfl
  | natural n =>
    have h := readTree?_number fuel true _ (wellFormed_whole false n) rest hrest
    rwa [chars_whole] at h
  | negative n =>
    have h := readTree?_number fuel true _ (wellFormed_whole true n) rest hrest
    rwa [chars_whole] at h
  | double x => exact readTree?_double fuel x rest hrest
  | text s => exact readTree?_text fuel s rest
  | array items =>
    cases items with
    | nil => rfl
    | cons v items =>
      obtain ⟨c, s, hc, hbegins⟩ := itemsChars_begins v items
      have hlen : 2 * (Value.itemsChars (v :: items)).length + 1 < fuel := by
        rw [Value.chars] at hfuel
        simp only [List.length_append, List.length_cons, List.length_nil] at hfuel
        omega
      have hitems := readItems?_chars (v :: items) fuel rest hlen (by simp)
      have harray := readTree?_array fuel c (s ++ ']' :: rest) hbegins
      rw [← List.cons_append, ← hc, hitems] at harray
      rw [Value.chars, List.cons_append, List.cons_append, List.append_assoc]
      exact harray
  | object members =>
    cases members with
    | nil => rfl
    | cons m members =>
      have hlen : 2 * (Value.membersChars (m :: members)).length + 1 < fuel := by
        rw [Value.chars] at hfuel
        simp only [List.length_append, List.length_cons, List.length_nil] at hfuel
        omega
      have hmembers := readMembers?_chars (m :: members) fuel rest hlen (by simp)
      obtain ⟨t, ht⟩ := membersChars_quote m members
      rw [ht, List.cons_append] at hmembers
      have hobject := readTree?_object fuel _ (t ++ '\x7d' :: rest) (skipGaps_cons _ rfl)
      rw [hmembers, ← List.cons_append, ← ht] at hobject
      rw [Value.chars, List.cons_append, List.cons_append, List.append_assoc]
      exact hobject

theorem readItems?_chars (items : List Value) (fuel : Nat) (rest : List Char)
    (hfuel : 2 * (Value.itemsChars items).length + 1 < fuel) (hne : items ≠ []) :
    readItems? fuel (Value.itemsChars items ++ ']' :: rest) =
      some (Value.itemsTrees items, rest) := by
  obtain ⟨fuel, rfl⟩ : ∃ n, fuel = n + 1 := ⟨fuel - 1, by omega⟩
  match items with
  | [] => exact absurd rfl hne
  | [v] =>
    rw [Value.itemsChars] at hfuel ⊢
    have hv := readTree?_chars v fuel (']' :: rest) (by omega) (ends_cons rest (by simp))
    exact readItems?_bracket fuel _ _ _ _ hv (skipGaps_cons _ rfl)
  | v :: v' :: items =>
    rw [Value.itemsChars_cons_cons] at hfuel ⊢
    rw [List.append_assoc, List.cons_append]
    simp only [List.length_append, List.length_cons] at hfuel
    have hv := readTree?_chars v fuel (',' :: (Value.itemsChars (v' :: items) ++ ']' :: rest))
      (by omega) (ends_cons _ (by simp))
    have hitems := readItems?_chars (v' :: items) fuel rest (by omega) (by simp)
    rw [readItems?_comma fuel _ _ _ _ hv (skipGaps_cons _ rfl), hitems]
    rfl

theorem readMembers?_chars (members : List (String × Value)) (fuel : Nat) (rest : List Char)
    (hfuel : 2 * (Value.membersChars members).length + 1 < fuel) (hne : members ≠ []) :
    readMembers? fuel (Value.membersChars members ++ '\x7d' :: rest) =
      some (Value.membersTrees members, rest) := by
  obtain ⟨fuel, rfl⟩ : ∃ n, fuel = n + 1 := ⟨fuel - 1, by omega⟩
  match members with
  | [] => exact absurd rfl hne
  | [(k, v)] =>
    rw [Value.membersChars] at hfuel ⊢
    simp only [List.length_append, List.length_cons] at hfuel
    have hv := readTree?_chars v fuel ('\x7d' :: rest) (by omega) (ends_cons rest (by simp))
    rw [List.append_assoc, List.cons_append]
    exact readMembers?_brace fuel (beginsMember_quoted (skipGaps_quoted k _)) hv
      (skipGaps_cons _ rfl)
  | (k, v) :: m :: members =>
    rw [Value.membersChars_cons_cons] at hfuel ⊢
    simp only [List.append_assoc, List.cons_append]
    simp only [List.length_append, List.length_cons] at hfuel
    have hv := readTree?_chars v fuel (',' :: (Value.membersChars (m :: members) ++ '\x7d' :: rest))
      (by omega) (ends_cons _ (by simp))
    have hmembers := readMembers?_chars (m :: members) fuel rest (by omega) (by simp)
    rw [readMembers?_comma fuel (beginsMember_quoted (skipGaps_quoted k _)) hv (skipGaps_cons _ rfl),
      hmembers]
    rfl

end

/-- The text of a value is its document. -/
theorem ofText?_compact (v : Value) : Tree.ofText? v.compact = some v.tree := by
  have hends : Numeral.Ends [] := by simp [Numeral.Ends]
  have hread := readTree?_chars v (2 * v.chars.length + 2) [] (by omega) hends
  rw [List.append_nil] at hread
  unfold Tree.ofText? Value.compact
  simp only [String.toList_ofList, hread]
  rfl

/-! ## Records -/

theorem keyed?_members (members : List (String × Value)) :
    Tree.keyed? (Value.membersTrees members) = some (members.map fun m => (m.1, m.2.tree)) := by
  rw [Value.membersTrees_eq]
  exact keyed?_piecesOf Value.tree members

/-- Of members with different keys, the one under a key is found. -/
theorem single?_of_nodup (members : List (String × Tree)) (h : (members.map (·.1)).Nodup)
    (key : String) : Tree.single? key members = some (members.lookup key) := by
  induction members with
  | nil => rfl
  | cons m rest ih =>
    obtain ⟨k, t⟩ := m
    obtain ⟨hk, hrest⟩ := List.nodup_cons.mp h
    unfold Tree.single? at ih ⊢
    rw [Table.lookup_entry, List.filter_cons]
    by_cases hkey : key = k
    · subst hkey
      have hnone : rest.filter (fun m => m.1 == key) = [] := by
        apply List.filter_eq_nil_iff.mpr
        intro m hm heq
        rw [beq_iff_eq] at heq
        exact hk (List.mem_map.mpr ⟨m, hm, heq⟩)
      simp [hnone]
    · have hne : (k == key) = false := by simpa using Ne.symm hkey
      simp only [hne, Bool.false_eq_true, if_false, hkey]
      exact ih hrest

/-- The document parts of the members that are present. -/
def presentTrees (members : List (String × Option Value)) : List (String × Tree) :=
  (presentMembers members).map fun m => (m.1, m.2.tree)

theorem presentTrees_cons (k : String) (value : Option Value)
    (rest : List (String × Option Value)) :
    presentTrees ((k, value) :: rest) =
      match value with
      | some v => (k, v.tree) :: presentTrees rest
      | none => presentTrees rest := by
  cases value <;> rfl

theorem presentTrees_keys (members : List (String × Option Value)) :
    ((presentTrees members).map (·.1)).Sublist (members.map (·.1)) := by
  induction members with
  | nil => exact .slnil
  | cons m rest ih =>
    obtain ⟨k, value⟩ := m
    rw [presentTrees_cons]
    cases value with
    | none => exact ih.cons k
    | some v => exact ih.cons_cons k

theorem lookup_presentTrees (members : List (String × Option Value))
    (h : (members.map (·.1)).Nodup) (m : String × Option Value) (hm : m ∈ members) :
    (presentTrees members).lookup m.1 = m.2.map Value.tree := by
  induction members with
  | nil => cases hm
  | cons m' rest ih =>
    obtain ⟨k, value⟩ := m'
    obtain ⟨hk, hrest⟩ := List.nodup_cons.mp h
    rw [presentTrees_cons]
    rcases List.mem_cons.mp hm with rfl | hin
    · cases value with
      | none =>
        apply List.lookup_eq_none_iff.mpr
        intro p hp
        have hmem := (presentTrees_keys rest).subset (List.mem_map_of_mem hp)
        simp only [bne_iff_ne, ne_eq]
        rintro rfl
        exact hk hmem
      | some v => rw [Table.lookup_entry, if_pos rfl]; rfl
    · have hne : m.1 ≠ k := by
        intro heq
        exact hk (List.mem_map.mpr ⟨m, hin, heq⟩)
      cases value with
      | none => exact ih hrest hin
      | some v => rw [Table.lookup_entry, if_neg hne]; exact ih hrest hin

/-- The fields of a record are those that it was written with, as far as they were present. -/
theorem fields?_present (members : List (String × Option Value))
    (h : (members.map (·.1)).Nodup) :
    (Value.object (presentMembers members)).tree.fields? (members.map (·.1)) =
      some (members.map fun m => m.2.map Value.tree) := by
  have hnodup := h.sublist (presentTrees_keys members)
  have hkeyed := keyed?_members (presentMembers members)
  have hsingle : ∀ key, Tree.single? key (presentTrees members) =
      some ((presentTrees members).lookup key) := single?_of_nodup _ hnodup
  rw [Value.tree, Tree.fields?, Tree.members?, hkeyed, Option.bind_eq_bind, Option.bind_some]
  have hnames : (members.map (·.1)).mapM (fun key => Tree.single? key (presentTrees members)) =
      some ((members.map (·.1)).map fun key => (presentTrees members).lookup key) := by
    simp only [hsingle]
    exact List.mapM_pure
  rw [List.map_map] at hnames
  have hlookup := List.map_congr_left (lookup_presentTrees members h)
  exact hnames.trans (congrArg some hlookup)

end Gazetteer.Json
