import Mathlib.Data.List.Basic
import Gazetteer.Provider.Nominatim

/-!
# The boxes of places

A service tells the box of a place by four texts: its south, north, west and east.  Texts that are
no numbers are left out before the others are counted.  So four numbers are a box with each side at
its place, and less or more than four numbers are none; but four numbers among more than four texts
are a box as well, and its sides may be the numbers next to their own.

    boundsOf sides = some b ↔ the numbers among sides are b.sides          (boundsOf_eq_some_iff)
    InPlace sides b ↔ these are the numbers, and there is no other text           (inPlace_iff)
    boundsOf tells what is in place ↔ ¬ Padded sides                     (boundsOf_in_place_iff)
-/

namespace Gazetteer

/-- The sides of a box in the order in which a service tells them. -/
def Bounds.sides (b : Bounds) : List Binary64 := [b.south, b.north, b.west, b.east]

namespace Nominatim

/-- The number that a text is, if it is one. -/
def number? (text : String) : Option Binary64 := (Binary64.ofText text).toOption

/-- The texts are the four sides of the box, each at its place. -/
def InPlace (sides : List String) (b : Bounds) : Prop := sides.map number? = b.sides.map some

instance (sides : List String) (b : Bounds) : Decidable (InPlace sides b) :=
  inferInstanceAs (Decidable (_ = _))

/-- Four numbers among more than four texts. -/
def Padded (sides : List String) : Prop := 4 < sides.length ∧ (sides.filterMap number?).length = 4

instance (sides : List String) : Decidable (Padded sides) := inferInstanceAs (Decidable (_ ∧ _))

/-- A box is made of the numbers among the texts. -/
theorem boundsOf_eq_some_iff (sides : List String) (b : Bounds) :
    boundsOf sides = some b ↔ sides.filterMap number? = b.sides := by
  have hnumbers : (sides.filterMap fun s => (Binary64.ofText s).toOption) =
      sides.filterMap number? := rfl
  unfold boundsOf
  rw [hnumbers]
  generalize sides.filterMap number? = numbers
  constructor
  · intro h
    split at h
    · cases h
      rfl
    · cases h
  · rintro rfl
    rfl

/-- Values are those of all items if and only if nothing is left out. -/
theorem map_eq_map_some_iff {α β : Type} (f : α → Option β) (l : List α) (values : List β) :
    l.map f = values.map some ↔ l.filterMap f = values ∧ l.length = values.length := by
  induction l generalizing values with
  | nil => cases values <;> simp
  | cons a rest ih =>
    cases hf : f a with
    | none =>
      have hle := List.length_filterMap_le f rest
      constructor
      · intro h
        cases values with
        | nil => cases h
        | cons v values =>
          rw [List.map_cons, hf] at h
          cases (List.cons.inj h).1
      · rintro ⟨hvalues, hlength⟩
        rw [List.filterMap_cons, hf] at hvalues
        rw [← hvalues, List.length_cons] at hlength
        dsimp only at hlength
        omega
    | some b =>
      cases values with
      | nil => simp
      | cons v values =>
        have hrest := ih values
        simp only [List.map_cons, List.filterMap_cons, hf, List.cons.injEq, Option.some.injEq,
          List.length_cons, Nat.add_right_cancel_iff, hrest]
        exact and_assoc.symm

theorem inPlace_iff (sides : List String) (b : Bounds) :
    InPlace sides b ↔ sides.filterMap number? = b.sides ∧ sides.length = 4 :=
  map_eq_map_some_iff number? sides b.sides

/-- What is in place is a box. -/
theorem InPlace.boundsOf {sides : List String} {b : Bounds} (h : InPlace sides b) :
    boundsOf sides = some b :=
  (boundsOf_eq_some_iff sides b).mpr ((inPlace_iff sides b).mp h).1

/-- Four numbers are a box, whatever stands between them. -/
theorem exists_boundsOf {sides : List String} (h : (sides.filterMap number?).length = 4) :
    ∃ b, boundsOf sides = some b := by
  obtain ⟨south, north, west, east, hnumbers⟩ := List.length_eq_four.mp h
  exact ⟨⟨south, west, north, east⟩, (boundsOf_eq_some_iff sides _).mpr hnumbers⟩

/-- Boxes are in place unless they are padded.  A list of texts has for its box the one that its
four texts are in place for, or none, except when it has four numbers among more than four texts.
Then these numbers are the box, though none is in place for the list; its sides are those of the
first four texts if and only if all of these are numbers. -/
theorem boundsOf_in_place_iff (sides : List String) :
    ((∀ b, boundsOf sides = some b ↔ InPlace sides b) ↔ ¬ Padded sides) ∧
    (Padded sides → ∃ b, boundsOf sides = some b ∧ sides.filterMap number? = b.sides ∧
      (∀ b', ¬ InPlace sides b') ∧
      (InPlace (sides.take 4) b ↔ ∀ text ∈ sides.take 4, (number? text).isSome)) := by
  have hpadded (h : Padded sides) (b : Bounds) : ¬ InPlace sides b := by
    rw [inPlace_iff]
    have hlong := h.1
    omega
  refine ⟨⟨?_, ?_⟩, ?_⟩
  · intro hright h
    obtain ⟨b, hb⟩ := exists_boundsOf h.2
    exact hpadded h b ((hright b).mp hb)
  · intro h b
    refine ⟨fun hb => ?_, InPlace.boundsOf⟩
    have hnumbers := (boundsOf_eq_some_iff sides b).mp hb
    have hfour : (sides.filterMap number?).length = 4 := by rw [hnumbers]; rfl
    have hle := List.length_filterMap_le number? sides
    have hnot : ¬ 4 < sides.length := fun hlong => h ⟨hlong, hfour⟩
    exact (inPlace_iff sides b).mpr ⟨hnumbers, by omega⟩
  · intro h
    obtain ⟨b, hb⟩ := exists_boundsOf h.2
    have hnumbers := (boundsOf_eq_some_iff sides b).mp hb
    refine ⟨b, hb, hnumbers, hpadded h, ?_⟩
    have hlength : (sides.take 4).length = 4 := by
      rw [List.length_take]
      exact Nat.min_eq_left (Nat.le_of_lt h.1)
    have hcount : ((sides.take 4).filterMap number?).length = 4 ↔
        ∀ text ∈ sides.take 4, (number? text).isSome := by
      have hall :=
        List.countP_eq_length (l := sides.take 4) (p := fun text => (number? text).isSome)
      rw [hlength] at hall
      rw [List.length_filterMap_eq_countP, hall]
    rw [inPlace_iff, ← hcount]
    constructor
    · rintro ⟨heq, -⟩
      rw [heq]
      rfl
    · intro hfour
      refine ⟨?_, hlength⟩
      -- The numbers of the first four texts are the first of all numbers, and they are four.
      have hsplit : (sides.take 4).filterMap number? ++ (sides.drop 4).filterMap number? =
          b.sides ++ [] := by
        rw [← List.filterMap_append, List.take_append_drop, hnumbers, List.append_nil]
      exact List.append_inj_left hsplit hfour

/-- Four numbers are in place by themselves, and with a fifth text behind them they are a box still.
-/
theorem boundsOf_in_place_iff_trailing :
    let sides := ["1", "2", "3", "4"]
    (∀ b, boundsOf sides = some b ↔ InPlace sides b) ∧
    Padded (sides ++ ["x"]) ∧ ∃ b, boundsOf (sides ++ ["x"]) = some b ∧ InPlace sides b := by
  intro sides
  have hfour : ¬ Padded sides := by decide +kernel
  have hfive : Padded (sides ++ ["x"]) := by decide +kernel
  have hnumbers : ∀ text ∈ (sides ++ ["x"]).take 4, (number? text).isSome := by
    rw [← List.all_eq_true]
    decide +kernel
  obtain ⟨b, hb, -, -, hplace⟩ := (boundsOf_in_place_iff (sides ++ ["x"])).2 hfive
  exact ⟨(boundsOf_in_place_iff sides).1.mpr hfour, hfive, b, hb, hplace.mpr hnumbers⟩

/-- A list whose first text is no number, and four more: the box of the place begins with the
second text, and so does that of the address that a search is answered with. -/
theorem boundsOf_out_of_place :
    let sides := ["x", "1", "2", "3", "4"]
    let box : Bounds := ⟨.ofNat 1, .ofNat 3, .ofNat 2, .ofNat 4⟩
    let service : Service := ⟨.openStreetMap, openStreetMapUrl, none⟩
    let body := "[\x7b\"lat\": \"1\", \"lon\": \"2\", " ++
      "\"boundingbox\": [\"x\", \"1\", \"2\", \"3\", \"4\"]\x7d]"
    boundsOf sides = some box ∧ ¬ InPlace sides box ∧ number? "x" = none ∧
      (service.addresses body).toOption.map (·.map (·.bounds)) = some [some box] := by
  decide +kernel

end Nominatim

end Gazetteer
