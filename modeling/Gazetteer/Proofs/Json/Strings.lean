import Gazetteer.Json.Document

/-!
# String literals are read back

A text that is written as a string literal is read as the pieces it was written in, and these stand
for the characters of the text.  Only control characters without a letter of their own are written
as codes, so no surrogates come in.

    readPieces? (s.flatMap escapeChar ++ '"' :: rest) = some (s.map Piece.ofChar, rest)
    Piece.text? (piecesOf s) = some s
-/

namespace Gazetteer.Json

/-- The piece that a character is written as. -/
def Piece.ofChar (c : Char) : Piece :=
  if c.toNat < 0x20 ∧ c ≠ '\n' ∧ c ≠ '\r' ∧ c ≠ '\t' ∧ c ≠ '\x08' ∧ c ≠ '\x0c' then .code c.toNat
  else .char c

/-- The pieces that a text is written as. -/
def piecesOf (s : String) : List Piece := s.toList.map Piece.ofChar

/-! ## Reading -/

/-- A character is written with a letter, with a code, or as it is. -/
theorem escapeChar_cases (c : Char) :
    (∃ e, escapeChar c = ['\\', e] ∧ e ≠ 'u' ∧ escaped? e = some c ∧ Piece.ofChar c = .char c) ∨
    (c.toNat < 0x20 ∧ Piece.ofChar c = .code c.toNat ∧
      escapeChar c = ['\\', 'u', '0', '0', hexDigit (c.toNat / 16), hexDigit c.toNat]) ∨
    (c ≠ '"' ∧ c ≠ '\\' ∧ ¬ c.toNat < 0x20 ∧ escapeChar c = [c] ∧ Piece.ofChar c = .char c) := by
  by_cases hletter : c = '"' ∨ c = '\\' ∨ c = '\n' ∨ c = '\r' ∨ c = '\t' ∨ c = '\x08' ∨ c = '\x0c'
  · left
    rcases hletter with rfl | rfl | rfl | rfl | rfl | rfl | rfl
    all_goals exact ⟨_, rfl, by decide, rfl, rfl⟩
  · right
    simp only [not_or] at hletter
    obtain ⟨hq, hs, hn, hr, ht, hb, hf⟩ := hletter
    by_cases h : c.toNat < 0x20
    · exact .inl ⟨h, by simp [Piece.ofChar, *], by simp [escapeChar, *]⟩
    · exact .inr ⟨hq, hs, h, by simp [escapeChar, *], by simp [Piece.ofChar, *]⟩

theorem hexCode?_hexDigit : ∀ n < 0x20,
    hexCode? '0' '0' (hexDigit (n / 16)) (hexDigit n) = some n := by
  decide

theorem readPieces?_escapeChar (c : Char) (rest : List Char) :
    readPieces? (escapeChar c ++ rest) =
      (readPieces? rest).map fun (pieces, rest) => (Piece.ofChar c :: pieces, rest) := by
  rcases escapeChar_cases c with ⟨e, h, hu, he, hp⟩ | ⟨hlt, hp, h⟩ | ⟨hq, hs, hlt, h, hp⟩
  · rw [h, hp]
    have hread : readPieces? ('\\' :: e :: rest) = (escaped? e).bind fun c =>
        (readPieces? rest).bind fun (pieces, rest) => some (.char c :: pieces, rest) := by
      rw [readPieces?]
      · rfl
      · intro a b c d s h
        simp_all
    rw [List.cons_append, List.cons_append, List.nil_append, hread, he]
    cases readPieces? rest <;> rfl
  · rw [h, hp]
    have hcode := hexCode?_hexDigit c.toNat hlt
    simp only [List.cons_append, List.nil_append]
    rw [readPieces?, hcode]
    cases readPieces? rest <;> rfl
  · rw [h, hp, List.cons_append, List.nil_append, readPieces?]
    · rw [if_neg (by simp [hs, hlt])]
    · exact hq
    · intro a b c d s h
      simp_all
    · intro e s h
      simp_all

theorem readPieces?_literal (s : List Char) (rest : List Char) :
    readPieces? (s.flatMap escapeChar ++ '"' :: rest) = some (s.map Piece.ofChar, rest) := by
  induction s with
  | nil => rfl
  | cons c s ih =>
    rw [List.flatMap_cons, List.append_assoc, readPieces?_escapeChar, ih]
    rfl

/-! ## What the pieces stand for -/

theorem chars?_code (n : Nat) (rest : List Piece) (h : n < 0x20) :
    Piece.chars? (.code n :: rest) = (Piece.chars? rest).map (Char.ofNat n :: ·) := by
  have hhigh : isHighSurrogate n = false := by simp [isHighSurrogate]; omega
  have hlow : isLowSurrogate n = false := by simp [isLowSurrogate]; omega
  cases rest with
  | nil => simp [Piece.chars?, hhigh, hlow]
  | cons p rest => cases p <;> simp [Piece.chars?, hhigh, hlow]

theorem chars?_ofChar (c : Char) (rest : List Piece) :
    Piece.chars? (Piece.ofChar c :: rest) = (Piece.chars? rest).map (c :: ·) := by
  unfold Piece.ofChar
  split
  · next h => rw [chars?_code _ _ h.1, Char.ofNat_toNat]
  · rw [Piece.chars?]

@[simp] theorem text?_piecesOf (s : String) : Piece.text? (piecesOf s) = some s := by
  have h : Piece.chars? (s.toList.map Piece.ofChar) = some s.toList := by
    induction s.toList with
    | nil => rfl
    | cons c rest ih => rw [List.map_cons, chars?_ofChar, ih]; rfl
  rw [Piece.text?, piecesOf, h]
  simp

end Gazetteer.Json
