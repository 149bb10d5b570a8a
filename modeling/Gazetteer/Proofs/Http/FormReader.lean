import Gazetteer.Http.Form
import Gazetteer.Json.Document
import Gazetteer.Proofs.Text.Split

/-!
# Form parameters are read back

A reader of form parameters, which divides a query at `&` and each part at its first `=`, takes `+`
for a space and `%` with two digits for a byte, and reads the bytes as UTF-8.  The writer lets no
mark of the form through, so the reader finds every name and value as it was, whatever characters
are in it.

    formBytes (formPart s ++ rest) = the bytes of s, and those of rest         (formBytes_formPart)
    formParameters? (formChars ps) = some ps                            (formParameters?_formChars)
-/

namespace Gazetteer.Http

/-! ## Reader -/

/-- The bytes that characters of a form stand for.  A `%` without two digits stands for itself. -/
def formBytes : List Char → List UInt8
  | '%' :: high :: low :: rest =>
    match Json.hexValue? high, Json.hexValue? low with
    | some h, some l => UInt8.ofNat (16 * h + l) :: formBytes rest
    | _, _ => String.utf8EncodeChar '%' ++ formBytes (high :: low :: rest)
  | '+' :: rest => String.utf8EncodeChar ' ' ++ formBytes rest
  | c :: rest => String.utf8EncodeChar c ++ formBytes rest
  | [] => []

/-- The text of a name or value; none if its bytes are not UTF-8. -/
def formText? (part : List Char) : Option String := String.fromUTF8? (formBytes part).toByteArray

/-- A name with its value, which is empty if there is none. -/
def formParameter? (part : List Char) : Option (String × String) :=
  match Text.splitOnce '=' part with
  | some (name, value) => do return (← formText? name, ← formText? value)
  | none => do return (← formText? part, "")

/-- The parameters of a query, in order.  Empty parts are none. -/
def formParameters? (query : String) : Option (List (String × String)) :=
  ((Text.splitAt '&' query.toList).filter (· ≠ [])).mapM formParameter?

/-! ## Bytes -/

/-- A hexadecimal digit is a character of the form, and is read as its value. -/
theorem hexDigit_spec (n : Nat) :
    isFormChar (hexDigit n) = true ∧ Json.hexValue? (hexDigit n) = some (n % 16) := by
  have hall : ∀ m < 16, isFormChar (hexDigit m) = true ∧ Json.hexValue? (hexDigit m) = some m := by
    decide +kernel
  have hdigit : hexDigit n = hexDigit (n % 16) := by rw [hexDigit, hexDigit, Nat.mod_mod]
  rw [hdigit]
  exact hall (n % 16) (Nat.mod_lt n (by decide))

theorem formBytes_encodedByte (b : UInt8) (rest : List Char) :
    formBytes (encodedByte b ++ rest) = b :: formBytes rest := by
  have hlt := b.toNat_lt
  have hvalue : 16 * (b.toNat / 16 % 16) + b.toNat % 16 = b.toNat := by omega
  rw [encodedByte, List.cons_append, List.cons_append, List.cons_append, List.nil_append,
    formBytes, (hexDigit_spec _).2, (hexDigit_spec _).2]
  simp only [hvalue, UInt8.ofNat_toNat]

theorem formBytes_encoded (bytes : List UInt8) (rest : List Char) :
    formBytes (bytes.flatMap encodedByte ++ rest) = bytes ++ formBytes rest := by
  induction bytes with
  | nil => rfl
  | cons b bytes ih =>
    rw [List.flatMap_cons, List.append_assoc, formBytes_encodedByte, ih, List.cons_append]

theorem formBytes_plain {c : Char} (hpercent : c ≠ '%') (hplus : c ≠ '+') (rest : List Char) :
    formBytes (c :: rest) = String.utf8EncodeChar c ++ formBytes rest := by
  rw [formBytes.eq_def]
  split <;> simp_all

theorem not_mark_of_isFormChar {c : Char} (h : isFormChar c = true) :
    c ≠ '%' ∧ c ≠ '+' ∧ c ≠ '&' ∧ c ≠ '=' := by
  refine ⟨?_, ?_, ?_, ?_⟩
  all_goals
    rintro rfl
    revert h
    decide

theorem formBytes_formPart (s : String) (rest : List Char) :
    formBytes (formPart s ++ rest) = s.toList.flatMap String.utf8EncodeChar ++ formBytes rest := by
  rw [formPart]
  induction s.toList with
  | nil => rfl
  | cons c chars ih =>
    rw [List.flatMap_cons, List.flatMap_cons, List.append_assoc, List.append_assoc, ← ih]
    split
    · next hspace => rw [hspace, List.singleton_append, formBytes]
    · split
      · next hchar =>
        obtain ⟨hpercent, hplus, -⟩ := not_mark_of_isFormChar hchar
        rw [List.singleton_append, formBytes_plain hpercent hplus]
      · exact formBytes_encoded _ _

theorem formText?_formPart (s : String) : formText? (formPart s) = some s := by
  have hbytes : (formBytes (formPart s)).toByteArray = s.toByteArray := by
    have h := formBytes_formPart s []
    rw [List.append_nil, formBytes, List.append_nil] at h
    rw [h]
    conv => rhs; rw [← String.ofList_toList (s := s)]
    rfl
  rw [formText?, hbytes, String.fromUTF8?, dif_pos s.isValidUTF8]
  rfl

/-! ## Parameters -/

/-- What stands in a name or value: characters of the form, `+` and `%`. -/
theorem mem_formPart {s : String} {c : Char} (h : c ∈ formPart s) :
    isFormChar c = true ∨ c = '+' ∨ c = '%' := by
  obtain ⟨d, -, hd⟩ := List.mem_flatMap.mp h
  split at hd
  · exact .inr (.inl (List.mem_singleton.mp hd))
  · split at hd
    · next hchar =>
      rw [List.mem_singleton.mp hd]
      exact .inl hchar
    · obtain ⟨b, -, hb⟩ := List.mem_flatMap.mp hd
      simp only [encodedByte, List.mem_cons, List.not_mem_nil, or_false] at hb
      rcases hb with rfl | rfl | rfl
      · exact .inr (.inr rfl)
      · exact .inl (hexDigit_spec _).1
      · exact .inl (hexDigit_spec _).1

theorem marks_notMem_formPart (s : String) : '&' ∉ formPart s ∧ '=' ∉ formPart s := by
  constructor
  all_goals
    intro h
    rcases mem_formPart h with hchar | heq | heq
    · revert hchar
      decide
    · revert heq
      decide
    · revert heq
      decide

/-- A parameter as it stands in a query. -/
def parameterChars (p : String × String) : List Char := formPart p.1 ++ '=' :: formPart p.2

theorem formParameter?_parameterChars (p : String × String) :
    formParameter? (parameterChars p) = some p := by
  rw [formParameter?, parameterChars, Text.splitOnce_append _ _ _ (marks_notMem_formPart p.1).2]
  simp only [formText?_formPart]
  rfl

theorem formParameters?_formChars (ps : List (String × String)) :
    formParameters? (String.ofList (formChars ps)) = some ps := by
  have hread : (ps.map parameterChars).mapM formParameter? = some ps := by
    induction ps with
    | nil => rfl
    | cons p ps ih =>
      rw [List.map_cons, List.mapM_cons, formParameter?_parameterChars, ih]
      rfl
  have hkept : (ps.map parameterChars).filter (· ≠ []) = ps.map parameterChars := by
    apply List.filter_eq_self.mpr
    intro part hpart
    obtain ⟨p, -, rfl⟩ := List.mem_map.mp hpart
    simp [parameterChars]
  have hchars : formChars ps = ['&'].intercalate (ps.map parameterChars) := rfl
  rw [formParameters?, String.toList_ofList, hchars]
  cases ps with
  | nil => rfl
  | cons p ps =>
    rw [List.map_cons, Text.splitAt_intercalate, ← List.map_cons, hkept, hread]
    intro part hpart
    rw [← List.map_cons] at hpart
    obtain ⟨p, -, rfl⟩ := List.mem_map.mp hpart
    simp [parameterChars, (marks_notMem_formPart _).1]

end Gazetteer.Http
