import BitRelay.Js.Web
import BitRelay.Lib.Lines
import BitRelay.Lib.PrefixCode

/-!
# Bytes and parameters as text

How the host spells bytes in a text: the UTF-8 bytes of a text, a byte as two hex digits, and the
form-urlencoded text of `URLSearchParams`. Each spelling is read back.

Results:
1. `utf8_injective`, `toHex_injective`, `formEncode_injective`: the text or the bytes are
   determined by their spelling.
2. `paramsToString_injective`: a list of parameters is determined by `params.toString()`.
-/

namespace BitRelay

/-- A text is determined by its UTF-8 bytes. -/
theorem utf8_injective :
    Function.Injective fun text : String => text.toList.flatMap String.utf8EncodeChar := by
  intro s t h
  have hbytes : s.toList.utf8Encode = t.toList.utf8Encode := congrArg List.toByteArray h
  rw [String.utf8Encode_toList, String.utf8Encode_toList] at hbytes
  exact String.toByteArray_inj.mp hbytes

/-! ## Hex digits -/

/-- `byte.toString(16).padStart(2, '0')` -/
def byteHex (b : UInt8) : List Char := [Nat.digitChar (b.toNat / 16), Nat.digitChar (b.toNat % 16)]

/-- `toHex(bytes)` -/
def toHex (bytes : Bytes) : String := String.ofList (bytes.flatMap byteHex)

/-- The digits that `toHex` writes. -/
def isLowerHexDigit (c : Char) : Bool :=
  c.isDigit || decide (c ∈ ['a', 'b', 'c', 'd', 'e', 'f'])

namespace FormTextLemmas

theorem digitChar_inj : ∀ n < 16, ∀ m < 16, Nat.digitChar n = Nat.digitChar m → n = m := by decide

theorem isLowerHexDigit_digitChar : ∀ n < 16, isLowerHexDigit (Nat.digitChar n) = true := by decide

/-- The two digits of a byte to the base 16. -/
theorem eq_of_hexDigits {b b' : UInt8} (hhigh : b.toNat / 16 = b'.toNat / 16)
    (hlow : b.toNat % 16 = b'.toNat % 16) : b = b' := by
  refine UInt8.toNat_inj.mp ?_
  rw [← Nat.div_add_mod b.toNat 16, hhigh, hlow, Nat.div_add_mod]

theorem hexDigits_lt (b : UInt8) : b.toNat / 16 < 16 ∧ b.toNat % 16 < 16 := by
  have hb := b.toNat_lt
  omega

theorem byteHex_prefixCode : PrefixCode byteHex := by
  refine .of_length (n := 2) (by decide) (fun _ => rfl) ?_
  intro b b' h
  obtain ⟨hhigh, hlow⟩ := hexDigits_lt b
  obtain ⟨hhigh', hlow'⟩ := hexDigits_lt b'
  obtain ⟨hfirst, hrest⟩ := List.cons.inj h
  exact eq_of_hexDigits (digitChar_inj _ hhigh _ hhigh' hfirst)
    (digitChar_inj _ hlow _ hlow' (List.cons.inj hrest).1)

end FormTextLemmas

open FormTextLemmas

theorem toHex_injective : Function.Injective toHex := by
  intro bytes bytes' h
  exact byteHex_prefixCode.flatMap_injective (String.ofList_injective h)

theorem isLowerHexDigit_of_mem_toHex {bytes : Bytes} {c : Char} (h : c ∈ (toHex bytes).toList) :
    isLowerHexDigit c = true := by
  unfold toHex at h
  rw [String.toList_ofList, List.mem_flatMap] at h
  obtain ⟨b, -, hc⟩ := h
  obtain ⟨hhigh, hlow⟩ := hexDigits_lt b
  rcases List.mem_cons.mp hc with rfl | hc
  · exact isLowerHexDigit_digitChar _ hhigh
  · rw [List.mem_singleton.mp hc]
    exact isLowerHexDigit_digitChar _ hlow

/-! ## Form-urlencoded texts -/

/-- The characters of a form-urlencoded name or value. -/
def isFormChar (c : Char) : Bool :=
  c.isAlphanum || decide (c ∈ ['*', '-', '.', '_', '+', '%'])

namespace FormTextLemmas

theorem percentDigit_inj : ∀ n < 16, ∀ m < 16, percentDigit n = percentDigit m → n = m := by decide

theorem isFormChar_percentDigit : ∀ n < 16, isFormChar (percentDigit n) = true := by decide

/-- The three ways in which a byte is written. -/
theorem formByte_cases (b : UInt8) :
    (b = 0x20 ∧ formByte b = ['+']) ∨
    (∃ c : Char, c.toNat = b.toNat ∧ (c.isAlphanum ∨ c ∈ ['*', '-', '.', '_']) ∧ formByte b = [c]) ∨
    formByte b = ['%', percentDigit (b.toNat / 16), percentDigit (b.toNat % 16)] := by
  unfold formByte
  simp only
  split
  · next hspace => exact .inl ⟨hspace, rfl⟩
  · split
    · next hplain =>
      refine .inr (.inl ⟨_, ?_, hplain.2, rfl⟩)
      have hvalid : Nat.isValidChar b.toNat := .inl (by omega)
      unfold Char.ofNat
      rw [dif_pos hvalid]
      rfl
    · exact .inr (.inr rfl)

/-- A character that stands for itself is neither of the two that announce another byte. -/
theorem plain_ne {c : Char} (h : c.isAlphanum ∨ c ∈ ['*', '-', '.', '_']) : c ≠ '+' ∧ c ≠ '%' := by
  constructor
  · rintro rfl
    revert h
    decide
  · rintro rfl
    revert h
    decide

theorem formByte_prefixCode : PrefixCode formByte where
  nonempty b h := by
    rcases formByte_cases b with ⟨-, hb⟩ | ⟨c, -, -, hb⟩ | hb <;> rw [hb] at h <;> cases h
  determined {b b' u v} h := by
    rcases formByte_cases b with ⟨hspace, hb⟩ | ⟨c, hc, hplain, hb⟩ | hb
    · rcases formByte_cases b' with ⟨hspace', hb'⟩ | ⟨c', -, hplain', hb'⟩ | hb'
      · rw [hspace, hspace']
      · rw [hb, hb'] at h
        exact absurd (List.cons.inj h).1.symm (plain_ne hplain').1
      · rw [hb, hb'] at h
        exact absurd (List.cons.inj h).1 (by decide)
    · rcases formByte_cases b' with ⟨-, hb'⟩ | ⟨c', hc', -, hb'⟩ | hb'
      · rw [hb, hb'] at h
        exact absurd (List.cons.inj h).1 (plain_ne hplain).1
      · rw [hb, hb'] at h
        have hsame : c = c' := (List.cons.inj h).1
        exact UInt8.toNat_inj.mp (hc.symm.trans ((congrArg Char.toNat hsame).trans hc'))
      · rw [hb, hb'] at h
        exact absurd (List.cons.inj h).1 (plain_ne hplain).2
    · rcases formByte_cases b' with ⟨-, hb'⟩ | ⟨c', -, hplain', hb'⟩ | hb'
      · rw [hb, hb'] at h
        exact absurd (List.cons.inj h).1 (by decide)
      · rw [hb, hb'] at h
        exact absurd (List.cons.inj h).1.symm (plain_ne hplain').2
      · rw [hb, hb'] at h
        obtain ⟨hhigh, hlow⟩ := hexDigits_lt b
        obtain ⟨hhigh', hlow'⟩ := hexDigits_lt b'
        obtain ⟨hfirst, hrest⟩ := List.cons.inj (List.cons.inj h).2
        exact eq_of_hexDigits (percentDigit_inj _ hhigh _ hhigh' hfirst)
          (percentDigit_inj _ hlow _ hlow' (List.cons.inj hrest).1)

end FormTextLemmas

theorem formEncode_injective : Function.Injective formEncode := by
  intro s t h
  exact utf8_injective (formByte_prefixCode.flatMap_injective (String.ofList_injective h))

theorem isFormChar_of_mem_formEncode {s : String} {c : Char} (h : c ∈ (formEncode s).toList) :
    isFormChar c = true := by
  unfold formEncode at h
  rw [String.toList_ofList, List.mem_flatMap] at h
  obtain ⟨b, -, hc⟩ := h
  rcases formByte_cases b with ⟨-, hb⟩ | ⟨d, -, hplain, hb⟩ | hb
  · rw [hb, List.mem_singleton] at hc
    subst hc
    decide
  · rw [hb, List.mem_singleton] at hc
    subst hc
    unfold isFormChar
    rcases hplain with halnum | hmark
    · rw [halnum, Bool.true_or]
    · rw [Bool.or_eq_true, decide_eq_true_eq]
      exact .inr (List.mem_append_left ['+', '%'] hmark)
  · obtain ⟨hhigh, hlow⟩ := hexDigits_lt b
    rw [hb] at hc
    rcases List.mem_cons.mp hc with rfl | hc
    · decide
    · rcases List.mem_cons.mp hc with rfl | hc
      · exact isFormChar_percentDigit _ hhigh
      · rw [List.mem_singleton.mp hc]
        exact isFormChar_percentDigit _ hlow

/-! ## `URLSearchParams.toString` -/

/-- A parameter in a query. -/
def paramText (p : String × String) : String := formEncode p.1 ++ "=" ++ formEncode p.2

/-- `params.toString()` -/
def paramsToString (params : List (String × String)) : String :=
  "&".intercalate (params.map paramText)

example : paramsToString [("service", "git upload"), ("a&b", "=é")] =
    "service=git+upload&a%26b=%3D%C3%A9" := by decide

namespace FormTextLemmas

theorem notMem_formEncode {c : Char} (h : isFormChar c = false) (s : String) :
    c ∉ (formEncode s).toList := by
  intro hc
  rw [isFormChar_of_mem_formEncode hc] at h
  cases h

theorem toList_paramText (p : String × String) :
    (paramText p).toList = (formEncode p.1).toList ++ '=' :: (formEncode p.2).toList := by
  unfold paramText
  rw [String.toList_append, String.toList_append, List.append_assoc]
  rfl

theorem paramText_injective : Function.Injective paramText := by
  rintro ⟨name, value⟩ ⟨name', value'⟩ h
  have hlist := congrArg String.toList h
  rw [toList_paramText, toList_paramText] at hlist
  obtain ⟨hname, hvalue⟩ := Lines.first_line_inj (notMem_formEncode (by decide) name)
    (notMem_formEncode (by decide) name') hlist
  have hname : name = name' := formEncode_injective (String.toList_inj.mp hname)
  have hvalue : value = value' := formEncode_injective (String.toList_inj.mp hvalue)
  rw [hname, hvalue]

/-- An ampersand in a query separates two parameters. -/
theorem amp_notMem_paramText (p : String × String) : '&' ∉ (paramText p).toList := by
  rw [toList_paramText, List.mem_append, List.mem_cons]
  rintro (h | h | h)
  · exact notMem_formEncode (by decide) _ h
  · exact absurd h (by decide)
  · exact notMem_formEncode (by decide) _ h

theorem toList_paramsToString (params : List (String × String)) :
    (paramsToString params).toList =
      ['&'].intercalate (params.map fun p => (paramText p).toList) := by
  unfold paramsToString
  rw [String.toList_intercalate, List.map_map]
  rfl

end FormTextLemmas

/-- Only the empty list of parameters has an empty text. -/
theorem paramsToString_eq_empty_iff {params : List (String × String)} :
    paramsToString params = "" ↔ params = [] := by
  constructor
  · intro h
    have hlist := congrArg String.toList h
    rw [toList_paramsToString] at hlist
    cases params with
    | nil => rfl
    | cons p rest =>
      -- The first parameter has an equals sign.
      have hmem : '=' ∈ ['&'].intercalate ((p :: rest).map fun p => (paramText p).toList) := by
        have hfirst : '=' ∈ (paramText p).toList := by
          rw [toList_paramText]
          exact List.mem_append_right _ List.mem_cons_self
        cases rest with
        | nil => simpa using hfirst
        | cons q rest =>
          rw [List.map_cons, List.map_cons, List.intercalate_cons_cons]
          exact List.mem_append_left _ (List.mem_append_left _ hfirst)
      rw [hlist] at hmem
      cases hmem
  · rintro rfl
    rfl

theorem paramsToString_injective : Function.Injective paramsToString := by
  intro params params' h
  by_cases hempty : params = []
  · rw [hempty]
    rw [hempty, paramsToString_eq_empty_iff.mpr rfl] at h
    exact (paramsToString_eq_empty_iff.mp h.symm).symm
  · have hempty' : params' ≠ [] := by
      rintro rfl
      exact hempty (paramsToString_eq_empty_iff.mp h)
    have hpieces : ∀ l : List (String × String), l ≠ [] →
        (paramsToString l).toList.splitOn '&' = l.map fun p => (paramText p).toList := by
      intro l hl
      rw [toList_paramsToString, List.splitOn_intercalate]
      · intro piece hpiece
        obtain ⟨p, -, rfl⟩ := List.mem_map.mp hpiece
        exact amp_notMem_paramText p
      · exact fun hmap => hl (List.map_eq_nil_iff.mp hmap)
    have hsplit := hpieces params hempty
    rw [h, hpieces params' hempty'] at hsplit
    refine (List.map_injective_iff.mpr ?_) hsplit.symm
    intro p p' hp
    exact paramText_injective (String.toList_inj.mp hp)

end BitRelay
