import BitRelay.Js.JsonData
import BitRelay.Js.Numerals
import BitRelay.Lib.Delimited
import BitRelay.Signing

/-!
# Canonical JSON

`canonicalizeJson` writes a value with sorted keys and no whitespace. Signatures, content hashes and
the detection of duplicates compare these texts.

The text is the one of the value's data (`JsonValue.data`), which has its keys in order. A token of
the text ends where a comma, a closing bracket or the end comes, so that data is read back from a
text together with what follows it.

Results:
1. `canonicalizeJson_data`: the canonical text is the text of the data.
2. `JsonData.delimited`: a text is read back.
3. `canonicalizeJson_eq_iff`: two values have one canonical text if and only if they are the same
   data.
-/

namespace BitRelay

/-! ## The text of data -/

/-- The characters of `JSON.stringify(n)`. -/
def isNumberChar (c : Char) : Bool := c.isDigit || ['-', '+', '.', 'e'].contains c

/-- What the relay relies on where it writes numbers. -/
structure Platform.RendersNumbers (P : Platform) : Prop where
  /-- `JSON.stringify(-0)` is `JSON.stringify(0)`. -/
  zero : P.renderNumber .negZero = P.renderNumber (.finite 0)
  injective : ∀ q q', P.renderNumber (.finite q) = P.renderNumber (.finite q') → q = q'
  nonempty : ∀ q, P.renderNumber (.finite q) ≠ ""
  token : ∀ q, ∀ c ∈ (P.renderNumber (.finite q)).toList, isNumberChar c = true

/-- A quoted text behind its opening quote. -/
def quoted (s : String) : List Char := s.toList.flatMap quoteChar ++ ['"']

namespace JsonData

mutual
def text (P : Platform) : JsonData → List Char
  | null => ['n', 'u', 'l', 'l']
  | bool true => ['t', 'r', 'u', 'e']
  | bool false => ['f', 'a', 'l', 's', 'e']
  | num q => (P.renderNumber (.finite q)).toList
  | str s => '"' :: quoted s
  | arr items => '[' :: List.intercalate [','] (itemTexts P items) ++ [']']
  | obj fields => '\x7b' :: List.intercalate [','] (fieldTexts P fields) ++ ['\x7d']

def itemTexts (P : Platform) : List JsonData → List (List Char)
  | [] => []
  | v :: vs => text P v :: itemTexts P vs

def fieldTexts (P : Platform) : List (String × JsonData) → List (List Char)
  | [] => []
  | (k, v) :: rest => ('"' :: quoted k ++ ':' :: text P v) :: fieldTexts P rest
end

def fieldText (P : Platform) (e : String × JsonData) : List Char :=
  '"' :: quoted e.1 ++ ':' :: text P e.2

/-- The symbols that end a token. -/
def tokenStops : List Char := [',', ']', '\x7d']

namespace TextLemmas

theorem itemTexts_eq_map (P : Platform) (items : List JsonData) :
    itemTexts P items = items.map (text P) := by
  induction items with
  | nil => rfl
  | cons v vs ih => rw [itemTexts, ih, List.map_cons]

theorem fieldTexts_eq_map (P : Platform) (fields : List (String × JsonData)) :
    fieldTexts P fields = fields.map (fieldText P) := by
  induction fields with
  | nil => rfl
  | cons e rest ih => rw [fieldTexts, ih, List.map_cons, fieldText]

/-! ### Quoted texts -/

/-- The value of a digit of an escape. -/
def hexValue (c : Char) : Nat := if c.isDigit then c.toNat - 48 else c.toNat - 87

/-- The character of an escape, behind its backslash. -/
def unescape : List Char → Option Char
  | 'u' :: _ :: _ :: high :: low :: _ =>
    some (Char.ofNat (16 * hexValue high + hexValue low))
  | 'b' :: _ => some '\x08'
  | 'f' :: _ => some '\x0c'
  | 'n' :: _ => some '\n'
  | 'r' :: _ => some '\r'
  | 't' :: _ => some '\t'
  | c :: _ => some c
  | [] => none

/-- The character with which a quoted text begins. -/
def unquote : List Char → Option Char
  | c :: rest => if c = '\\' then unescape rest else some c
  | [] => none

theorem hexValue_hexDigit {n : Nat} (h : n < 16) : hexValue (hexDigit n) = n := by
  have hall : ((List.range 16).all fun n => decide (hexValue (hexDigit n) = n)) = true := by decide
  exact of_decide_eq_true (List.all_eq_true.mp hall n (List.mem_range.mpr h))

theorem unquote_quoteChar (c : Char) (u : List Char) : unquote (quoteChar c ++ u) = some c := by
  unfold quoteChar
  split
  · next h => rw [h]; rfl
  split
  · next h => rw [h]; rfl
  split
  · next h => rw [h]; rfl
  split
  · next h => rw [h]; rfl
  split
  · next h => rw [h]; rfl
  split
  · next h => rw [h]; rfl
  split
  · next h => rw [h]; rfl
  split
  · next hcontrol =>
    have hhigh := hexValue_hexDigit (n := c.toNat / 16) (by omega)
    have hlow := hexValue_hexDigit (n := c.toNat % 16) (by omega)
    simp only [List.cons_append, List.nil_append, unquote, if_true, unescape, hhigh, hlow,
      Nat.div_add_mod, Char.ofNat_toNat]
  · next hquote hslash _ _ _ _ _ _ =>
    rw [List.cons_append, unquote, if_neg hslash]

/-- The escapes of the characters are a prefix code. -/
theorem prefixCode_quoteChar : PrefixCode quoteChar where
  nonempty c h := by
    have hread := unquote_quoteChar c []
    rw [h] at hread
    cases hread
  determined {c d u v} h := by
    have hread := unquote_quoteChar c u
    rw [h, unquote_quoteChar] at hread
    exact (Option.some.inj hread).symm

/-- The escape of a quote does not begin with a quote. -/
theorem quoteChar_ne_quote (c : Char) (u v : List Char) : quoteChar c ++ u ≠ '"' :: v := by
  intro h
  have hread := unquote_quoteChar c u
  rw [h] at hread
  have hquote : '"' = c := Option.some.inj hread
  subst hquote
  exact absurd (List.head_eq_of_cons_eq h) (by decide)

/-- A quoted text is read back. -/
theorem quoted_inj {s t : String} {u v : List Char} (h : quoted s ++ u = quoted t ++ v) :
    s = t ∧ u = v := by
  unfold quoted at h
  rw [List.append_assoc, List.append_assoc] at h
  obtain ⟨hsame, hrest⟩ := prefixCode_quoteChar.closed_inj quoteChar_ne_quote h
  exact ⟨String.toList_inj.mp hsame, hrest⟩

/-! ### Tokens -/

/-- The kind of token that a character begins. -/
def tokenKind (c : Char) : Nat :=
  if c = 'n' then 0 else if c = 't' then 1 else if c = 'f' then 2 else if c = '"' then 3
  else if c = '[' then 4 else if c = '\x7b' then 5 else 6

/-- The kind of token with which data begins. -/
def kindOf : JsonData → Nat
  | null => 0
  | bool true => 1
  | bool false => 2
  | str _ => 3
  | arr _ => 4
  | obj _ => 5
  | num _ => 6

/-- A character of a number is none of the other symbols. -/
theorem ne_of_isNumberChar {c : Char} (h : isNumberChar c = true) {d : Char}
    (hd : d ∈ ['n', 't', 'f', '"', '[', '\x7b', ',', ']', '\x7d']) : c ≠ d := by
  have hall : (['n', 't', 'f', '"', '[', '\x7b', ',', ']', '\x7d'].all
    fun d => !isNumberChar d) = true := by decide
  have hnot := List.all_eq_true.mp hall d hd
  intro heq
  rw [heq] at h
  rw [h] at hnot
  cases hnot

variable {P : Platform}

/-- Data begins with a token of its kind, not with a stop symbol. -/
theorem text_head (hP : P.RendersNumbers) (d : JsonData) :
    ∃ c rest, text P d = c :: rest ∧ tokenKind c = kindOf d ∧ c ∉ tokenStops := by
  cases d with
  | null => exact ⟨'n', _, rfl, rfl, by decide⟩
  | bool b =>
    cases b with
    | true => exact ⟨'t', _, rfl, rfl, by decide⟩
    | false => exact ⟨'f', _, rfl, rfl, by decide⟩
  | str s => exact ⟨'"', _, rfl, rfl, by decide⟩
  | arr items => exact ⟨'[', _, rfl, rfl, by decide⟩
  | obj fields => exact ⟨'\x7b', _, rfl, rfl, by decide⟩
  | num q =>
    rw [text]
    cases hword : (P.renderNumber (.finite q)).toList with
    | nil => exact absurd (String.toList_inj.mp hword) (hP.nonempty q)
    | cons c rest =>
      have hchar := hP.token q c (by rw [hword]; exact List.mem_cons_self)
      refine ⟨c, rest, rfl, ?_, ?_⟩
      · unfold tokenKind
        rw [if_neg (ne_of_isNumberChar hchar (by decide)), if_neg (ne_of_isNumberChar hchar (by decide)),
          if_neg (ne_of_isNumberChar hchar (by decide)), if_neg (ne_of_isNumberChar hchar (by decide)),
          if_neg (ne_of_isNumberChar hchar (by decide)), if_neg (ne_of_isNumberChar hchar (by decide))]
        rfl
      · intro hstop
        refine ne_of_isNumberChar hchar ?_ rfl
        exact List.mem_of_mem_drop (i := 6) hstop

theorem text_first (hP : P.RendersNumbers) (d : JsonData) :
    ∃ c rest, text P d = c :: rest ∧ c ∉ tokenStops := by
  obtain ⟨c, rest, htext, -, hstop⟩ := text_head hP d
  exact ⟨c, rest, htext, hstop⟩

/-- Equal texts begin with one kind of token. -/
theorem kindOf_eq (hP : P.RendersNumbers) {a b : JsonData} {u v : List Char}
    (h : text P a ++ u = text P b ++ v) : kindOf a = kindOf b := by
  obtain ⟨c, rest, htext, hkind, -⟩ := text_head hP a
  obtain ⟨c', rest', htext', hkind', -⟩ := text_head hP b
  rw [htext, htext'] at h
  rw [← hkind, ← hkind', List.head_eq_of_cons_eq h]

theorem arr_text (items : List JsonData) :
    text P (arr items) = '[' :: enclosed (text P) ',' ']' items := by
  rw [text, itemTexts_eq_map]
  rfl

theorem obj_text (fields : List (String × JsonData)) :
    text P (obj fields) = '\x7b' :: enclosed (fieldText P) ',' '\x7d' fields := by
  rw [text, fieldTexts_eq_map]
  rfl

theorem fieldText_head (P : Platform) (e : String × JsonData) :
    ∃ c rest, fieldText P e = c :: rest ∧ c ∉ tokenStops :=
  ⟨'"', _, rfl, by decide⟩

/-- A field is read back if its value is. -/
theorem field_delimited {e : String × JsonData} (h : DelimitedAt (text P) tokenStops e.2) :
    DelimitedAt (fieldText P) tokenStops e := by
  intro e' u v hu hv heq
  obtain ⟨k, d⟩ := e
  obtain ⟨k', d'⟩ := e'
  unfold fieldText at heq
  dsimp only at heq
  rw [List.cons_append, List.cons_append, List.append_assoc, List.append_assoc] at heq
  obtain ⟨hkey, hrest⟩ := quoted_inj (List.tail_eq_of_cons_eq heq)
  obtain ⟨hvalue, hafter⟩ := h d' u v hu hv (List.tail_eq_of_cons_eq hrest)
  exact ⟨Prod.ext hkey hvalue, hafter⟩

theorem number_delimited (hP : P.RendersNumbers) (q : Rat) :
    DelimitedAt (text P) tokenStops (num q) := by
  intro b u v hu hv heq
  have hkind := kindOf_eq hP heq
  cases b with
  | num q' =>
    have hstops : ∀ c ∈ tokenStops, isNumberChar c = false := by
      intro c hc
      cases hchar : isNumberChar c with
      | false => rfl
      | true => exact absurd rfl (ne_of_isNumberChar hchar (List.mem_of_mem_drop (i := 6) hc))
    obtain ⟨hword, hafter⟩ := Stops.word_inj hstops (hP.token q) (hP.token q') hu hv heq
    exact ⟨congrArg num (hP.injective q q' (String.toList_inj.mp hword)), hafter⟩
  | bool x => cases x <;> cases hkind
  | null | str s | arr items | obj fields => cases hkind

theorem text_delimited (hP : P.RendersNumbers) (a : JsonData) :
    DelimitedAt (text P) tokenStops a := by
  induction a using JsonData.memInduction with
  | null =>
    intro b u v _ _ heq
    have hkind := kindOf_eq hP heq
    cases b with
    | null => exact ⟨rfl, List.append_cancel_left heq⟩
    | bool x => cases x <;> cases hkind
    | num q | str s | arr items | obj fields => cases hkind
  | bool x =>
    intro b u v _ _ heq
    have hkind := kindOf_eq hP heq
    cases b with
    | bool y =>
      have hsame : x = y := by
        cases x <;> cases y <;> first | rfl | cases hkind
      subst hsame
      exact ⟨rfl, List.append_cancel_left heq⟩
    | null | num q | str s | arr items | obj fields => cases x <;> cases hkind
  | num q => exact number_delimited hP q
  | str s =>
    intro b u v _ _ heq
    have hkind := kindOf_eq hP heq
    cases b with
    | str t =>
      obtain ⟨hsame, hafter⟩ := quoted_inj (List.tail_eq_of_cons_eq heq)
      exact ⟨congrArg str hsame, hafter⟩
    | bool x => cases x <;> cases hkind
    | null | num q | arr items | obj fields => cases hkind
  | arr items ih =>
    intro b u v _ _ heq
    have hkind := kindOf_eq hP heq
    cases b with
    | arr items' =>
      rw [arr_text, arr_text] at heq
      obtain ⟨hsame, hafter⟩ := DelimitedAt.enclosed_inj ih (by decide) (by decide) (by decide)
        (text_first hP) (List.tail_eq_of_cons_eq heq)
      exact ⟨congrArg arr hsame, hafter⟩
    | bool x => cases x <;> cases hkind
    | null | num q | str s | obj fields => cases hkind
  | obj fields ih =>
    intro b u v _ _ heq
    have hkind := kindOf_eq hP heq
    cases b with
    | obj fields' =>
      rw [obj_text, obj_text] at heq
      obtain ⟨hsame, hafter⟩ := DelimitedAt.enclosed_inj (fun e he => field_delimited (ih e he))
        (by decide) (by decide) (by decide) (fieldText_head P) (List.tail_eq_of_cons_eq heq)
      exact ⟨congrArg obj hsame, hafter⟩
    | bool x => cases x <;> cases hkind
    | null | num q | str s | arr items => cases hkind

end TextLemmas

open TextLemmas

/-- Data is read back from its text. -/
theorem text_injective {P : Platform} (hP : P.RendersNumbers) :
    Function.Injective (text P) := by
  intro a b h
  refine (text_delimited hP a b [] [] ?_ ?_ ?_).1
  · intro c hc
    cases hc
  · intro c hc
    cases hc
  · rw [h]

end JsonData

/-! ## Canonical texts -/

namespace CanonicalLemmas

open JsonData JsonData.TextLemmas JsonValue JsonValue.DataLemmas

variable {P : Platform}

theorem toList_quoteJson (s : String) : (quoteJson s).toList = '"' :: quoted s := by
  unfold quoteJson quoted
  simp only [String.toList_append, String.toList_ofList]
  rfl

/-- The fields of a canonical text, in their order. -/
theorem toList_sortedFields (fields : List (String × JsonData)) :
    ((((fields.map fun e => (e.1, String.ofList (text P e.2))).insertionSort
      fun a b => codeUnitLe a.1 b.1).map fun p => quoteJson p.1 ++ ":" ++ p.2).map String.toList) =
      fieldTexts P (fields.insertionSort fun a b => fieldLe a b) := by
  rw [← List.map_insertionSort (fun a b : String × JsonData => fieldLe a b) _ _ fields
    fun a _ b _ => Iff.rfl, List.map_map, List.map_map, fieldTexts_eq_map]
  refine List.map_congr_left fun e _ => ?_
  unfold fieldText
  simp only [Function.comp, String.toList_append, toList_quoteJson, String.toList_ofList]
  simp

mutual
theorem canonicalizeJson_text (hzero : P.renderNumber .negZero = P.renderNumber (.finite 0)) :
    (v : JsonValue) → (canonicalizeJson P v).toList = text P v.data
  | .null => by
    rw [canonicalizeJson]
    rfl
  | .bool b => by
    rw [canonicalizeJson]
    cases b <;> rfl
  | .num .posInf => by
    rw [canonicalizeJson]
    rfl
  | .num .negInf => by
    rw [canonicalizeJson]
    rfl
  | .num .negZero => by
    rw [canonicalizeJson, hzero]
    · rfl
    · exact fun h => by cases h
    · exact fun h => by cases h
  | .num (.finite q) => by
    rw [canonicalizeJson]
    · rfl
    · exact fun h => by cases h
    · exact fun h => by cases h
  | .str s => by
    rw [canonicalizeJson]
    exact toList_quoteJson s
  | .arr items => by
    rw [canonicalizeJson, String.toList_append, String.toList_append, String.toList_intercalate,
      canonicalizeItems_texts hzero items]
    rfl
  | .obj fields => by
    rw [canonicalizeJson, canonicalizeFields_texts hzero fields, String.toList_append,
      String.toList_append, String.toList_intercalate, toList_sortedFields]
    rfl

theorem canonicalizeItems_texts (hzero : P.renderNumber .negZero = P.renderNumber (.finite 0)) :
    (items : List JsonValue) → (canonicalizeItems P items).map String.toList = itemTexts P (dataItems items)
  | [] => rfl
  | v :: vs => congrArg₂ List.cons (canonicalizeJson_text hzero v) (canonicalizeItems_texts hzero vs)

theorem canonicalizeFields_texts (hzero : P.renderNumber .negZero = P.renderNumber (.finite 0)) :
    (fields : List (String × JsonValue)) → canonicalizeFields P fields =
      (dataFields fields).map fun e => (e.1, String.ofList (text P e.2))
  | [] => rfl
  | (k, v) :: rest => by
    rw [canonicalizeFields, dataFields, List.map_cons, canonicalizeFields_texts hzero rest,
      ← canonicalizeJson_text hzero v, String.ofList_toList]
end

end CanonicalLemmas

/-! ## Results -/

/-- The canonical text of a value is the text of its data. -/
theorem canonicalizeJson_data {P : Platform} (hP : P.RendersNumbers) (v : JsonValue) :
    canonicalizeJson P v = String.ofList (v.data.text P) := by
  rw [← CanonicalLemmas.canonicalizeJson_text hP.zero, String.ofList_toList]

/-- What `JSON.stringify` keeps of a value determines its canonical text. -/
theorem canonicalizeJson_normalize {P : Platform}
    (hzero : P.renderNumber .negZero = P.renderNumber (.finite 0)) (v : JsonValue) :
    canonicalizeJson P v.normalize = canonicalizeJson P v := by
  refine String.toList_inj.mp ?_
  rw [CanonicalLemmas.canonicalizeJson_text hzero, CanonicalLemmas.canonicalizeJson_text hzero,
    JsonValue.DataLemmas.data_normalize]

/-- Two values have one canonical text if and only if they are the same data, up to the order of
keys at every depth; infinities count as `null`, a negative zero as zero. -/
theorem canonicalizeJson_eq_iff {P : Platform} (hP : P.RendersNumbers) {a b : JsonValue}
    (ha : a.DistinctKeys) : canonicalizeJson P a = canonicalizeJson P b ↔
      JsonValue.SameData a.normalize b.normalize := by
  rw [← JsonValue.data_eq_iff ha, canonicalizeJson_data hP, canonicalizeJson_data hP]
  constructor
  · intro h
    exact JsonData.text_injective hP (String.ofList_injective h)
  · intro h
    rw [h]

/-! ## A host that writes fractions -/

/-- The numerator and, unless it is one, the denominator. -/
def fractionText (q : Rat) : String :=
  (if q.num < 0 then "-" else "") ++ toString q.num.natAbs ++
    if q.den = 1 then "" else "e" ++ toString q.den

/-- A host for runs on fixed inputs that writes a natural number with its digits. -/
def Platform.fractions : Platform where
  __ := Platform.toy
  renderNumber
    | .finite q => fractionText q
    | _ => "0"

namespace FractionLemmas

open NumeralLemmas

theorem toString_nat_injective {m n : Nat} (h : toString m = toString n) : m = n := by
  rw [← ofDigitChars_toString m, ← ofDigitChars_toString n, h]

/-- The text of a denominator. -/
def denText (den : Nat) : List Char := if den = 1 then [] else 'e' :: (toString den).toList

theorem toList_fractionText (q : Rat) : (fractionText q).toList =
    (if q.num < 0 then ['-'] else []) ++ ((toString q.num.natAbs).toList ++ denText q.den) := by
  unfold fractionText denText
  rw [String.toList_append, String.toList_append, List.append_assoc]
  split <;> split <;> simp [String.toList_append]

theorem stops_denText (den : Nat) : Stops ['e'] (denText den) := by
  unfold denText
  split
  · intro c hc
    cases hc
  · exact Stops.cons List.mem_cons_self _

theorem denText_injective {m n : Nat} (h : denText m = denText n) : m = n := by
  unfold denText at h
  split at h
  · next hm =>
    split at h
    · next hn => rw [hm, hn]
    · cases h
  · split at h
    · cases h
    · exact toString_nat_injective (String.toList_inj.mp (List.tail_eq_of_cons_eq h))

theorem fractionText_injective {q q' : Rat} (h : fractionText q = fractionText q') : q = q' := by
  have hlist := congrArg String.toList h
  rw [toList_fractionText, toList_fractionText] at hlist
  obtain ⟨hne, hdigits⟩ := isNumeral_toString q.num.natAbs
  obtain ⟨hne', hdigits'⟩ := isNumeral_toString q'.num.natAbs
  -- A digit is no sign.
  have hsign : ∀ ds rest t : List Char, ds ≠ [] → (∀ c ∈ ds, c.isDigit = true) →
      ds ++ rest ≠ '-' :: t := by
    intro ds rest t hds hall heq
    cases ds with
    | nil => exact hds rfl
    | cons c ds =>
      have hc := hall c List.mem_cons_self
      rw [List.head_eq_of_cons_eq heq] at hc
      cases hc
  have hword : (toString q.num.natAbs).toList ++ denText q.den =
      (toString q'.num.natAbs).toList ++ denText q'.den →
      q.num.natAbs = q'.num.natAbs ∧ q.den = q'.den := by
    intro heq
    have hstop : ∀ c ∈ ['e'], c.isDigit = false := by
      intro c hc
      rw [List.mem_singleton.mp hc]
      rfl
    obtain ⟨hnum, hden⟩ := Stops.word_inj hstop hdigits hdigits' (stops_denText q.den)
      (stops_denText q'.den) heq
    exact ⟨toString_nat_injective (String.toList_inj.mp hnum), denText_injective hden⟩
  by_cases hneg : q.num < 0
  · rw [if_pos hneg] at hlist
    by_cases hneg' : q'.num < 0
    · rw [if_pos hneg'] at hlist
      obtain ⟨hnum, hden⟩ := hword (List.append_cancel_left hlist)
      exact Rat.ext (by omega) hden
    · rw [if_neg hneg', List.nil_append] at hlist
      exact absurd hlist.symm (hsign _ _ _ hne' hdigits')
  · rw [if_neg hneg, List.nil_append] at hlist
    by_cases hneg' : q'.num < 0
    · rw [if_pos hneg'] at hlist
      exact absurd hlist (hsign _ _ _ hne hdigits)
    · rw [if_neg hneg', List.nil_append] at hlist
      obtain ⟨hnum, hden⟩ := hword hlist
      exact Rat.ext (by omega) hden

theorem isNumberChar_of_isDigit {c : Char} (h : c.isDigit = true) : isNumberChar c = true := by
  unfold isNumberChar
  rw [h, Bool.true_or]

theorem rendersNumbers_fractions : Platform.fractions.RendersNumbers where
  zero := by decide
  injective _ _ h := fractionText_injective h
  nonempty q h := by
    have hlist := congrArg String.toList h
    have hdigits := (isNumeral_toString q.num.natAbs).1
    rw [show Platform.fractions.renderNumber (.finite q) = fractionText q from rfl,
      toList_fractionText] at hlist
    exact hdigits (List.append_eq_nil_iff.mp (List.append_eq_nil_iff.mp hlist).2).1
  token q c hc := by
    have hlist : c ∈ (fractionText q).toList := hc
    rw [toList_fractionText, List.mem_append, List.mem_append] at hlist
    rcases hlist with hsign | hnum | hden
    · split at hsign
      · rw [List.mem_singleton.mp hsign]
        decide
      · cases hsign
    · exact isNumberChar_of_isDigit ((isNumeral_toString _).2 c hnum)
    · unfold denText at hden
      split at hden
      · cases hden
      · rcases List.mem_cons.mp hden with rfl | hdigit
        · decide
        · exact isNumberChar_of_isDigit ((isNumeral_toString _).2 c hdigit)

end FractionLemmas

/-- The keys in both orders, and a negative zero. -/
theorem canonicalizeJson_eq_iff_swapped :
    canonicalizeJson .fractions (.obj [("a", .num .negZero), ("b", .arr [.null])]) =
        canonicalizeJson .fractions (.obj [("b", .arr [.num .posInf]), ("a", .num (.finite 0))]) ↔
      JsonValue.SameData
        (JsonValue.obj [("a", .num .negZero), ("b", .arr [.null])]).normalize
        (JsonValue.obj [("b", .arr [.num .posInf]), ("a", .num (.finite 0))]).normalize :=
  canonicalizeJson_eq_iff FractionLemmas.rendersNumbers_fractions
    ⟨by decide, trivial, ⟨trivial, trivial⟩, trivial⟩

end BitRelay
