import Mathlib.Data.List.Basic

/-!
# Strings of the host language

The string functions of ECMAScript that the relay uses, over Lean strings: a
well-formed text is a list of Unicode scalar values. Where the source counts
UTF-16 code units (`length`, the code-unit order of `sort`), the functions here
count them too.
-/

namespace BitRelay

/-! ## Whitespace -/

/-- `WhiteSpace` and `LineTerminator` of ECMAScript: what `trim` removes. -/
def isJsSpace (c : Char) : Bool :=
  let n := c.toNat
  (9 ≤ n && n ≤ 13) || n == 0x20 || n == 0xa0 || n == 0x1680 || (0x2000 ≤ n && n ≤ 0x200a) ||
    n == 0x2028 || n == 0x2029 || n == 0x202f || n == 0x205f || n == 0x3000 || n == 0xfeff

def trimChars (l : List Char) : List Char :=
  ((l.dropWhile isJsSpace).reverse.dropWhile isJsSpace).reverse

/-- `String.prototype.trim` -/
def trim (s : String) : String := String.ofList (trimChars s.toList)

/-- No whitespace at either end: `trim` leaves the text as it is. -/
def Trimmed (s : String) : Prop := trim s = s

instance (s : String) : Decidable (Trimmed s) := inferInstanceAs (Decidable (trim s = s))

theorem dropWhile_of_prefix {p : Char → Bool} {l t : List Char} (h : t <+: l.dropWhile p) :
    t.dropWhile p = t := by
  cases t with
  | nil => rfl
  | cons c cs =>
    obtain ⟨rest, hrest⟩ := h
    have hne : l.dropWhile p ≠ [] := by
      rw [← hrest]
      exact List.cons_ne_nil _ _
    have hhead := List.head_dropWhile_not p hne
    simp only [← hrest, List.cons_append, List.head_cons] at hhead
    simp [hhead]

theorem trimChars_trimChars (l : List Char) : trimChars (trimChars l) = trimChars l := by
  have hpre : trimChars l <+: l.dropWhile isJsSpace := by
    rw [← List.reverse_suffix]
    unfold trimChars
    rw [List.reverse_reverse]
    exact List.dropWhile_suffix _
  have hfront : (trimChars l).dropWhile isJsSpace = trimChars l := dropWhile_of_prefix hpre
  have hback : (trimChars l).reverse.dropWhile isJsSpace = (trimChars l).reverse := by
    refine dropWhile_of_prefix (l := (l.dropWhile isJsSpace).reverse) ?_
    simp only [trimChars, List.reverse_reverse, List.prefix_rfl]
  rw [trimChars.eq_1 (trimChars l), hfront, hback, List.reverse_reverse]

@[simp] theorem trim_trim (s : String) : trim (trim s) = trim s := by
  unfold trim
  rw [String.toList_ofList, trimChars_trimChars]

theorem trimmed_trim (s : String) : Trimmed (trim s) := trim_trim s

/-- A text without whitespace is trimmed. -/
theorem trimmed_of_nospace {s : String} (h : ∀ c ∈ s.toList, isJsSpace c = false) :
    Trimmed s := by
  have hdrop : ∀ l : List Char, (∀ c ∈ l, isJsSpace c = false) → l.dropWhile isJsSpace = l := by
    intro l hl
    cases l with
    | nil => rfl
    | cons c cs => simp [hl c List.mem_cons_self]
  unfold Trimmed trim trimChars
  rw [hdrop _ h, hdrop _ (by simpa using h), List.reverse_reverse, String.ofList_toList]

/-! ## Searching and cutting -/

/-- `s.startsWith(prefix)` -/
def startsWith (s pre : String) : Bool := pre.toList.isPrefixOf s.toList

/-- `s.endsWith(suffix)` -/
def endsWith (s suf : String) : Bool := suf.toList.isSuffixOf s.toList

/-- `s.includes(sub)` -/
def includes (s sub : String) : Bool := s.toList.tails.any fun l => sub.toList.isPrefixOf l

/-- `s.slice(n)` for an index that does not split a character. -/
def sliceFrom (s : String) (n : Nat) : String := String.ofList (s.toList.drop n)

/-- `s.split(sep)[0]` for a one-character separator. -/
def splitFirst (s : String) (sep : Char) : String :=
  String.ofList (s.toList.takeWhile fun c => c ≠ sep)

/-- `s.replaceAll(a, b)` for single characters. -/
def replaceChar (s : String) (a b : Char) : String :=
  String.ofList (s.toList.map fun c => if c = a then b else c)

theorem startsWith_append (pre s : String) : startsWith (pre ++ s) pre = true := by
  unfold startsWith
  rw [String.toList_append]
  exact List.isPrefixOf_iff_prefix.mpr (List.prefix_append _ _)

theorem exists_of_startsWith {s pre : String} (h : startsWith s pre = true) :
    ∃ rest, s = pre ++ rest := by
  obtain ⟨rest, hrest⟩ := List.isPrefixOf_iff_prefix.mp h
  refine ⟨String.ofList rest, String.toList_inj.mp ?_⟩
  rw [String.toList_append, String.toList_ofList, hrest]

/-! ## Code units -/

/-- The UTF-16 code units of a character. -/
def charUnits (c : Char) : List Nat :=
  let n := c.toNat
  if n < 0x10000 then [n] else [0xd800 + (n - 0x10000) / 0x400, 0xdc00 + (n - 0x10000) % 0x400]

def utf16 (s : String) : List Nat := s.toList.flatMap charUnits

/-- `s.length` -/
def jsLength (s : String) : Nat := (utf16 s).length

/-- The code-unit order of `Array.prototype.sort`. -/
def codeUnitLe (a b : String) : Bool := !decide (utf16 b < utf16 a)

/-! ## Numbers in text -/

def digitValue (c : Char) : Option Nat :=
  if c.isDigit then some (c.toNat - '0'.toNat) else none

/-- The value of the longest digit prefix, and whether there is any digit. -/
def digitPrefix : List Char → Option Nat → Option Nat
  | [], acc => acc
  | c :: cs, acc =>
    match digitValue c with
    | some d => digitPrefix cs (some (acc.getD 0 * 10 + d))
    | none => acc

/-- `Number.parseInt(s, 10)`; `none` is `NaN`. -/
def parseInt10 (s : String) : Option Int :=
  match s.toList.dropWhile isJsSpace with
  | '-' :: cs => (digitPrefix cs none).map fun n => -(n : Int)
  | '+' :: cs => (digitPrefix cs none).map fun n => (n : Int)
  | cs => (digitPrefix cs none).map fun n => (n : Int)

/-! ## Character classes -/

/-- `/^[head][tail]{0,n}$/` -/
def matchesName (head tail : Char → Bool) (n : Nat) (s : String) : Bool :=
  match s.toList with
  | [] => false
  | c :: cs => head c && decide (cs.length ≤ n) && cs.all tail

/-- `[A-Za-z0-9._-]` -/
def isNameChar (c : Char) : Bool := c.isAlphanum || c == '.' || c == '_' || c == '-'

/-- `[a-z0-9._-]` -/
def isLowerNameChar (c : Char) : Bool := c.isLower || c.isDigit || c == '.' || c == '_' || c == '-'

/-- `[A-Za-z0-9_-]` -/
def isBase64UrlChar (c : Char) : Bool := c.isAlphanum || c == '_' || c == '-'

theorem isAlphanum_eq (c : Char) : c.isAlphanum = (c.isUpper || c.isLower || c.isDigit) := rfl

theorem isJsSpace_of_isNameChar {c : Char} (h : isNameChar c = true) : isJsSpace c = false := by
  have hrange : 45 ≤ c.toNat ∧ c.toNat ≤ 122 := by
    simp only [isNameChar, isAlphanum_eq, Bool.or_eq_true, beq_iff_eq] at h
    rcases h with ((((h | h) | h) | rfl) | rfl) | rfl
    · have hupper : 65 ≤ c.toNat ∧ c.toNat ≤ 90 := of_decide_eq_true h
      omega
    · have hlower : 97 ≤ c.toNat ∧ c.toNat ≤ 122 := by
        simpa only [Bool.and_eq_true, decide_eq_true_eq] using
          show (decide (97 ≤ c.toNat) && decide (c.toNat ≤ 122)) = true from h
      omega
    · have hdigit : 48 ≤ c.toNat ∧ c.toNat ≤ 57 := by
        simpa only [Bool.and_eq_true, decide_eq_true_eq] using
          show (decide (48 ≤ c.toNat) && decide (c.toNat ≤ 57)) = true from h
      omega
    all_goals decide
  unfold isJsSpace
  simp only [Bool.or_eq_false_iff, Bool.and_eq_false_iff, beq_eq_false_iff_ne,
    decide_eq_false_iff_not]
  omega

theorem matchesName_chars {head tail : Char → Bool} {n : Nat} {s : String}
    (h : matchesName head tail n s = true) :
    ∃ c cs, s.toList = c :: cs ∧ head c = true ∧ cs.length ≤ n ∧ ∀ d ∈ cs, tail d = true := by
  unfold matchesName at h
  match hs : s.toList with
  | [] =>
    rw [hs] at h
    exact Bool.noConfusion h
  | c :: cs =>
    rw [hs] at h
    simp only [Bool.and_eq_true, decide_eq_true_eq, List.all_eq_true] at h
    exact ⟨c, cs, rfl, h.1.1, h.1.2, h.2⟩

/-- A character outside both classes does not occur in a name. -/
theorem notMem_of_matchesName {head tail : Char → Bool} {n : Nat} {s : String} {bad : Char}
    (h : matchesName head tail n s = true) (hhead : head bad = false) (htail : tail bad = false) :
    bad ∉ s.toList := by
  obtain ⟨c, cs, hlist, hc, -, hcs⟩ := matchesName_chars h
  intro hmem
  rw [hlist] at hmem
  rcases List.mem_cons.mp hmem with rfl | hmem
  · rw [hhead] at hc
    cases hc
  · have hbad := hcs bad hmem
    rw [htail] at hbad
    cases hbad

end BitRelay
