import BitRelay.GitServe.Session
import BitRelay.Js.ByteScan
import Mathlib.Data.List.TakeWhile

/-!
# The refs found in a body

`extractIncomingRefs` decodes the whole body of a push and takes the matches of a
pattern. What it finds can be told from the bytes, piece by piece: the pattern splits
at each byte outside its alphabet.

Results:
1. `refMatches_splits`: a scan for refs splits at the characters that no ref has.
2. `mem_refMatches`: what a found ref looks like.
3. `refMatches_whole`: a ref of that form is found as a whole where it stands alone.
4. `mem_extractIncomingRefs`, `incomingNames_behind`: the same for the bytes of a body.
-/

namespace BitRelay

def INCOMING_PREFIX : List Char := "refs/relay/incoming/".toList

namespace RefScanLemmas

theorem isRefChar_ascii {c : Char} (h : isRefChar c = true) : c.toNat < 0x80 ∧ c.toNat ≠ 0 := by
  simp only [isRefChar, isNameChar, isAlphanum_eq, Bool.or_eq_true, beq_iff_eq] at h
  rcases h with (((((h | h) | h) | rfl) | rfl) | rfl) | rfl
  · have hupper : 65 ≤ c.toNat ∧ c.toNat ≤ 90 := of_decide_eq_true h
    omega
  · have hlower : 97 ≤ c.toNat ∧ c.toNat ≤ 122 := by
      simpa only [Bool.and_eq_true, decide_eq_true_eq] using
        show (decide (97 ≤ c.toNat) && decide (c.toNat ≤ 122)) = true from h
    omega
  · have hdigit : 48 ≤ c.toNat ∧ c.toNat ≤ 57 := by
      simpa only [Bool.and_eq_true, decide_eq_true_eq] using
        show (decide (48 ≤ c.toNat) && decide (c.toNat ≤ 57)) = true from h
    omega
  all_goals decide

variable {pre : List Char}

/-- A prefix of ref characters does not reach over a separator. -/
theorem isPrefixOf_append (hpre : ∀ c ∈ pre, isRefChar c = true) {sep : Char}
    (hsep : isRefChar sep = false) (xs after : List Char) :
    pre.isPrefixOf (xs ++ sep :: after) = pre.isPrefixOf xs := by
  induction pre generalizing xs with
  | nil => rfl
  | cons p rest ih =>
    have hrest : ∀ c ∈ rest, isRefChar c = true := fun c hc => hpre c (List.mem_cons_of_mem p hc)
    cases xs with
    | nil =>
      have hne : (p == sep) = false := by
        rw [beq_eq_false_iff_ne]
        rintro rfl
        rw [hpre p List.mem_cons_self] at hsep
        cases hsep
      simp only [List.nil_append, List.isPrefixOf, hne, Bool.false_and]
    | cons x xs =>
      simp only [List.cons_append, List.isPrefixOf, ih hrest]

theorem takeWhile_append_sep {sep : Char} (hsep : isRefChar sep = false) (xs after : List Char) :
    (xs ++ sep :: after).takeWhile isRefChar = xs.takeWhile isRefChar := by
  induction xs with
  | nil => simp [hsep]
  | cons x xs ih =>
    simp only [List.cons_append, List.takeWhile_cons, ih]

/-- The characters of a match are skipped. -/
theorem refMatches_skip (k : Nat) (xs : List Char) :
    refMatches pre k xs = refMatches pre 0 (xs.drop k) := by
  induction xs generalizing k with
  | nil => cases k <;> simp [refMatches]
  | cons x xs ih =>
    cases k with
    | zero => rfl
    | succ k =>
      rw [refMatches, List.drop_succ_cons]
      exact ih k

theorem refMatches_append (hpre : ∀ c ∈ pre, isRefChar c = true) (hne : pre ≠ []) {sep : Char}
    (hsep : isRefChar sep = false) (after xs : List Char) (k : Nat) (hk : k ≤ xs.length) :
    refMatches pre k (xs ++ sep :: after) = refMatches pre k xs ++ refMatches pre 0 after := by
  induction xs generalizing k with
  | nil =>
    obtain rfl : k = 0 := Nat.le_zero.mp hk
    have hno : pre.isPrefixOf (sep :: after) = false := by
      have hempty := isPrefixOf_append hpre hsep [] after
      rw [List.nil_append] at hempty
      rw [hempty]
      cases pre with
      | nil => exact absurd rfl hne
      | cons p rest => rfl
    simp [refMatches, hno]
  | cons x xs ih =>
    cases k with
    | succ k => exact ih k (Nat.le_of_succ_le_succ hk)
    | zero =>
      have hstart := isPrefixOf_append hpre hsep (x :: xs) after
      simp only [List.cons_append] at hstart ⊢
      rw [refMatches, refMatches, hstart]
      by_cases hmatch : pre.isPrefixOf (x :: xs) = true
      · have hlength : pre.length ≤ (x :: xs).length := (List.isPrefixOf_iff_prefix.mp hmatch).length_le
        have htail : ((x :: (xs ++ sep :: after)).drop pre.length).takeWhile isRefChar =
            ((x :: xs).drop pre.length).takeWhile isRefChar := by
          rw [← List.cons_append, List.drop_append_of_le_length hlength, takeWhile_append_sep hsep]
        simp only [htail]
        split
        · rw [List.cons_append, ih _ ?_]
          have htake : (((x :: xs).drop pre.length).takeWhile isRefChar).length ≤
              (x :: xs).length - pre.length := by
            refine (List.takeWhile_sublist _).length_le.trans ?_
            rw [List.length_drop]
          have hclip := List.length_take_le' 255 (((x :: xs).drop pre.length).takeWhile isRefChar)
          simp only [List.length_cons] at hlength htake hclip ⊢
          omega
        · exact ih 0 (Nat.zero_le _)
      · simp only [hmatch]
        exact ih 0 (Nat.zero_le _)

end RefScanLemmas

open RefScanLemmas

/-- A scan for refs splits at the characters that no ref has. -/
theorem refMatches_splits {pre : List Char} (hpre : ∀ c ∈ pre, isRefChar c = true) (hne : pre ≠ []) :
    Splits isRefChar (refMatches pre 0) where
  nil := by simp [refMatches]
  split before sep after hsep := refMatches_append hpre hne hsep after before 0 (Nat.zero_le _)

/-- A found ref is the prefix and up to 255 characters of a ref. -/
theorem mem_refMatches {pre : List Char} {k : Nat} {cs : List Char} {name : String}
    (h : name ∈ refMatches pre k cs) :
    ∃ tail, name = String.ofList (pre ++ tail) ∧ tail ≠ [] ∧ tail.length ≤ 255 ∧
      ∀ c ∈ tail, isRefChar c = true := by
  induction cs generalizing k with
  | nil => cases k <;> simp [refMatches] at h
  | cons c rest ih =>
    cases k with
    | succ k => exact ih h
    | zero =>
      rw [refMatches] at h
      split at h
      · next hmatch =>
        rcases List.mem_cons.mp h with rfl | h
        · refine ⟨_, rfl, hmatch.2, List.length_take_le _ _, fun d hd => ?_⟩
          exact List.mem_takeWhile_imp (List.mem_of_mem_take hd)
        · exact ih h
      · exact ih h

/-- A ref that stands alone is found as a whole. -/
theorem refMatches_whole {pre tail : List Char} (hpre : pre ≠ []) (hsome : tail ≠ [])
    (hlength : tail.length ≤ 255) (htail : ∀ c ∈ tail, isRefChar c = true) :
    refMatches pre 0 (pre ++ tail) = [String.ofList (pre ++ tail)] := by
  have htake : (((pre ++ tail).drop pre.length).takeWhile isRefChar).take 255 = tail := by
    rw [List.drop_left, List.takeWhile_eq_self_iff.mpr htail, List.take_of_length_le hlength]
  have hstart : pre.isPrefixOf (pre ++ tail) = true :=
    List.isPrefixOf_iff_prefix.mpr (List.prefix_append pre tail)
  cases hcs : pre ++ tail with
  | nil => exact absurd (List.append_eq_nil_iff.mp hcs).1 hpre
  | cons c rest =>
    rw [hcs] at htake hstart
    rw [refMatches]
    simp only [htake, hstart, true_and, if_pos hsome]
    rw [hcs, refMatches_skip]
    have hcount := congrArg List.length hcs
    rw [List.length_append, List.length_cons] at hcount
    rw [List.drop_of_length_le (by omega)]
    simp [refMatches]

/-! ## The scans of a body -/

/-- A byte of the alphabet of the patterns. -/
def isRefByte (b : UInt8) : Bool := isRefChar (Char.ofNat b.toNat)

/-- The names that the pattern of incoming refs finds in some bytes, as the bytes they stand for. -/
def incomingNames (bytes : Bytes) : List Bytes :=
  (refMatches INCOMING_PREFIX 0 (byteChars bytes)).map textEncode

/-- A ref that the pattern of incoming refs can match as a whole. -/
def Reportable (ref : Bytes) : Prop :=
  ∃ tail, ref = textEncode "refs/relay/incoming/" ++ tail ∧ tail ≠ [] ∧ tail.length ≤ 255 ∧
    tail.all isRefByte = true

namespace RefScanLemmas

theorem byteChars_append (xs ys : Bytes) : byteChars (xs ++ ys) = byteChars xs ++ byteChars ys :=
  List.map_append

/-- ASCII characters stand for themselves. -/
theorem textEncode_ascii {cs : List Char} (h : ∀ c ∈ cs, c.toNat < 0x80) :
    textEncode (String.ofList cs) = cs.map fun c => UInt8.ofNat c.toNat := by
  unfold textEncode
  rw [String.toList_ofList]
  induction cs with
  | nil => rfl
  | cons c rest ih =>
    have hc : c.val.toNat ≤ 0x7f := Nat.le_of_lt_succ (h c List.mem_cons_self)
    have hone : String.utf8EncodeChar c = [UInt8.ofNat c.toNat] := by
      unfold String.utf8EncodeChar
      exact if_pos hc
    rw [List.flatMap_cons, hone, ih fun d hd => h d (List.mem_cons_of_mem c hd)]
    rfl

theorem toNat_byteChar (b : UInt8) : (Char.ofNat b.toNat).toNat = b.toNat := by
  have hvalid : b.toNat.isValidChar := .inl (by have := b.toNat_lt; omega)
  unfold Char.ofNat
  rw [dif_pos hvalid]
  rfl

theorem textEncode_byteChars {bytes : Bytes} (h : ∀ b ∈ bytes, b.toNat < 0x80) :
    textEncode (String.ofList (byteChars bytes)) = bytes := by
  rw [textEncode_ascii]
  · unfold byteChars
    rw [List.map_map]
    refine (List.map_congr_left fun b _ => ?_).trans (List.map_id bytes)
    simp only [Function.comp_apply, toNat_byteChar, UInt8.ofNat_toNat, id]
  · intro c hc
    obtain ⟨b, hb, rfl⟩ := List.mem_map.mp hc
    rw [toNat_byteChar]
    exact h b hb

theorem byteChars_map {cs : List Char} (h : ∀ c ∈ cs, c.toNat < 0x80) :
    byteChars (cs.map fun c => UInt8.ofNat c.toNat) = cs := by
  unfold byteChars
  rw [List.map_map]
  refine (List.map_congr_left fun c hc => ?_).trans (List.map_id cs)
  have hlt : c.toNat < 256 := (h c hc).trans (by decide)
  simp only [Function.comp_apply, id, UInt8.toNat_ofNat', Nat.mod_eq_of_lt hlt, Char.ofNat_toNat]

theorem isRefChar_incoming : ∀ c ∈ INCOMING_PREFIX, isRefChar c = true := by
  have hall : INCOMING_PREFIX.all isRefChar = true := by decide
  exact List.all_eq_true.mp hall

theorem incoming_splits : Splits isRefChar (refMatches INCOMING_PREFIX 0) :=
  refMatches_splits isRefChar_incoming (by decide)

theorem byte_ascii {b : UInt8} (h : isRefByte b = true) : b.toNat < 0x80 := by
  have hchar := (isRefChar_ascii h).1
  rw [toNat_byteChar] at hchar
  exact hchar

end RefScanLemmas

/-- What a respond reports are the names found in the bytes of the request. -/
theorem extractIncomingRefs_eq (bytes : Bytes) :
    extractIncomingRefs bytes = (refMatches INCOMING_PREFIX 0 (byteChars bytes)).eraseDups :=
  congrArg List.eraseDups (incoming_splits.textDecode (fun _ => isRefChar_ascii) bytes)

/-- The same for the pattern of all refs, by which the relay tells whether to accept. -/
theorem extractAllRelayRefs_eq (bytes : Bytes) :
    extractAllRelayRefs bytes = (refMatches "refs/".toList 0 (byteChars bytes)).eraseDups := by
  have hall : "refs/".toList.all isRefChar = true := by decide
  exact congrArg List.eraseDups ((refMatches_splits (List.all_eq_true.mp hall) (by decide)).textDecode
    (fun _ => isRefChar_ascii) bytes)

theorem mem_extractIncomingRefs {bytes : Bytes} {ref : Bytes} :
    ref ∈ (extractIncomingRefs bytes).map textEncode ↔ ref ∈ incomingNames bytes := by
  rw [extractIncomingRefs_eq]
  simp only [incomingNames, List.mem_map, List.mem_eraseDups]

theorem incomingNames_split {before after : Bytes} {sep : UInt8} (hsep : isRefByte sep = false) :
    incomingNames (before ++ sep :: after) = incomingNames before ++ incomingNames after := by
  unfold incomingNames
  rw [byteChars_append]
  have hsplit := incoming_splits.split (byteChars before) (Char.ofNat sep.toNat) (byteChars after)
    hsep
  exact (congrArg (List.map textEncode) hsplit).trans List.map_append

/-- Up to the next byte outside the alphabet, and from there on. -/
theorem incomingNames_behind (ref behind : Bytes) :
    incomingNames (ref ++ behind) = incomingNames (ref ++ behind.takeWhile isRefByte) ++
      incomingNames (behind.dropWhile isRefByte) := by
  cases hdrop : behind.dropWhile isRefByte with
  | nil =>
    have hall : behind.takeWhile isRefByte = behind := by
      have hboth := List.takeWhile_append_dropWhile (p := isRefByte) (l := behind)
      rw [hdrop, List.append_nil] at hboth
      exact hboth
    rw [hall]
    exact (List.append_nil _).symm
  | cons sep rest =>
    have hsep : isRefByte sep = false := by
      have hsome : behind.dropWhile isRefByte ≠ [] := by rw [hdrop]; nofun
      have hhead := List.head_dropWhile_not isRefByte hsome
      simpa [hdrop] using hhead
    have hboth := List.takeWhile_append_dropWhile (p := isRefByte) (l := behind)
    rw [hdrop] at hboth
    have hfirst : incomingNames (sep :: rest) = incomingNames rest := by
      have hnil : incomingNames ([] ++ sep :: rest) = incomingNames [] ++ incomingNames rest :=
        incomingNames_split hsep
      exact hnil
    conv_lhs => rw [← hboth, ← List.append_assoc]
    rw [incomingNames_split hsep, hfirst]

theorem reportable_of_mem {bytes ref : Bytes} (h : ref ∈ incomingNames bytes) : Reportable ref := by
  obtain ⟨name, hname, rfl⟩ := List.mem_map.mp h
  obtain ⟨tail, rfl, hsome, hlength, htail⟩ := mem_refMatches hname
  have hascii : ∀ c ∈ tail, c.toNat < 0x80 := fun c hc => (isRefChar_ascii (htail c hc)).1
  refine ⟨tail.map fun c => UInt8.ofNat c.toNat, ?_, by simpa using hsome, by simpa using hlength, ?_⟩
  · have hstart : ∀ c ∈ INCOMING_PREFIX, c.toNat < 0x80 := fun c hc =>
      (isRefChar_ascii (isRefChar_incoming c hc)).1
    rw [textEncode_ascii fun c hc => (List.mem_append.mp hc).elim (hstart c) (hascii c),
      List.map_append]
    rfl
  · rw [List.all_eq_true]
    intro b hb
    have hb' : Char.ofNat b.toNat ∈ byteChars (tail.map fun c => UInt8.ofNat c.toNat) :=
      List.mem_map_of_mem hb
    rw [byteChars_map hascii] at hb'
    exact htail _ hb'

theorem incomingNames_whole {ref : Bytes} (h : Reportable ref) : incomingNames ref = [ref] := by
  obtain ⟨tail, rfl, hsome, hlength, htail⟩ := h
  rw [List.all_eq_true] at htail
  have hstart : byteChars (textEncode "refs/relay/incoming/") = INCOMING_PREFIX := by decide
  have hwhole := @refMatches_whole INCOMING_PREFIX (byteChars tail) (by decide)
    (by simpa [byteChars] using hsome) (by simpa [byteChars] using hlength) (by
      intro c hc
      obtain ⟨b, hb, rfl⟩ := List.mem_map.mp hc
      exact htail b hb)
  unfold incomingNames
  rw [byteChars_append, hstart, hwhole, ← hstart, ← byteChars_append]
  have hascii : ∀ b ∈ textEncode "refs/relay/incoming/" ++ tail, b.toNat < 0x80 := by
    intro b hb
    rcases List.mem_append.mp hb with hb | hb
    · have hbytes : (textEncode "refs/relay/incoming/").all isRefByte = true := by decide
      exact byte_ascii (List.all_eq_true.mp hbytes b hb)
    · exact byte_ascii (htail b hb)
  rw [List.map_singleton, textEncode_byteChars hascii]

end BitRelay
