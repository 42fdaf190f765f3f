import BitRelay.Js.ByteScan
import BitRelay.Lib.Fields
import Mathlib.Algebra.Order.Ring.Nat

/-!
# GitHub keys

The keys of a GitHub user are lines of text (`github_keys.ts`). A line of an Ed25519 key names
its kind and holds a base64 blob of length-prefixed fields: the kind again, and the key.

Results:
1. `parseEd25519Blob_eq_some_iff`: a blob is taken when it starts with the wire format of a key,
   whatever comes behind it.
2. `parses_exactly_iff`: a line is parsed as documented if and only if no byte follows the key
   in its blob.
-/

namespace BitRelay

/-! ## Parsing -/

def SSH_ED25519_PREFIX : String := "ssh-ed25519"
def ED25519_RAW_KEY_LENGTH : Nat := 32

/-- `s.split(/\s+/)` -/
def splitSpaces (s : String) : List String := (splitRuns isJsSpace s.toList).map String.ofList

/-- `bytes.subarray(from, to)` -/
def subarray (bytes : Bytes) (start stop : Nat) : Bytes := (bytes.drop start).take (stop - start)

/-- `view.getUint32(offset)` within the bytes: four bytes, the high one first. -/
def getUint32 (bytes : Bytes) (offset : Nat) : Nat :=
  (subarray bytes offset (offset + 4)).foldl (fun n b => n * 256 + b.toNat) 0

/-- `parseOpenSshEd25519Line`, from the decoded blob on. -/
def parseEd25519Blob (decoded : Bytes) : Option Bytes :=
  if decoded.length < 51 then none
  else
    let typeLen := getUint32 decoded 0
    if typeLen ≠ 11 then none
    else if textDecode (subarray decoded 4 (4 + typeLen)) ≠ SSH_ED25519_PREFIX then none
    else
      let keyOffset := 4 + typeLen
      if decoded.length < keyOffset + 4 then none
      else
        let keyLen := getUint32 decoded keyOffset
        if keyLen ≠ ED25519_RAW_KEY_LENGTH then none
        else
          let keyStart := keyOffset + 4
          if decoded.length < keyStart + keyLen then none
          else some (subarray decoded keyStart (keyStart + keyLen))

def parseOpenSshEd25519Line (line : String) : Option Bytes :=
  let trimmed := trim line
  if trimmed = "" ∨ startsWith trimmed "#" = true then none
  else
    match splitSpaces trimmed with
    | kind :: blob :: _ =>
      if kind ≠ SSH_ED25519_PREFIX then none
      else (atob blob).bind parseEd25519Blob
    | _ => none

/-! ## The documented format -/

/-- Four bytes of a length, the high one first. -/
def uint32Bytes (n : Nat) : Bytes :=
  [UInt8.ofNat (n / 2 ^ 24), UInt8.ofNat (n / 2 ^ 16), UInt8.ofNat (n / 2 ^ 8), UInt8.ofNat n]

/-- The bytes of an ASCII text. -/
def asciiBytes (s : String) : Bytes := s.toList.map fun c => UInt8.ofNat c.toNat

/-- `[4-byte len]["ssh-ed25519"][4-byte len][32-byte raw key]` -/
def ed25519Wire (key : Bytes) : Bytes :=
  uint32Bytes 11 ++ asciiBytes SSH_ED25519_PREFIX ++ uint32Bytes 32 ++ key

/-- The trimmed line is the kind, whitespace, a text without whitespace and maybe a comment. -/
def IsKeyLine (line base64 : String) : Prop :=
  ∃ gap comment, (trim line).toList =
      SSH_ED25519_PREFIX.toList ++ (gap ++ (base64.toList ++ comment)) ∧
    IsRun isJsSpace gap ∧ base64 ≠ "" ∧ IsPlainField isJsSpace base64.toList ∧
    EndsField isJsSpace comment

/-- The line holds this blob. -/
def HoldsBlob (line : String) (blob : Bytes) : Prop :=
  ∃ base64, IsKeyLine line base64 ∧ atob base64 = some blob

/-- The line holds this key, in the documented format and with nothing behind it. -/
def HoldsKey (line : String) (key : Bytes) : Prop :=
  key.length = 32 ∧ HoldsBlob line (ed25519Wire key)

/-- The blob of the line is longer than the key that it starts with. -/
def HoldsMoreThanKey (line : String) : Prop :=
  ∃ key rest, key.length = 32 ∧ rest ≠ [] ∧ HoldsBlob line (ed25519Wire key ++ rest)

/-- The line is parsed as documented. -/
def ParsesExactly (line : String) : Prop :=
  ∀ key, parseOpenSshEd25519Line line = some key ↔ HoldsKey line key

namespace GitHubKeyLemmas

/-! ## Parts of a blob -/

theorem subarray_middle {front middle : Bytes} (rest : Bytes) {start stop : Nat}
    (hstart : front.length = start) (hstop : start + middle.length = stop) :
    subarray (front ++ (middle ++ rest)) start stop = middle := by
  subst hstart hstop
  rw [subarray, List.drop_left, Nat.add_sub_cancel_left, List.take_left]

/-- Cut off the front of a text that is long enough. -/
theorem exists_front {bytes : Bytes} {n : Nat} (h : n ≤ bytes.length) :
    ∃ front rest, bytes = front ++ rest ∧ front.length = n ∧ rest.length = bytes.length - n :=
  ⟨bytes.take n, bytes.drop n, (List.take_append_drop n bytes).symm, List.length_take_of_le h,
    List.length_drop⟩

/-- A length below 256 stands in the last of its four bytes. -/
theorem uint32_eq_iff {bytes : Bytes} (h : bytes.length = 4) {n : Nat} (hn : n < 256) :
    bytes.foldl (fun n b => n * 256 + b.toNat) 0 = n ↔ bytes = uint32Bytes n := by
  obtain ⟨a, b, c, d, rfl⟩ : ∃ a b c d, bytes = [a, b, c, d] := by
    rcases bytes with _ | ⟨a, _ | ⟨b, _ | ⟨c, _ | ⟨d, rest⟩⟩⟩⟩
    iterate 4 cases h
    obtain rfl : rest = [] := List.length_eq_zero_iff.mp (by simpa using h)
    exact ⟨a, b, c, d, rfl⟩
  have hhigh : n / 2 ^ 24 = 0 ∧ n / 2 ^ 16 = 0 ∧ n / 2 ^ 8 = 0 := by omega
  have hnat : (UInt8.ofNat n).toNat = n := Nat.mod_eq_of_lt hn
  simp only [uint32Bytes, hhigh.1, hhigh.2.1, hhigh.2.2, List.foldl_cons, List.foldl_nil,
    List.cons.injEq, and_true, ← UInt8.toNat_inj, hnat]
  have hzero : (UInt8.ofNat 0).toNat = 0 := rfl
  have hd := UInt8.toNat_lt d
  rw [hzero]
  omega

theorem map_byteChars (bytes : Bytes) :
    ((byteChars bytes).map fun c => UInt8.ofNat c.toNat) = bytes := by
  have hbyte : ∀ b : UInt8, UInt8.ofNat (Char.ofNat b.toNat).toNat = b := by
    intro b
    have hvalid : b.toNat.isValidChar := by
      have hb := UInt8.toNat_lt b
      exact .inl (by omega)
    have hchar : (Char.ofNat b.toNat).toNat = b.toNat := by
      rw [Char.ofNat, dif_pos hvalid]
      rfl
    rw [hchar, UInt8.ofNat_toNat]
  rw [byteChars, List.map_map]
  exact (List.map_congr_left fun b _ => hbyte b).trans (List.map_id bytes)

/-- Eleven bytes are decoded to the kind of the key when they spell it. -/
theorem textDecode_kind_iff {bytes : Bytes} (h : bytes.length = 11) :
    textDecode bytes = SSH_ED25519_PREFIX ↔ bytes = asciiBytes SSH_ED25519_PREFIX := by
  constructor
  · intro hdecode
    let ascii : Char → Bool := fun c => decide (0 < c.toNat) && decide (c.toNat < 0x80)
    have hsplits : Splits ascii (List.filter ascii) := by
      refine ⟨rfl, fun before sep after hsep => ?_⟩
      rw [List.filter_append, List.filter_cons_of_neg (by simp [hsep])]
    have hword : ∀ c, ascii c = true → c.toNat < 0x80 ∧ c.toNat ≠ 0 := by
      intro c hc
      simp only [ascii, Bool.and_eq_true, decide_eq_true_eq] at hc
      exact ⟨hc.2, Nat.ne_of_gt hc.1⟩
    have hscan := hsplits.textDecode hword bytes
    rw [hdecode] at hscan
    -- No byte was lost, so every one of them is ASCII.
    have hkind : SSH_ED25519_PREFIX.toList.filter ascii = SSH_ED25519_PREFIX.toList := by decide
    rw [hkind] at hscan
    have hall : (byteChars bytes).filter ascii = byteChars bytes := by
      refine List.filter_sublist.eq_of_length ?_
      rw [← hscan, byteChars, List.length_map, h]
      decide
    rw [hall] at hscan
    rw [← map_byteChars bytes, ← hscan]
    rfl
  · rintro rfl
    decide

theorem length_ed25519Wire (key : Bytes) : (ed25519Wire key).length = 19 + key.length := by
  simp only [ed25519Wire, List.length_append]
  rfl

/-- A blob that is cut at the lengths of the format is in the format when its parts are. -/
theorem wire_iff {typeLen kind keyLen raw rest key : Bytes} (htypeLen : typeLen.length = 4)
    (hkind : kind.length = 11) (hkeyLen : keyLen.length = 4) (hraw : raw.length = 32) :
    (key.length = 32 ∧ ∃ rest', typeLen ++ (kind ++ (keyLen ++ (raw ++ rest))) =
        ed25519Wire key ++ rest') ↔
      typeLen = uint32Bytes 11 ∧ kind = asciiBytes SSH_ED25519_PREFIX ∧
        keyLen = uint32Bytes 32 ∧ raw = key := by
  constructor
  · rintro ⟨hkey, rest', heq⟩
    simp only [ed25519Wire, List.append_assoc] at heq
    obtain ⟨htype, heq⟩ := List.append_inj heq htypeLen
    obtain ⟨hfront, heq⟩ := List.append_inj heq hkind
    obtain ⟨hsize, heq⟩ := List.append_inj heq hkeyLen
    exact ⟨htype, hfront, hsize, (List.append_inj heq (hraw.trans hkey.symm)).1⟩
  · rintro ⟨rfl, rfl, rfl, rfl⟩
    refine ⟨hraw, rest, ?_⟩
    simp only [ed25519Wire, List.append_assoc]

end GitHubKeyLemmas

open GitHubKeyLemmas

/-- A blob is taken when it starts with the wire format of a key. -/
theorem parseEd25519Blob_eq_some_iff {decoded key : Bytes} :
    parseEd25519Blob decoded = some key ↔
      key.length = 32 ∧ ∃ rest, decoded = ed25519Wire key ++ rest := by
  by_cases hshort : decoded.length < 51
  · rw [parseEd25519Blob, if_pos hshort]
    refine iff_of_false (by simp) ?_
    rintro ⟨hkey, rest, rfl⟩
    rw [List.length_append, length_ed25519Wire, hkey] at hshort
    omega
  obtain ⟨typeLen, behind, rfl, htypeLen, hbehind⟩ := exists_front (n := 4)
    (show 4 ≤ decoded.length by omega)
  obtain ⟨kind, behind, rfl, hkind, hbehind⟩ := exists_front (n := 11)
    (show 11 ≤ behind.length by omega)
  obtain ⟨keyLen, behind, rfl, hkeyLen, hbehind⟩ := exists_front (n := 4)
    (show 4 ≤ behind.length by omega)
  obtain ⟨raw, rest, rfl, hraw, -⟩ := exists_front (n := 32)
    (show 32 ≤ behind.length by omega)
  rw [wire_iff htypeLen hkind hkeyLen hraw]
  generalize hdecoded : typeLen ++ (kind ++ (keyLen ++ (raw ++ rest))) = decoded at hshort ⊢
  have htypeAt : subarray decoded 0 (0 + 4) = typeLen := by
    rw [← hdecoded]
    have hlen : 0 + typeLen.length = 0 + 4 := by rw [htypeLen]
    exact @subarray_middle [] typeLen _ 0 (0 + 4) rfl hlen
  have hkindAt : subarray decoded 4 (4 + 11) = kind := by
    rw [← hdecoded]
    exact subarray_middle _ htypeLen (by rw [hkind])
  have hkeyLenAt : subarray decoded (4 + 11) (4 + 11 + 4) = keyLen := by
    rw [← hdecoded, ← List.append_assoc]
    exact subarray_middle _ (by rw [List.length_append, htypeLen, hkind]) (by rw [hkeyLen])
  have hrawAt : subarray decoded (4 + 11 + 4) (4 + 11 + 4 + 32) = raw := by
    rw [← hdecoded, ← List.append_assoc, ← List.append_assoc]
    exact subarray_middle _
      (by rw [List.length_append, List.length_append, htypeLen, hkind, hkeyLen]) (by rw [hraw])
  have hlength : decoded.length = 51 + rest.length := by
    rw [← hdecoded]
    simp only [List.length_append]
    omega
  have htypeIff := uint32_eq_iff htypeLen (n := 11) (by decide)
  have hkindIff := textDecode_kind_iff hkind
  have hkeyLenIff := uint32_eq_iff hkeyLen (n := 32) (by decide)
  rw [← htypeIff, ← hkindIff, ← hkeyLenIff, parseEd25519Blob, if_neg hshort]
  simp only [getUint32, htypeAt]
  -- The tests of the parser, one after the other.
  rcases Decidable.em (typeLen.foldl (fun n b => n * 256 + b.toNat) 0 = 11) with htype | htype
  · rw [if_neg (not_not.mpr htype), htype, hkindAt]
    rcases Decidable.em (textDecode kind = SSH_ED25519_PREFIX) with hprefix | hprefix
    · rw [if_neg (not_not.mpr hprefix), if_neg (by omega), hkeyLenAt, ED25519_RAW_KEY_LENGTH]
      rcases Decidable.em (keyLen.foldl (fun n b => n * 256 + b.toNat) 0 = 32) with hsize | hsize
      · rw [if_neg (not_not.mpr hsize), hsize, if_neg (by omega), hrawAt, Option.some_inj]
        exact ⟨fun h => ⟨rfl, hprefix, rfl, h⟩, fun h => h.2.2.2⟩
      · rw [if_pos hsize]
        exact iff_of_false (by simp) fun h => hsize h.2.2.1
    · rw [if_pos hprefix]
      exact iff_of_false (by simp) fun h => hprefix h.2.1
  · rw [if_pos htype]
    exact iff_of_false (by simp) fun h => htype h.1

namespace GitHubKeyLemmas

/-! ## Lines -/

theorem splitSpaces_eq_cons_cons_iff {s first second : String} :
    (∃ more, splitSpaces s = first :: second :: more) ↔
      ∃ more, splitRuns isJsSpace s.toList = first.toList :: second.toList :: more := by
  constructor
  · rintro ⟨more, h⟩
    obtain ⟨a, rest, hsplit, rfl, hrest⟩ := List.map_eq_cons_iff.mp h
    obtain ⟨b, fields, rfl, rfl, -⟩ := List.map_eq_cons_iff.mp hrest
    rw [String.toList_ofList, String.toList_ofList]
    exact ⟨fields, hsplit⟩
  · rintro ⟨more, h⟩
    refine ⟨more.map String.ofList, ?_⟩
    rw [splitSpaces, h, List.map_cons, List.map_cons, String.ofList_toList, String.ofList_toList]

/-- The line of a key is split into the kind, the blob and what there is more. -/
theorem isKeyLine_iff {line base64 : String} :
    IsKeyLine line base64 ↔ base64 ≠ "" ∧
      ∃ more, splitSpaces (trim line) = SSH_ED25519_PREFIX :: base64 :: more := by
  rw [splitSpaces_eq_cons_cons_iff, splitRuns_eq_cons_cons_iff]
  constructor
  · rintro ⟨gap, comment, hline, hgap, hne, hfield, hcomment⟩
    refine ⟨hne, gap, comment, hline, ?_, hgap, hfield, hcomment, fun hempty => ?_⟩
    · have hkind : (SSH_ED25519_PREFIX.toList.all fun c => !isJsSpace c) = true := by decide
      intro c hc
      simpa using List.all_eq_true.mp hkind c hc
    · exact absurd (String.toList_inj.mp hempty) hne
  · rintro ⟨hne, gap, comment, hline, -, hgap, hfield, hcomment, -⟩
    exact ⟨gap, comment, hline, hgap, hne, hfield, hcomment⟩

/-- The line of a key is neither blank nor a comment. -/
theorem content_of_isKeyLine {line base64 : String} (h : IsKeyLine line base64) :
    ¬ (trim line = "" ∨ startsWith (trim line) "#" = true) := by
  obtain ⟨gap, comment, hline, -⟩ := h
  rintro (hblank | hsharp)
  · rw [hblank] at hline
    cases hline
  · rw [startsWith, hline] at hsharp
    cases hsharp

/-- A blob without any text is no key. -/
theorem parseEd25519Blob_empty : (atob "").bind parseEd25519Blob = none := by decide

end GitHubKeyLemmas

/-- A line is parsed to a key when it holds a blob that starts with the key. -/
theorem parseOpenSshEd25519Line_eq_some_iff {line : String} {key : Bytes} :
    parseOpenSshEd25519Line line = some key ↔
      key.length = 32 ∧ ∃ rest, HoldsBlob line (ed25519Wire key ++ rest) := by
  unfold parseOpenSshEd25519Line
  constructor
  · intro h
    dsimp only at h
    split at h
    · cases h
    split at h
    · next kind base64 more hsplit =>
      split at h
      · cases h
      · next hkind =>
        obtain ⟨blob, hblob, hparsed⟩ := Option.bind_eq_some_iff.mp h
        obtain ⟨hlength, rest, rfl⟩ := parseEd25519Blob_eq_some_iff.mp hparsed
        refine ⟨hlength, rest, base64, isKeyLine_iff.mpr ⟨?_, more, ?_⟩, hblob⟩
        · rintro rfl
          rw [parseEd25519Blob_empty] at h
          cases h
        · rw [hsplit, not_not.mp hkind]
    · cases h
  · rintro ⟨hlength, rest, base64, hline, hblob⟩
    obtain ⟨-, more, hsplit⟩ := isKeyLine_iff.mp hline
    simp only [if_neg (content_of_isKeyLine hline), hsplit, hblob, ne_eq,
      not_true_eq_false, if_false, Option.bind_some]
    exact parseEd25519Blob_eq_some_iff.mpr ⟨hlength, rest, rfl⟩

/-- The blob of a line is determined. -/
theorem HoldsBlob.unique {line : String} {blob blob' : Bytes} (h : HoldsBlob line blob)
    (h' : HoldsBlob line blob') : blob = blob' := by
  obtain ⟨base64, hline, hblob⟩ := h
  obtain ⟨base64', hline', hblob'⟩ := h'
  obtain ⟨-, more, hsplit⟩ := isKeyLine_iff.mp hline
  obtain ⟨-, more', hsplit'⟩ := isKeyLine_iff.mp hline'
  rw [hsplit, List.cons_eq_cons, List.cons_eq_cons] at hsplit'
  obtain ⟨-, rfl, -⟩ := hsplit'
  exact Option.some.inj (hblob.symm.trans hblob')

/-- What comes behind the key is not looked at. -/
theorem not_parsesExactly_of_more {line : String} (h : HoldsMoreThanKey line) :
    ¬ ParsesExactly line := by
  obtain ⟨key, rest, hlength, hne, hblob⟩ := h
  intro hexact
  have hparsed := parseOpenSshEd25519Line_eq_some_iff.mpr ⟨hlength, rest, hblob⟩
  obtain ⟨-, hwire⟩ := (hexact key).mp hparsed
  exact hne (List.append_cancel_left ((hblob.unique hwire).trans (List.append_nil _).symm))

/-- A line is parsed as documented if and only if no byte follows the key in its blob. -/
theorem parses_exactly_iff (line : String) : ParsesExactly line ↔ ¬ HoldsMoreThanKey line := by
  constructor
  · exact fun hexact hmore => not_parsesExactly_of_more hmore hexact
  · intro hmore key
    constructor
    · intro hparsed
      obtain ⟨hlength, rest, hblob⟩ := parseOpenSshEd25519Line_eq_some_iff.mp hparsed
      rcases Decidable.em (rest = []) with rfl | hne
      · rw [List.append_nil] at hblob
        exact ⟨hlength, hblob⟩
      · exact absurd ⟨key, rest, hlength, hne, hblob⟩ hmore
    · rintro ⟨hlength, hblob⟩
      refine parseOpenSshEd25519Line_eq_some_iff.mpr ⟨hlength, [], ?_⟩
      rw [List.append_nil]
      exact hblob

/-! ## A key with a byte behind it -/

/-- The key of 32 zeros, as a line with one more byte in its blob. -/
def keyLineWithExtraByte : String :=
  "ssh-ed25519 AAAAC3NzaC1lZDI1NTE5AAAAIAAAAAAAAAAAAAAAAAAAAAAAAAAAAAAAAAAAAAAAAAAAAA=="

/-- The line is parsed to a key, and does not hold one. -/
theorem extra_byte_ignored : ¬ ParsesExactly keyLineWithExtraByte := by
  refine not_parsesExactly_of_more ⟨List.replicate 32 0, [0], rfl, List.cons_ne_nil _ _,
    "AAAAC3NzaC1lZDI1NTE5AAAAIAAAAAAAAAAAAAAAAAAAAAAAAAAAAAAAAAAAAAAAAAAAAA==", ?_, ?_⟩
  · exact isKeyLine_iff.mpr ⟨by decide, [], by decide +kernel⟩
  · decide +kernel

end BitRelay
