import BitRelay.Js.FreeText
import BitRelay.Lib.Lines
import BitRelay.Service.SignatureStage

/-!
# What a signature is about

The signed texts are lines of `key=value`, without escapes. The sender, the id of
a message and the nonce of a rotation are free texts: they may hold newlines, and
so whole lines that the reader of the text takes for fields.

Results:
1. `unambiguous_iff`: an admitted operation is the only one with its signed text if
   and only if no free text of it embeds the marker between the free texts.
2. `parseRotateFields_admitted`, `reviewBegin_admitted`, `publishSigned_admitted`: what the
   handlers ask a signature for is an admitted operation.
-/

namespace BitRelay

open Lines

/-! ## Operations -/

/-- A nonce of a request header, which has no newline. -/
def HeaderNonce (nonce : String) : Prop :=
  FreeText nonce ∧ jsLength nonce ≤ 256 ∧ '\n' ∉ nonce.toList

def isHexChar (c : Char) : Bool := c.isDigit || (97 ≤ c.toNat && c.toNat ≤ 102)

inductive SignedOperation where
  | publish (input : PublishSigningInput)
  | review (input : ReviewSigningInput)
  | rotate (input : RotateSigningInput)
  deriving DecidableEq

namespace SignedOperation

def message : SignedOperation → String
  | .publish input => buildPublishSigningMessage input
  | .review input => buildReviewSigningMessage input
  | .rotate input => buildRotateSigningMessage input

/-- The inputs that the handlers let through. -/
def Admitted : SignedOperation → Prop
  | .publish x => FreeText x.sender ∧ isValidRoomName x.room = true ∧ FreeText x.id ∧
      isValidTopic x.topic = true ∧ 0 < x.ts ∧ HeaderNonce x.nonce ∧
      x.payloadHash.toList.all isHexChar = true
  | .review x => FreeText x.sender ∧ isValidRoomName x.room = true ∧
      isValidPrId x.prId = true ∧ (x.verdict = "approve" ∨ x.verdict = "deny") ∧ 0 < x.ts ∧
      HeaderNonce x.nonce
  | .rotate x => FreeText x.sender ∧ isLikelyBase64Url x.newPublicKey = true ∧ 0 < x.ts ∧
      FreeText x.nonce ∧ jsLength x.nonce ≤ 256

instance (nonce : String) : Decidable (HeaderNonce nonce) := inferInstanceAs (Decidable (_ ∧ _))

instance : DecidablePred Admitted
  | .publish _ => inferInstanceAs (Decidable (_ ∧ _))
  | .review _ => inferInstanceAs (Decidable (_ ∧ _))
  | .rotate _ => inferInstanceAs (Decidable (_ ∧ _))

/-- No other operation has the signed text of this one. -/
def Unambiguous (x : SignedOperation) : Prop :=
  ∀ y : SignedOperation, y.Admitted → y.message = x.message → y = x

end SignedOperation

/-! ## Embedded markers -/

/-- What the publish text writes between the sender and the id. -/
def roomMarker (room : String) : String := "\nroom=" ++ room ++ "\nid="

/-- What the rotation text writes between the sender and the nonce. -/
def keyMarker (newPublicKey : String) (ts : Int) : String :=
  "\nnew_public_key=" ++ newPublicKey ++ "\nts=" ++ toString ts ++ "\nnonce="

def EmbedsRoom (s : String) : Prop :=
  ∃ a room b, s = a ++ roomMarker room ++ b ∧ isValidRoomName room = true ∧ FreeText a ∧
    FreeText b

def EmbedsKey (s : String) (fits : String → Prop) : Prop :=
  ∃ a newPublicKey ts b, s = a ++ keyMarker newPublicKey ts ++ b ∧
    isLikelyBase64Url newPublicKey = true ∧ 0 < ts ∧ FreeText a ∧ FreeText b ∧ fits b

/-- A free field holds a marker, and what follows it there can go to the next free field. -/
def SignedOperation.Embeds : SignedOperation → Prop
  | .publish x => EmbedsRoom x.sender ∨ EmbedsRoom x.id
  | .review _ => False
  | .rotate x => EmbedsKey x.nonce (fun _ => True) ∨
      EmbedsKey x.sender fun b => jsLength (b ++ keyMarker x.newPublicKey x.ts ++ x.nonce) ≤ 256

namespace SignedTextLemmas

open FreeTextLemmas

/-! ## Free texts -/

/-- What stands between the markers of two free texts is one. -/
theorem FreeEnds.middle {l x m : List Char} (hback : FreeEnds (l ++ x))
    (hfront : FreeEnds (x ++ '\n' :: m)) : FreeEnds x := by
  obtain ⟨-, d, hd, hdspace⟩ := hback
  obtain ⟨⟨c, hc, hcspace⟩, -⟩ := hfront
  cases x with
  | nil =>
    cases hc
    exact absurd hcspace (by decide)
  | cons y ys =>
    refine ⟨⟨c, hc, hcspace⟩, ⟨d, ?_, hdspace⟩⟩
    rw [List.getLast?_append] at hd
    cases hlast : (y :: ys).getLast? with
    | none => exact absurd (List.getLast?_eq_none_iff.mp hlast) (List.cons_ne_nil _ _)
    | some e =>
      rw [hlast] at hd
      exact hd

/-! ## Lines of the signed texts -/

theorem newline_notMem_room {room : String} (h : isValidRoomName room = true) :
    '\n' ∉ room.toList :=
  notMem_of_matchesName h (by decide) (by decide)

theorem newline_notMem_prId {prId : String} (h : isValidPrId prId = true) : '\n' ∉ prId.toList :=
  notMem_of_matchesName h (by decide) (by decide)

theorem newline_notMem_topic {topic : String} (h : isValidTopic topic = true) :
    '\n' ∉ topic.toList :=
  notMem_of_matchesName h (by decide) (by decide)

theorem newline_notMem_key {key : String} (h : isLikelyBase64Url key = true) :
    '\n' ∉ key.toList := by
  unfold isLikelyBase64Url at h
  rw [Bool.and_eq_true, List.all_eq_true] at h
  exact fun hmem => absurd (h.2 _ hmem) (by decide)

theorem newline_notMem_hex {hash : String} (h : hash.toList.all isHexChar = true) :
    '\n' ∉ hash.toList := by
  intro hmem
  exact absurd (List.all_eq_true.mp h _ hmem) (by decide)

/-- The digits of a positive timestamp. -/
theorem toList_ts {ts : Int} (h : 0 < ts) : (toString ts).toList = Nat.toDigits 10 ts.toNat := by
  obtain ⟨n, rfl⟩ := Int.eq_ofNat_of_zero_le (Int.le_of_lt h)
  have hprint : toString (n : Int) = toString n := rfl
  rw [hprint, Nat.toString_eq_ofList_toDigits, String.toList_ofList, Int.toNat_natCast]

theorem newline_notMem_ts {ts : Int} (h : 0 < ts) : '\n' ∉ (toString ts).toList := by
  rw [toList_ts h]
  intro hmem
  exact absurd (Nat.isDigit_of_mem_toDigits (by decide) (by decide) hmem) (by decide)

theorem ts_inj {ts ts' : Int} (h : 0 < ts) (h' : 0 < ts')
    (heq : (toString ts).toList = (toString ts').toList) : ts = ts' := by
  rw [toList_ts h, toList_ts h'] at heq
  have hvalue := congrArg (Nat.ofDigitChars 10 · 0) heq
  simp only [Nat.ofDigitChars_ten_toDigits] at hvalue
  omega

/-- A line of a signed text whose value has no newline. -/
def line (key value : String) : List Char := (key ++ value).toList

theorem newline_notMem_line {key value : String} (hkey : '\n' ∉ key.toList)
    (hvalue : '\n' ∉ value.toList) : '\n' ∉ line key value := by
  unfold line
  rw [String.toList_append, List.mem_append]
  rintro (h | h)
  · exact hkey h
  · exact hvalue h

theorem line_inj {key value value' : String} (h : line key value = line key value') :
    value = value' := by
  unfold line at h
  rw [String.toList_append, String.toList_append] at h
  exact String.toList_injective (List.append_cancel_left h)

/-! ## The markers -/

def roomMark (room : String) (h : isValidRoomName room = true) : Marker '\n' where
  first := line "room=" room
  body := []
  tag := "id=".toList
  first_free := newline_notMem_line (by decide) (newline_notMem_room h)
  body_free := by simp
  tag_free := by decide

def keyMark (newPublicKey : String) (ts : Int) (hkey : isLikelyBase64Url newPublicKey = true)
    (hts : 0 < ts) : Marker '\n' where
  first := line "new_public_key=" newPublicKey
  body := [line "ts=" (toString ts)]
  tag := "nonce=".toList
  first_free := newline_notMem_line (by decide) (newline_notMem_key hkey)
  body_free := by
    intro l hl
    rw [List.mem_singleton] at hl
    subst hl
    exact newline_notMem_line (by decide) (newline_notMem_ts hts)
  tag_free := by decide

theorem text_roomMark (room : String) (h : isValidRoomName room = true) :
    (roomMark room h).text = (roomMarker room).toList := by
  simp [Marker.text, block, roomMark, roomMarker, line]

theorem block_key (newPublicKey digits : String) :
    block '\n' [line "new_public_key=" newPublicKey, line "ts=" digits, "nonce=".toList] =
      ("\nnew_public_key=" ++ newPublicKey ++ "\nts=" ++ digits ++ "\nnonce=").toList := by
  simp [block, line]

theorem text_keyMark (newPublicKey : String) (ts : Int)
    (hkey : isLikelyBase64Url newPublicKey = true) (hts : 0 < ts) :
    (keyMark newPublicKey ts hkey hts).text = (keyMarker newPublicKey ts).toList :=
  block_key newPublicKey (toString ts)

theorem clear_roomMark (room room' : String) (h : isValidRoomName room = true)
    (h' : isValidRoomName room' = true) : (roomMark room h).Clear (roomMark room' h') := by
  constructor
  · exact List.not_mem_nil
  · rintro ⟨t, ht⟩
    simp [roomMark, line] at ht

theorem clear_keyMark (key key' : String) (ts ts' : Int) (hkey : isLikelyBase64Url key = true)
    (hkey' : isLikelyBase64Url key' = true) (hts : 0 < ts) (hts' : 0 < ts') :
    (keyMark key ts hkey hts).Clear (keyMark key' ts' hkey' hts') := by
  constructor
  · intro hmem
    simp [keyMark, line] at hmem
  · rintro ⟨t, ht⟩
    simp [keyMark, line] at ht

/-! ## The signed texts, field by field -/

theorem toList_publish (x : PublishSigningInput) :
    (buildPublishSigningMessage x).toList = "v1\nsender=".toList ++
      (x.sender.toList ++ (roomMarker x.room).toList ++ x.id.toList ++
        block '\n' [line "topic=" x.topic, line "ts=" (toString x.ts), line "nonce=" x.nonce,
          line "payload_sha256=" x.payloadHash]) := by
  simp [buildPublishSigningMessage, roomMarker, block, line]

theorem toList_review (x : ReviewSigningInput) :
    (buildReviewSigningMessage x).toList = "v1\nop=review\nsender=".toList ++
      (x.sender.toList ++ block '\n' [line "room=" x.room, line "pr_id=" x.prId,
        line "verdict=" x.verdict, line "ts=" (toString x.ts), line "nonce=" x.nonce]) := by
  simp [buildReviewSigningMessage, block, line]

theorem toList_keyMarker (newPublicKey : String) (ts : Int) :
    (keyMarker newPublicKey ts).toList = '\n' :: ("new_public_key=".toList ++
      (newPublicKey.toList ++ ("\nts=".toList ++ ((toString ts).toList ++ "\nnonce=".toList)))) := by
  unfold keyMarker
  rw [String.toList_append, String.toList_append, String.toList_append, String.toList_append,
    List.append_assoc, List.append_assoc, List.append_assoc]
  rfl

theorem toList_rotate (x : RotateSigningInput) :
    (buildRotateSigningMessage x).toList = "v1\nop=rotate\nsender=".toList ++
      (x.sender.toList ++ (keyMarker x.newPublicKey x.ts).toList ++ x.nonce.toList) := by
  simp [buildRotateSigningMessage, toList_keyMarker]

/-- The second line tells the operations apart. -/
theorem sameKind_of_message {x y : SignedOperation} (h : x.message = y.message) :
    (∃ a b, x = .publish a ∧ y = .publish b) ∨ (∃ a b, x = .review a ∧ y = .review b) ∨
      ∃ a b, x = .rotate a ∧ y = .rotate b := by
  have hchars := congrArg String.toList h
  cases x <;> cases y <;>
    simp only [SignedOperation.message, toList_publish, toList_review, toList_rotate] at hchars
  case publish.publish a b => exact .inl ⟨a, b, rfl, rfl⟩
  case review.review a b => exact .inr (.inl ⟨a, b, rfl, rfl⟩)
  case rotate.rotate a b => exact .inr (.inr ⟨a, b, rfl, rfl⟩)
  all_goals simp at hchars

/-- Two free fields around a marker, read back from one text. -/
theorem fields_split {m m' : Marker '\n'} {M M' a b a' b' : String}
    (hm : m.text = M.toList) (hm' : m'.text = M'.toList) (hclear : m.Clear m')
    (hclear' : m'.Clear m) (hsize : m.body.length = m'.body.length) (htag : m.tag = m'.tag)
    (h : a.toList ++ M.toList ++ b.toList = a'.toList ++ M'.toList ++ b'.toList) :
    (a = a' ∧ m = m' ∧ b = b') ∨ (∃ t, a' = a ++ M ++ t ∧ b = t ++ M' ++ b') ∨
      (∃ t, a = a' ++ M' ++ t ∧ b' = t ++ M ++ b) := by
  have hstring : ∀ (s u v : String) (w : List Char),
      s.toList = u.toList ++ v.toList ++ w → s = u ++ v ++ String.ofList w := by
    intro s u v w hs
    apply String.toList_injective
    rw [hs, String.toList_append, String.toList_append, String.toList_ofList]
  have hstring' : ∀ (s v w : String) (u : List Char),
      s.toList = u ++ v.toList ++ w.toList → s = String.ofList u ++ v ++ w := by
    intro s v w u hs
    apply String.toList_injective
    rw [hs, String.toList_append, String.toList_append, String.toList_ofList]
  rw [← hm, ← hm'] at h
  rcases Marker.split hclear hclear' hsize htag h with ⟨ha, hmark, hb⟩ | ⟨t, ha, hb⟩ | ⟨t, ha, hb⟩
  · exact .inl ⟨String.toList_injective ha, hmark, String.toList_injective hb⟩
  · rw [hm] at ha
    rw [hm'] at hb
    exact .inr (.inl ⟨String.ofList t, hstring _ _ _ t ha, hstring' _ _ _ t hb⟩)
  · rw [hm'] at ha
    rw [hm] at hb
    exact .inr (.inr ⟨String.ofList t, hstring _ _ _ t ha, hstring' _ _ _ t hb⟩)

theorem freeText_middle {a M t M' b : String} (hback : FreeText (a ++ M ++ t))
    (hfront : FreeText (t ++ M' ++ b)) (hM' : ∃ rest, M'.toList = '\n' :: rest) : FreeText t := by
  obtain ⟨rest, hrest⟩ := hM'
  rw [freeText_iff, String.toList_append] at hback hfront
  rw [String.toList_append, hrest, List.append_assoc] at hfront
  exact freeText_iff.mpr (FreeEnds.middle hback hfront)

theorem newline_roomMarker (room : String) : ∃ rest, (roomMarker room).toList = '\n' :: rest :=
  ⟨"room=".toList ++ room.toList ++ "\nid=".toList, by simp [roomMarker]⟩

theorem newline_keyMarker (newPublicKey : String) (ts : Int) :
    ∃ rest, (keyMarker newPublicKey ts).toList = '\n' :: rest :=
  ⟨_, toList_keyMarker newPublicKey ts⟩

/-- Publish: the same operation, or the border between sender and id lies elsewhere. -/
theorem publish_split {x y : PublishSigningInput} (hx : (SignedOperation.publish x).Admitted)
    (hy : (SignedOperation.publish y).Admitted)
    (h : buildPublishSigningMessage x = buildPublishSigningMessage y) :
    x = y ∨
      (∃ t, y.sender = x.sender ++ roomMarker x.room ++ t ∧ x.id = t ++ roomMarker y.room ++ y.id) ∨
      (∃ t, x.sender = y.sender ++ roomMarker y.room ++ t ∧
        y.id = t ++ roomMarker x.room ++ x.id) := by
  obtain ⟨-, hroom, -, htopic, hts, ⟨-, -, hnonce⟩, hhash⟩ := hx
  obtain ⟨-, hroom', -, htopic', hts', ⟨-, -, hnonce'⟩, hhash'⟩ := hy
  have hlines : ∀ {topic nonce hash : String} {ts : Int}, isValidTopic topic = true → 0 < ts →
      '\n' ∉ nonce.toList → hash.toList.all isHexChar = true →
      ∀ l ∈ [line "topic=" topic, line "ts=" (toString ts), line "nonce=" nonce,
        line "payload_sha256=" hash], '\n' ∉ l := by
    intro topic nonce hash ts htopic hts hnonce hhash l hl
    simp only [List.mem_cons, List.not_mem_nil, or_false] at hl
    rcases hl with rfl | rfl | rfl | rfl
    · exact newline_notMem_line (by decide) (newline_notMem_topic htopic)
    · exact newline_notMem_line (by decide) (newline_notMem_ts hts)
    · exact newline_notMem_line (by decide) hnonce
    · exact newline_notMem_line (by decide) (newline_notMem_hex hhash)
  have hchars := congrArg String.toList h
  rw [toList_publish, toList_publish] at hchars
  obtain ⟨hfields, htail⟩ := append_block_inj (List.append_cancel_left hchars) rfl
    (hlines htopic hts hnonce hhash) (hlines htopic' hts' hnonce' hhash')
  simp only [List.cons.injEq, and_true] at htail
  obtain ⟨htopicEq, htsEq, hnonceEq, hhashEq⟩ := htail
  rcases fields_split (text_roomMark x.room hroom) (text_roomMark y.room hroom')
    (clear_roomMark _ _ _ _) (clear_roomMark _ _ _ _) rfl rfl hfields with ⟨hs, hmark, hid⟩ | hlater
  · left
    have htsEq : x.ts = y.ts := ts_inj hts hts' (congrArg String.toList (line_inj htsEq))
    have hroomEq : x.room = y.room := line_inj (congrArg Marker.first hmark)
    cases x
    cases y
    simp only at hs hid htsEq hroomEq htopicEq hnonceEq hhashEq
    rw [hs, hid, htsEq, hroomEq, line_inj htopicEq, line_inj hnonceEq, line_inj hhashEq]
  · exact .inr hlater

theorem review_inj {x y : ReviewSigningInput} (hx : (SignedOperation.review x).Admitted)
    (hy : (SignedOperation.review y).Admitted)
    (h : buildReviewSigningMessage x = buildReviewSigningMessage y) : x = y := by
  obtain ⟨-, hroom, hprId, hverdict, hts, -, -, hnonce⟩ := hx
  obtain ⟨-, hroom', hprId', hverdict', hts', -, -, hnonce'⟩ := hy
  have hlines : ∀ {room prId verdict nonce : String} {ts : Int}, isValidRoomName room = true →
      isValidPrId prId = true → (verdict = "approve" ∨ verdict = "deny") → 0 < ts →
      '\n' ∉ nonce.toList →
      ∀ l ∈ [line "room=" room, line "pr_id=" prId, line "verdict=" verdict,
        line "ts=" (toString ts), line "nonce=" nonce], '\n' ∉ l := by
    intro room prId verdict nonce ts hroom hprId hverdict hts hnonce l hl
    simp only [List.mem_cons, List.not_mem_nil, or_false] at hl
    rcases hl with rfl | rfl | rfl | rfl | rfl
    · exact newline_notMem_line (by decide) (newline_notMem_room hroom)
    · exact newline_notMem_line (by decide) (newline_notMem_prId hprId)
    · rcases hverdict with rfl | rfl <;> decide
    · exact newline_notMem_line (by decide) (newline_notMem_ts hts)
    · exact newline_notMem_line (by decide) hnonce
  have hchars := congrArg String.toList h
  rw [toList_review, toList_review] at hchars
  obtain ⟨hsender, htail⟩ := append_block_inj (List.append_cancel_left hchars) rfl
    (hlines hroom hprId hverdict hts hnonce) (hlines hroom' hprId' hverdict' hts' hnonce')
  simp only [List.cons.injEq, and_true] at htail
  obtain ⟨hroomEq, hprIdEq, hverdictEq, htsEq, hnonceEq⟩ := htail
  have hsender : x.sender = y.sender := String.toList_injective hsender
  have htsEq : x.ts = y.ts := ts_inj hts hts' (congrArg String.toList (line_inj htsEq))
  cases x
  cases y
  simp only at hsender htsEq hroomEq hprIdEq hverdictEq hnonceEq
  rw [hsender, htsEq, line_inj hroomEq, line_inj hprIdEq, line_inj hverdictEq, line_inj hnonceEq]

/-- Rotation: the same operation, or the border between sender and nonce lies elsewhere. -/
theorem rotate_split {x y : RotateSigningInput} (hx : (SignedOperation.rotate x).Admitted)
    (hy : (SignedOperation.rotate y).Admitted)
    (h : buildRotateSigningMessage x = buildRotateSigningMessage y) :
    x = y ∨
      (∃ t, y.sender = x.sender ++ keyMarker x.newPublicKey x.ts ++ t ∧
        x.nonce = t ++ keyMarker y.newPublicKey y.ts ++ y.nonce) ∨
      (∃ t, x.sender = y.sender ++ keyMarker y.newPublicKey y.ts ++ t ∧
        y.nonce = t ++ keyMarker x.newPublicKey x.ts ++ x.nonce) := by
  obtain ⟨-, hkey, hts, -, -⟩ := hx
  obtain ⟨-, hkey', hts', -, -⟩ := hy
  have hchars := congrArg String.toList h
  rw [toList_rotate, toList_rotate] at hchars
  rcases fields_split (text_keyMark x.newPublicKey x.ts hkey hts)
    (text_keyMark y.newPublicKey y.ts hkey' hts') (clear_keyMark _ _ _ _ _ _ _ _)
    (clear_keyMark _ _ _ _ _ _ _ _) rfl rfl (List.append_cancel_left hchars) with
    ⟨hs, hmark, hnonce⟩ | hlater
  · left
    have hkeyEq : x.newPublicKey = y.newPublicKey := line_inj (congrArg Marker.first hmark)
    have hbody := List.cons.inj (congrArg Marker.body hmark)
    have htsEq : x.ts = y.ts := ts_inj hts hts' (congrArg String.toList (line_inj hbody.1))
    cases x
    cases y
    simp only at hs hnonce hkeyEq htsEq
    rw [hs, hnonce, hkeyEq, htsEq]
  · exact .inr hlater

/-! ## Moving the border -/

theorem ne_append_marker {a M b : String} (hM : ∃ rest, M.toList = '\n' :: rest) :
    a ++ M ++ b ≠ a ∧ a ++ M ++ b ≠ b := by
  obtain ⟨rest, hM⟩ := hM
  constructor <;>
  · intro heq
    have hlen := congrArg (fun s => s.toList.length) heq
    simp only [String.toList_append, hM, List.length_append, List.length_cons] at hlen
    omega

theorem jsLength_append (a b : String) : jsLength (a ++ b) = jsLength a + jsLength b := by
  unfold jsLength utf16
  rw [String.toList_append, List.flatMap_append, List.length_append]

/-- Another publish with the same text. -/
theorem publish_moved {x : PublishSigningInput} (hx : (SignedOperation.publish x).Admitted)
    (h : EmbedsRoom x.sender ∨ EmbedsRoom x.id) :
    ∃ y, (SignedOperation.publish y).Admitted ∧
      buildPublishSigningMessage y = buildPublishSigningMessage x ∧ y ≠ x := by
  obtain ⟨hsender, hroom, hid, hrest⟩ := hx
  rcases h with ⟨a, room, b, hs, hroom', ha, hb⟩ | ⟨a, room, b, hs, hroom', ha, hb⟩
  · refine ⟨{ x with sender := a, room, id := b ++ roomMarker x.room ++ x.id },
      ⟨ha, hroom', freeText_append hb hid, hrest⟩, ?_, ?_⟩
    · apply String.toList_injective
      simp only [toList_publish, hs, String.toList_append, List.append_assoc]
    · intro heq
      have := congrArg PublishSigningInput.sender heq
      exact (ne_append_marker (newline_roomMarker room)).1 (hs.symm.trans this.symm)
  · refine ⟨{ x with sender := x.sender ++ roomMarker x.room ++ a, room, id := b },
      ⟨freeText_append hsender ha, hroom', hb, hrest⟩, ?_, ?_⟩
    · apply String.toList_injective
      simp only [toList_publish, hs, String.toList_append, List.append_assoc]
    · intro heq
      have := congrArg PublishSigningInput.id heq
      exact (ne_append_marker (newline_roomMarker room)).2 (hs.symm.trans this.symm)

/-- Another rotation with the same text. -/
theorem rotate_moved {x : RotateSigningInput} (hx : (SignedOperation.rotate x).Admitted)
    (h : (SignedOperation.rotate x).Embeds) :
    ∃ y, (SignedOperation.rotate y).Admitted ∧
      buildRotateSigningMessage y = buildRotateSigningMessage x ∧ y ≠ x := by
  obtain ⟨hsender, hkey, hts, hnonce, hlen⟩ := hx
  rcases h with ⟨a, key, ts, b, hs, hkey', hts', ha, hb, -⟩ |
    ⟨a, key, ts, b, hs, hkey', hts', ha, hb, hfits⟩
  · have hlenb : jsLength b ≤ 256 := by
      rw [hs, jsLength_append] at hlen
      omega
    refine ⟨⟨x.sender ++ keyMarker x.newPublicKey x.ts ++ a, key, ts, b⟩,
      ⟨freeText_append hsender ha, hkey', hts', hb, hlenb⟩, ?_, ?_⟩
    · apply String.toList_injective
      simp only [toList_rotate, hs, String.toList_append, List.append_assoc]
    · intro heq
      have := congrArg RotateSigningInput.nonce heq
      exact (ne_append_marker (newline_keyMarker key ts)).2 (hs.symm.trans this.symm)
  · refine ⟨⟨a, key, ts, b ++ keyMarker x.newPublicKey x.ts ++ x.nonce⟩,
      ⟨ha, hkey', hts', freeText_append hb hnonce, hfits⟩, ?_, ?_⟩
    · apply String.toList_injective
      simp only [toList_rotate, hs, String.toList_append, List.append_assoc]
    · intro heq
      have := congrArg RotateSigningInput.sender heq
      exact (ne_append_marker (newline_keyMarker key ts)).1 (hs.symm.trans this.symm)

end SignedTextLemmas

open SignedTextLemmas

/-! ## When a signature is about one operation -/

namespace SignedOperation

/-- Two operations with one text: one of them embeds a marker. -/
theorem embeds_of_message {x y : SignedOperation} (hx : x.Admitted) (hy : y.Admitted)
    (h : y.message = x.message) (hne : y ≠ x) : x.Embeds := by
  rcases sameKind_of_message h.symm with ⟨a, b, rfl, rfl⟩ | ⟨a, b, rfl, rfl⟩ | ⟨a, b, rfl, rfl⟩
  · rcases publish_split hx hy h.symm with rfl | ⟨t, hs, hid⟩ | ⟨t, hs, hid⟩
    · exact absurd rfl hne
    · have ht : FreeText t :=
        freeText_middle (hs ▸ hy.1) (hid ▸ hx.2.2.1) (newline_roomMarker _)
      exact .inr ⟨t, b.room, b.id, hid, hy.2.1, ht, hy.2.2.1⟩
    · have ht : FreeText t :=
        freeText_middle (hs ▸ hx.1) (hid ▸ hy.2.2.1) (newline_roomMarker _)
      exact .inl ⟨b.sender, b.room, t, hs, hy.2.1, hy.1, ht⟩
  · exact absurd (congrArg _ (review_inj hy hx h)) hne
  · rcases rotate_split hx hy h.symm with rfl | ⟨t, hs, hnonce⟩ | ⟨t, hs, hnonce⟩
    · exact absurd rfl hne
    · have ht : FreeText t :=
        freeText_middle (hs ▸ hy.1) (hnonce ▸ hx.2.2.2.1) (newline_keyMarker _ _)
      exact .inl ⟨t, b.newPublicKey, b.ts, b.nonce, hnonce, hy.2.1, hy.2.2.1, ht, hy.2.2.2.1,
        trivial⟩
    · have ht : FreeText t :=
        freeText_middle (hs ▸ hx.1) (hnonce ▸ hy.2.2.2.1) (newline_keyMarker _ _)
      have hfits : jsLength (t ++ keyMarker a.newPublicKey a.ts ++ a.nonce) ≤ 256 := by
        rw [← hnonce]
        exact hy.2.2.2.2
      exact .inr ⟨b.sender, b.newPublicKey, b.ts, t, hs, hy.2.1, hy.2.2.1, hy.1, ht, hfits⟩

/-- An operation that embeds a marker shares its text with another one. -/
theorem exists_other_of_embeds {x : SignedOperation} (hx : x.Admitted) (h : x.Embeds) :
    ∃ y : SignedOperation, y.Admitted ∧ y.message = x.message ∧ y ≠ x := by
  cases x with
  | publish a =>
    obtain ⟨y, hy, hmessage, hne⟩ := publish_moved hx h
    exact ⟨.publish y, hy, hmessage, fun heq => hne (SignedOperation.publish.inj heq)⟩
  | review a => exact h.elim
  | rotate a =>
    obtain ⟨y, hy, hmessage, hne⟩ := rotate_moved hx h
    exact ⟨.rotate y, hy, hmessage, fun heq => hne (SignedOperation.rotate.inj heq)⟩

end SignedOperation

/-- An admitted operation is the only admitted one with its signed text if and only if none of
its free fields embeds the marker between the free fields of its text. -/
theorem unambiguous_iff (x : SignedOperation) (hx : x.Admitted) :
    x.Unambiguous ↔ ¬ x.Embeds := by
  constructor
  · intro hunique hembeds
    obtain ⟨y, hy, hmessage, hne⟩ := x.exists_other_of_embeds hx hembeds
    exact hne (hunique y hy hmessage)
  · intro hembeds y hy hmessage
    by_contra hne
    exact hembeds (SignedOperation.embeds_of_message hx hy hmessage hne)

/-- A publish whose id goes on past a line that looks like a room. -/
def splitPublish : SignedOperation :=
  .publish ⟨"alice", "main", "m\nroom=other\nid=n", "notify", 1700000000, "n1", "00ff"⟩

theorem unambiguous_iff_splitPublish :
    splitPublish.Unambiguous ↔ ¬ splitPublish.Embeds :=
  unambiguous_iff splitPublish (by decide)

/-- One text, two messages: a signature for one of them is a signature for the other. -/
theorem one_text_two_publishes :
    ∃ x y : SignedOperation, x.Admitted ∧ y.Admitted ∧ x.message = y.message ∧ x ≠ y :=
  ⟨splitPublish,
    .publish ⟨"alice\nroom=main\nid=m", "other", "n", "notify", 1700000000, "n1", "00ff"⟩,
    by decide⟩

/-! ## The handlers ask for signatures of admitted operations -/

section
variable {C : Type} {R : Relay C} {request : Request}

theorem parseRotateFields_admitted {parsed : JsonValue} {fields : RotateFields}
    (h : parseRotateFields parsed = .ok fields) :
    (SignedOperation.rotate
      ⟨fields.sender, fields.newPublicKey, fields.ts, fields.nonce⟩).Admitted := by
  obtain ⟨hsender, hne, hkey, hts, hnonce, hnonceNe, hlen⟩ := parseRotateFields_ok h
  have hsenderFree : FreeText fields.sender := ⟨hne, hsender ▸ trimmed_trim _⟩
  have hnonceFree : FreeText fields.nonce := ⟨hnonceNe, hnonce ▸ trimmed_trim _⟩
  exact ⟨hsenderFree, hkey, hts, hnonceFree, hlen⟩

/-- A header has no newline, so neither has the nonce read from it. -/
theorem headerNonce_of_headers {auth : PublishAuthHeaders}
    (hheader : '\n' ∉ (request.headerTrim "x-relay-nonce").toList)
    (h : parsePublishAuthHeaders request = .ok (some auth)) :
    HeaderNonce auth.nonce ∧ 0 < auth.timestampSec := by
  obtain ⟨hnonce, hne, hlen, hts⟩ := parsePublishAuthHeaders_ok h
  exact ⟨⟨⟨hne, hnonce ▸ trimmed_trim _⟩, hlen, hnonce ▸ hheader⟩, hts⟩

theorem reviewBegin_admitted {room : String} {env : Env} {input : ReviewInput}
    {pending : PendingSignature} {s s' : ServiceState C} (hroom : isValidRoomName room = true)
    (hheader : '\n' ∉ (request.headerTrim "x-relay-nonce").toList)
    (h : (reviewBegin R request room env).run s = (.ok (input, pending), s')) :
    ∃ x, (SignedOperation.review x).Admitted ∧ buildReviewSigningMessage x = pending.message ∧
      x.sender = pending.sender := by
  obtain ⟨sender, s1, h1, k1⟩ := Proc.bind_ok h
  obtain ⟨-, hsender, rfl⟩ := requireParam_ok h1
  obtain ⟨prId, s2, h2, k2⟩ := Proc.bind_ok k1
  obtain ⟨-, -, rfl⟩ := requireParam_ok h2
  obtain ⟨_, s3, h3, k3⟩ := Proc.bind_ok k2
  obtain ⟨hprId, rfl⟩ := Proc.failIf_ok h3
  obtain ⟨verdict, s4, -, k4⟩ := Proc.bind_ok k3
  obtain ⟨presented, s5, h5, k5⟩ := Proc.bind_ok k4
  obtain ⟨hpresented, rfl⟩ := Proc.ofExcept_ok h5
  obtain ⟨auth, s6, h6, k6⟩ := Proc.bind_ok k5
  obtain ⟨hauth, rfl⟩ := Proc.ofExcept_ok h6
  obtain ⟨begun, s7, h7, k7⟩ := Proc.bind_ok k6
  obtain ⟨_, s8, -, k8⟩ := Proc.bind_ok h7
  cases k8
  cases k7
  have hauth : presented = some auth := by
    cases presented with
    | none => cases hauth
    | some auth' => exact congrArg some (Except.ok.inj hauth)
  obtain ⟨hnonce, hts⟩ := headerNonce_of_headers hheader (hauth ▸ hpresented)
  refine ⟨_, ⟨hsender, hroom, by simpa using hprId, ?_, hts, hnonce⟩, rfl, rfl⟩
  cases verdict
  · exact .inl rfl
  · exact .inr rfl

theorem publishSigned_admitted {env : Env} {input : PublishInput} {payload : JsonValue}
    {pending : PendingSignature} {s s' : ServiceState C} (huuid : FreeText env.randomUUID)
    (hhash : ∀ text, (R.platform.sha256Hex text).toList.all isHexChar = true)
    (hheader : '\n' ∉ (request.headerTrim "x-relay-nonce").toList)
    (htopic : isValidTopic input.topic = true)
    (h : (publishSigned R request env).run s = (.ok (input, payload, some pending), s')) :
    ∃ x, (SignedOperation.publish x).Admitted ∧ buildPublishSigningMessage x = pending.message ∧
      x.sender = input.sender ∧ x.room = input.room ∧ x.id = input.id := by
  obtain ⟨arrived, s1, h1, k1⟩ := Proc.bind_ok h
  obtain ⟨-, hsender, hroom, -⟩ := publishArrive_ok h1
  have hid : FreeText arrived.id := publishArrive_id huuid h1
  obtain ⟨⟨payload', pending'⟩, s2, h2, k2⟩ := Proc.bind_ok k1
  obtain ⟨_, s3, -, k3⟩ := Proc.bind_ok k2
  cases k3
  rcases publishBegin_ok h2 with ⟨hnone, -, -⟩ | ⟨auth, hheaders, hpending, -, -, -⟩
  · cases hnone
  · cases hpending
    obtain ⟨hnonce, hts⟩ := headerNonce_of_headers hheader hheaders
    exact ⟨⟨input.sender, input.room, input.id, input.topic, auth.timestampSec, auth.nonce,
      R.platform.sha256Hex (canonicalizeJson R.platform payload)⟩,
      ⟨hsender, hroom, hid, htopic, hts, hnonce, hhash _⟩, rfl, rfl, rfl, rfl⟩

end

end BitRelay
