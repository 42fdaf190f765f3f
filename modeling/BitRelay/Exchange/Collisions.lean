import BitRelay.CanonicalJson
import BitRelay.Exchange.Records
import BitRelay.SigningMessages

/-!
# Collisions of envelopes

For an id that a room already has, `classifyCacheExchangeCollision` compares sender, topic, payload
and signature. It joins them with line feeds into one text and compares the texts. A topic and a
canonical payload are one line each; a sender and a signature may hold line feeds of their own. So
the sender of one envelope can take in the topic and the payload of the other one, if the signature
of that one has them as its lines.

Results:
1. `classifies_iff`: the classification is exact for two envelopes if and only if neither takes in
   lines of the other.
2. `classifies_of_lines`: it is exact where no sender holds a line feed.
3. `admitted_of_sound`, `admitted_envelope`: what the relay records, and what it compares with that.
-/

namespace BitRelay

/-- What every writer of the relay ensures of an envelope. -/
structure Envelope.Admitted (envelope : Envelope) : Prop where
  sender : FreeText envelope.sender
  topic : isValidTopic envelope.topic = true
  payload : envelope.payload.DistinctKeys
  signature : ∀ signature ∈ envelope.signature, FreeText signature

/-- The envelopes say the same. -/
structure Envelope.SaysSame (a b : Envelope) : Prop where
  sender : a.sender = b.sender
  topic : a.topic = b.topic
  payload : JsonValue.SameData a.payload.normalize b.payload.normalize
  signature : a.signature = b.signature

/-- Two envelopes count as duplicates if and only if they say the same. -/
def Classifies (P : Platform) (a b : Envelope) : Prop :=
  classifyCacheExchangeCollision P a b = .duplicate ↔ a.SaysSame b

/-- The sender of `b` takes in the topic of `a`, with or without the payload, and the signature of
`a` goes on with the other fields of `b`. -/
inductive TakesIn (P : Platform) (a b : Envelope) : Prop
  | topic (sender : b.sender = a.sender ++ "\n" ++ a.topic)
    (topic : b.topic = canonicalizeJson P a.payload)
    (signature : a.signature.getD "" =
      canonicalizeJson P b.payload ++ "\n" ++ b.signature.getD "")
  | payload (more : String)
    (sender : b.sender = a.sender ++ "\n" ++ a.topic ++ "\n" ++ canonicalizeJson P a.payload ++ more)
    (signature : "\n" ++ a.signature.getD "" = more ++ "\n" ++ b.topic ++ "\n" ++
      canonicalizeJson P b.payload ++ "\n" ++ b.signature.getD "")

namespace CollisionLemmas

open JsonData JsonData.TextLemmas SignedTextLemmas

variable {P : Platform} {a b : Envelope}

/-! ## A canonical text is one line -/

theorem newline_notMem_quoteChar (c : Char) : '\n' ∉ quoteChar c := by
  have hdigit : ∀ n < 16, '\n' ≠ hexDigit n := by
    intro n hn
    have hall : ((List.range 16).all fun n => decide ('\n' ≠ hexDigit n)) = true := by decide
    exact of_decide_eq_true (List.all_eq_true.mp hall n (List.mem_range.mpr hn))
  unfold quoteChar
  split
  · decide
  split
  · decide
  split
  · decide
  split
  · decide
  split
  · decide
  split
  · decide
  split
  · decide
  split
  · next hcontrol =>
    have hhigh := hdigit (c.toNat / 16) (by omega)
    have hlow := hdigit (c.toNat % 16) (by omega)
    simp [hhigh, hlow]
  · next hfeed _ _ _ =>
    rw [List.mem_singleton]
    exact fun heq => hfeed heq.symm

theorem newline_notMem_quoted (s : String) : '\n' ∉ quoted s := by
  unfold quoted
  rw [List.mem_append, List.mem_flatMap]
  rintro (⟨c, -, hc⟩ | hquote)
  · exact newline_notMem_quoteChar c hc
  · exact absurd hquote (by decide)

theorem newline_notMem_text (hP : P.RendersNumbers) (d : JsonData) : '\n' ∉ text P d := by
  induction d using JsonData.memInduction with
  | null =>
    rw [text]
    decide
  | bool b =>
    cases b <;> rw [text] <;> decide
  | num q => exact fun hmem => absurd (hP.token q '\n' hmem) (by decide)
  | str s =>
    rw [text, List.mem_cons, not_or]
    exact ⟨by decide, newline_notMem_quoted s⟩
  | arr items ih =>
    rw [arr_text, List.mem_cons, not_or]
    refine ⟨by decide, fun hmem => ?_⟩
    rcases DelimitedAt.mem_enclosed hmem with hsep | hclose | ⟨d, hd, hc⟩
    · exact absurd hsep (by decide)
    · exact absurd hclose (by decide)
    · exact ih d hd hc
  | obj fields ih =>
    rw [obj_text, List.mem_cons, not_or]
    refine ⟨by decide, fun hmem => ?_⟩
    rcases DelimitedAt.mem_enclosed hmem with hsep | hclose | ⟨e, he, hc⟩
    · exact absurd hsep (by decide)
    · exact absurd hclose (by decide)
    · rw [fieldText, List.cons_append, List.mem_cons, List.mem_append, List.mem_cons] at hc
      rcases hc with hquote | hkey | hcolon | hvalue
      · exact absurd hquote (by decide)
      · exact newline_notMem_quoted e.1 hkey
      · exact absurd hcolon (by decide)
      · exact ih e he hvalue

theorem newline_notMem_canonical (hP : P.RendersNumbers) (v : JsonValue) :
    '\n' ∉ (canonicalizeJson P v).toList := by
  rw [canonicalizeJson_data hP, String.toList_ofList]
  exact newline_notMem_text hP v.data

/-! ## The joined texts -/

/-- The lines behind the sender. -/
def tailText (P : Platform) (e : Envelope) : List Char :=
  e.topic.toList ++ '\n' :: ((canonicalizeJson P e.payload).toList ++
    '\n' :: (e.signature.getD "").toList)

theorem toList_envelopeCanonicalSignature (P : Platform) (e : Envelope) :
    (envelopeCanonicalSignature P e).toList = e.sender.toList ++ '\n' :: tailText P e := by
  unfold envelopeCanonicalSignature tailText
  rw [String.toList_intercalate]
  simp [List.intercalate]

theorem classify_duplicate_iff : classifyCacheExchangeCollision P a b = .duplicate ↔
    a.sender.toList ++ '\n' :: tailText P a = b.sender.toList ++ '\n' :: tailText P b := by
  rw [← toList_envelopeCanonicalSignature, ← toList_envelopeCanonicalSignature, String.toList_inj]
  unfold classifyCacheExchangeCollision
  split
  · next hsame => exact iff_of_true rfl hsame
  · next hne => exact iff_of_false (fun h => by cases h) hne

theorem signature_eq (ha : a.Admitted) (hb : b.Admitted)
    (h : a.signature.getD "" = b.signature.getD "") : a.signature = b.signature := by
  cases hsig : a.signature with
  | none =>
    cases hsig' : b.signature with
    | none => rfl
    | some s' =>
      rw [hsig, hsig'] at h
      exact absurd h.symm (hb.signature s' hsig').1
  | some s =>
    cases hsig' : b.signature with
    | none =>
      rw [hsig, hsig'] at h
      exact absurd h (ha.signature s hsig).1
    | some s' =>
      rw [hsig, hsig'] at h
      exact congrArg some h

/-- Envelopes that say the same have one text. -/
theorem duplicate_of_same (hP : P.RendersNumbers) (ha : a.Admitted) (h : a.SaysSame b) :
    classifyCacheExchangeCollision P a b = .duplicate := by
  rw [classify_duplicate_iff]
  unfold tailText
  rw [h.sender, h.topic, (canonicalizeJson_eq_iff hP ha.payload).mpr h.payload, h.signature]

/-- One text and one sender: the envelopes say the same. -/
theorem same_of_tail (hP : P.RendersNumbers) (ha : a.Admitted) (hb : b.Admitted)
    (hsender : a.sender = b.sender) (h : tailText P a = tailText P b) : a.SaysSame b := by
  obtain ⟨htopic, hrest⟩ := Lines.first_line_inj (newline_notMem_topic ha.topic)
    (newline_notMem_topic hb.topic) h
  obtain ⟨hpayload, hsignature⟩ := Lines.first_line_inj (newline_notMem_canonical hP a.payload)
    (newline_notMem_canonical hP b.payload) hrest
  exact ⟨hsender, String.toList_inj.mp htopic,
    (canonicalizeJson_eq_iff hP ha.payload).mp (String.toList_inj.mp hpayload),
    signature_eq ha hb (String.toList_inj.mp hsignature)⟩

/-- A text in which the sender of `b` is the longer one. -/
theorem takesIn_of_longer (hP : P.RendersNumbers) (ha : a.Admitted) (hb : b.Admitted)
    {y : List Char} (hsender : b.sender.toList = a.sender.toList ++ '\n' :: y)
    (h : tailText P a = y ++ '\n' :: tailText P b) : TakesIn P a b := by
  rcases Lines.first_line_cases (newline_notMem_topic ha.topic) h with ⟨rfl, hrest⟩ | ⟨y', rfl, hrest⟩
  · -- The sender ends with the topic.
    obtain ⟨htopic, hsignature⟩ := Lines.first_line_inj (newline_notMem_canonical hP a.payload)
      (newline_notMem_topic hb.topic) hrest
    refine .topic ?_ ?_ ?_
    · apply String.toList_inj.mp
      rw [hsender]
      simp
    · exact (String.toList_inj.mp htopic).symm
    · apply String.toList_inj.mp
      rw [hsignature]
      simp
  · rcases Lines.first_line_cases (newline_notMem_canonical hP a.payload) hrest with
      ⟨rfl, hsignature⟩ | ⟨more, rfl, hsignature⟩
    · -- The sender ends with the payload.
      refine .payload "" ?_ ?_
      · apply String.toList_inj.mp
        rw [hsender]
        simp
      · apply String.toList_inj.mp
        simp [hsignature, tailText]
    · -- The sender goes on with lines of the signature.
      refine .payload (String.ofList ('\n' :: more)) ?_ ?_
      · apply String.toList_inj.mp
        rw [hsender]
        simp
      · apply String.toList_inj.mp
        simp [hsignature, tailText]

/-- What takes in lines of another envelope has the same text and a longer sender. -/
theorem duplicate_of_takesIn (h : TakesIn P a b) :
    classifyCacheExchangeCollision P a b = .duplicate ∧ a.sender ≠ b.sender := by
  have hlonger : ∀ more : String, b.sender = a.sender ++ "\n" ++ more → a.sender ≠ b.sender := by
    intro more hsender heq
    have hlength := congrArg (fun s : String => s.toList.length) (heq.trans hsender)
    simp only [String.toList_append, List.length_append] at hlength
    have hfeed : ("\n" : String).toList.length = 1 := by decide
    omega
  rw [classify_duplicate_iff]
  cases h with
  | topic hsender htopic hsignature =>
    refine ⟨?_, hlonger a.topic hsender⟩
    unfold tailText
    rw [hsender, htopic, hsignature]
    simp
  | payload more hsender hsignature =>
    refine ⟨?_, hlonger (a.topic ++ "\n" ++ canonicalizeJson P a.payload ++ more) ?_⟩
    · have hlines := congrArg String.toList hsignature
      simp only [String.toList_append] at hlines
      unfold tailText
      rw [hsender]
      simp at hlines ⊢
      rw [hlines]
    · rw [hsender]
      simp only [String.append_assoc]

theorem classify_symm (h : classifyCacheExchangeCollision P a b = .duplicate) :
    classifyCacheExchangeCollision P b a = .duplicate :=
  classify_duplicate_iff.mpr (classify_duplicate_iff.mp h).symm

theorem distinctKeys_get? {v w : JsonValue} {key : String} (h : v.DistinctKeys)
    (hget : v.get? key = some w) : w.DistinctKeys := by
  cases v with
  | obj fields =>
    have hfields := h.2
    change fields.lookup key = some w at hget
    clear h
    induction fields with
    | nil => cases hget
    | cons e rest ih =>
      obtain ⟨k, v⟩ := e
      rw [List.lookup_cons] at hget
      cases hkey : key == k with
      | true =>
        rw [hkey] at hget
        cases hget
        exact hfields.1
      | false =>
        rw [hkey] at hget
        exact ih hfields.2 hget
  | null | bool _ | num _ | str _ | arr _ => cases hget

end CollisionLemmas

open CollisionLemmas

/-! ## Results -/

/-- The classification is exact for two envelopes if and only if neither takes in lines of the
other. -/
theorem classifies_iff {P : Platform} (hP : P.RendersNumbers) {a b : Envelope} (ha : a.Admitted)
    (hb : b.Admitted) : Classifies P a b ↔ ¬ TakesIn P a b ∧ ¬ TakesIn P b a := by
  constructor
  · intro hexact
    constructor
    · intro htakes
      obtain ⟨hduplicate, hsender⟩ := duplicate_of_takesIn htakes
      exact hsender (hexact.mp hduplicate).sender
    · intro htakes
      obtain ⟨hduplicate, hsender⟩ := duplicate_of_takesIn htakes
      exact hsender (hexact.mp (classify_symm hduplicate)).sender.symm
  · rintro ⟨hnot, hnot'⟩
    refine ⟨fun hduplicate => ?_, duplicate_of_same hP ha⟩
    -- One of the senders starts the other one.
    rcases List.append_eq_append_iff.mp (classify_duplicate_iff.mp hduplicate) with
      ⟨x, hsender, htail⟩ | ⟨x, hsender, htail⟩
    · cases x with
      | nil =>
        rw [List.append_nil] at hsender
        exact same_of_tail hP ha hb (String.toList_inj.mp hsender.symm)
          (List.tail_eq_of_cons_eq htail)
      | cons c y =>
        have hfeed : '\n' = c := List.head_eq_of_cons_eq htail
        subst hfeed
        exact absurd (takesIn_of_longer hP ha hb hsender (List.tail_eq_of_cons_eq htail)) hnot
    · cases x with
      | nil =>
        rw [List.append_nil] at hsender
        exact same_of_tail hP ha hb (String.toList_inj.mp hsender)
          (List.tail_eq_of_cons_eq htail).symm
      | cons c y =>
        have hfeed : '\n' = c := List.head_eq_of_cons_eq htail
        subst hfeed
        exact absurd (takesIn_of_longer hP hb ha hsender (List.tail_eq_of_cons_eq htail)) hnot'

/-- The sender of the second envelope is the first one's sender, topic and payload. -/
def signatureLines : Envelope := ⟨"main", "m1", "a", "notify", .null, some "notify\nnull\ns"⟩

def senderLines : Envelope := ⟨"main", "m1", "a\nnotify\nnull", "notify", .null, some "s"⟩

theorem admitted_signatureLines : signatureLines.Admitted where
  sender := by decide
  topic := by decide
  payload := trivial
  signature := by
    intro signature hsignature
    rw [← Option.some.inj hsignature]
    decide

theorem admitted_senderLines : senderLines.Admitted where
  sender := by decide
  topic := by decide
  payload := trivial
  signature := by
    intro signature hsignature
    rw [← Option.some.inj hsignature]
    decide

theorem classifies_iff_lines : Classifies .fractions signatureLines senderLines ↔
    ¬ TakesIn .fractions signatureLines senderLines ∧
      ¬ TakesIn .fractions senderLines signatureLines :=
  classifies_iff FractionLemmas.rendersNumbers_fractions admitted_signatureLines
    admitted_senderLines

/-- Two envelopes of one room and id that differ in sender and signature count as duplicates. -/
theorem classifies_different : ¬ ∀ (P : Platform) (a b : Envelope), P.RendersNumbers →
    a.Admitted → b.Admitted → a.room = b.room → a.id = b.id → Classifies P a b := by
  intro h
  have hexact := h .fractions signatureLines senderLines FractionLemmas.rendersNumbers_fractions
    admitted_signatureLines admitted_senderLines rfl rfl
  exact absurd (hexact.mp (by decide)).sender (by decide)

/-- Senders of one line each are told apart. -/
theorem classifies_of_lines {P : Platform} (hP : P.RendersNumbers) {a b : Envelope}
    (ha : a.Admitted) (hb : b.Admitted) (hline : '\n' ∉ a.sender.toList)
    (hline' : '\n' ∉ b.sender.toList) : Classifies P a b := by
  have hfeed : ∀ {e e' : Envelope}, '\n' ∉ e'.sender.toList → ¬ TakesIn P e e' := by
    intro e e' hnot htakes
    cases htakes with
    | topic hsender _ _ =>
      rw [hsender] at hnot
      simp at hnot
    | payload more hsender _ =>
      rw [hsender] at hnot
      simp at hnot
  exact (classifies_iff hP ha hb).mpr ⟨hfeed hline', hfeed hline⟩

/-- What the relay has recorded is admitted, if its payload is from `JSON.parse`. -/
theorem admitted_of_sound {record : CacheExchangeRecord} (h : record.Sound)
    (hpayload : record.envelope.payload.DistinctKeys) : record.envelope.Admitted :=
  ⟨h.sender, h.topic, hpayload, h.signature⟩

/-- What a push compares with it is admitted too. -/
theorem admitted_envelope {incoming : IncomingExchangeEntry} {value : JsonValue}
    {defaultMaxHops : Nat} (h : incoming.ReadFrom value defaultMaxHops)
    (htopic : isValidTopic incoming.topic = true) (hvalue : value.DistinctKeys) :
    incoming.envelope.Admitted where
  sender := by
    obtain ⟨raw, -, hraw, hne⟩ := asString_eq_some_iff.mp h.sender
    have htrimmed : Trimmed incoming.sender := hraw ▸ trimmed_trim raw
    exact ⟨hne, htrimmed⟩
  topic := htopic
  payload := distinctKeys_get? hvalue h.payload
  signature := by
    intro signature hsignature
    have hread := h.signature.trans hsignature
    obtain ⟨raw, -, hraw, hne⟩ := asString_eq_some_iff.mp hread
    have htrimmed : Trimmed signature := hraw ▸ trimmed_trim raw
    exact ⟨hne, htrimmed⟩

end BitRelay
