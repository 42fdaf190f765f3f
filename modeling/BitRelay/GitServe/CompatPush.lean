import BitRelay.GitServe.RefScan

/-!
# Pushes accepted for a host that takes none

When the host refuses a push, the relay answers for it if all refs that it finds in
the body are incoming refs, and reports `ok` for each of them. The body is a list of
commands in pkt-lines, a flush and a pack; the relay does not read it as such.

Results:
1. `incomingNames_bytes`: what the relay finds in a body, command by command.
2. `compat_accepts_exactly_iff`: the bodies for which the report is right.
-/

namespace BitRelay

/-! ## The body of a push -/

/-- `0-9a-f` -/
def isHexByte (b : UInt8) : Bool :=
  (decide (0x30 ≤ b.toNat) && decide (b.toNat ≤ 0x39)) ||
    (decide (0x61 ≤ b.toNat) && decide (b.toNat ≤ 0x66))

/-- The hex form of an object id, of SHA-1 or SHA-256. -/
def isObjectId (id : Bytes) : Bool := (id.length == 40 || id.length == 64) && id.all isHexByte

/-- A part of a ref name between slashes: it does not start with a dot or end with `.lock`. -/
def isRefComponent (part : Bytes) : Bool :=
  !part.isEmpty && !(textEncode ".").isPrefixOf part && !(textEncode ".lock").isSuffixOf part

/-- A byte that a ref name may have: no control character, no space, none of `~^:?*[\` and no
`DEL`. -/
def isRefNameByte (b : UInt8) : Bool :=
  decide (0x20 < b.toNat) && b != 0x7f && !(textEncode "~^:?*[\\").contains b

/-- `git check-ref-format` -/
def isLegalRefName (ref : Bytes) : Bool :=
  let parts := ref.splitOn 0x2f
  decide (2 ≤ parts.length) && parts.all isRefComponent && ref.all isRefNameByte &&
    !ref.tails.any (fun rest => (textEncode "..").isPrefixOf rest) &&
    !ref.tails.any (fun rest => (textEncode "@\x7b").isPrefixOf rest) &&
    !(textEncode ".").isSuffixOf ref

/-- The command to update a ref; the first one of a push has the capabilities behind a `NUL`, and
the line may end with a line feed. -/
structure RefUpdate where
  oldId : Bytes
  newId : Bytes
  ref : Bytes
  capabilities : Option Bytes
  newline : Bool
  ids : isObjectId oldId = true ∧ isObjectId newId = true
  legal : isLegalRefName ref = true

namespace RefUpdate

/-- What stands behind the ref. -/
def tail (u : RefUpdate) : Bytes :=
  (u.capabilities.map fun capabilities => 0x00 :: capabilities).getD [] ++
    if u.newline then [0x0a] else []

def payload (u : RefUpdate) : Bytes :=
  u.oldId ++ 0x20 :: u.newId ++ 0x20 :: u.ref ++ u.tail

end RefUpdate

def hexByte (n : Nat) : UInt8 := if n < 10 then .ofNat (0x30 + n) else .ofNat (0x57 + n)

/-- The length of a pkt-line, itself included. -/
def pktLength (n : Nat) : Bytes :=
  [n / 4096 % 16, n / 256 % 16, n / 16 % 16, n % 16].map hexByte

/-- What stands before the ref and its space. -/
def RefUpdate.intro (u : RefUpdate) : Bytes :=
  pktLength (u.payload.length + 4) ++ u.oldId ++ 0x20 :: u.newId

def flushPkt : Bytes := textEncode "0000"

/-- A well-formed body: commands, a flush, and any bytes. -/
structure ReceivePackRequest where
  commands : List RefUpdate
  pack : Bytes
  commands_ne : commands ≠ []

/-- A ref of a body, and the bytes from there up to the space before the next ref. -/
structure RefSegment where
  ref : Bytes
  behind : Bytes
  deriving DecidableEq

namespace ReceivePackRequest

def bytes (q : ReceivePackRequest) : Bytes :=
  (q.commands.flatMap fun u => pktLength (u.payload.length + 4) ++ u.payload) ++ flushPkt ++ q.pack

def refs (q : ReceivePackRequest) : List Bytes := q.commands.map RefUpdate.ref

def segmentsFrom (pack : Bytes) : List RefUpdate → List RefSegment
  | [] => []
  | [u] => [⟨u.ref, u.tail ++ flushPkt ++ pack⟩]
  | u :: v :: rest => ⟨u.ref, u.tail ++ v.intro⟩ :: segmentsFrom pack (v :: rest)

def segments (q : ReceivePackRequest) : List RefSegment := segmentsFrom q.pack q.commands

end ReceivePackRequest

namespace RefSegment

/-- The bytes of the alphabet that follow the ref at once: the relay takes them for a part of it. -/
def runOn (s : RefSegment) : Bytes := s.behind.takeWhile isRefByte

/-- What the relay reads where the ref stands. -/
def readNames (s : RefSegment) : List Bytes := incomingNames (s.ref ++ s.runOn)

/-- What it finds behind that: in capabilities, or in the pack. -/
def strayNames (s : RefSegment) : List Bytes := incomingNames (s.behind.dropWhile isRefByte)

end RefSegment

/-! ## What is found in a body -/

namespace CompatLemmas

theorem isRefByte_space : isRefByte 0x20 = false := by decide

theorem refMatches_of_notMem {p : Char} {pre cs : List Char} (h : p ∉ cs) (k : Nat) :
    refMatches (p :: pre) k cs = [] := by
  induction cs generalizing k with
  | nil => cases k <;> rfl
  | cons c rest ih =>
    have hrest : p ∉ rest := fun hmem => h (List.mem_cons_of_mem c hmem)
    cases k with
    | succ k => exact ih hrest k
    | zero =>
      have hne : (p == c) = false := by
        rw [beq_eq_false_iff_ne]
        rintro rfl
        exact h List.mem_cons_self
      rw [refMatches]
      simp only [List.isPrefixOf, hne, Bool.false_and, Bool.false_eq_true, false_and, if_false]
      exact ih hrest 0

/-- Hexadecimal digits and spaces make no name. -/
theorem incomingNames_hex {bytes : Bytes}
    (h : ∀ b ∈ bytes, isHexByte b = true ∨ b = 0x20) : incomingNames bytes = [] := by
  unfold incomingNames
  rw [show INCOMING_PREFIX = 'r' :: "efs/relay/incoming/".toList by decide,
    refMatches_of_notMem, List.map_nil]
  intro hmem
  obtain ⟨b, hb, hchar⟩ := List.mem_map.mp hmem
  have hcode : b.toNat = 0x72 := by
    rw [← RefScanLemmas.toNat_byteChar b, hchar]
    rfl
  rcases h b hb with hhex | rfl
  · simp only [isHexByte, hcode] at hhex
    exact absurd hhex (by decide)
  · exact absurd hcode (by decide)

theorem isHexByte_hexByte {n : Nat} (h : n < 16) : isHexByte (hexByte n) = true := by
  have hall : ∀ m : Fin 16, isHexByte (hexByte m.val) = true := by decide
  exact hall ⟨n, h⟩

theorem hex_of_isObjectId {id : Bytes} (h : isObjectId id = true) :
    ∀ b ∈ id, isHexByte b = true := by
  rw [isObjectId, Bool.and_eq_true, List.all_eq_true] at h
  exact h.2

theorem incomingNames_intro (u : RefUpdate) : incomingNames u.intro = [] := by
  refine incomingNames_hex fun b hb => ?_
  rcases List.mem_append.mp hb with hb | hb
  · rcases List.mem_append.mp hb with hb | hb
    · obtain ⟨n, hn, rfl⟩ := List.mem_map.mp hb
      refine .inl (isHexByte_hexByte ?_)
      simp only [List.mem_cons, List.not_mem_nil, or_false] at hn
      omega
    · exact .inl (hex_of_isObjectId u.ids.1 b hb)
  · rcases List.mem_cons.mp hb with rfl | hb
    · exact .inr rfl
    · exact .inl (hex_of_isObjectId u.ids.2 b hb)

/-- Before the ref of the first command nothing is found. -/
theorem incomingNames_first (u : RefUpdate) (after : Bytes) :
    incomingNames (u.intro ++ 0x20 :: (u.ref ++ after)) = incomingNames (u.ref ++ after) := by
  rw [incomingNames_split isRefByte_space, incomingNames_intro, List.nil_append]

theorem line_eq (u : RefUpdate) (after : Bytes) :
    pktLength (u.payload.length + 4) ++ u.payload ++ after =
      u.intro ++ 0x20 :: (u.ref ++ (u.tail ++ after)) := by
  unfold RefUpdate.intro
  generalize pktLength (u.payload.length + 4) = digits
  unfold RefUpdate.payload
  simp only [List.append_assoc, List.cons_append]

theorem incomingNames_commands (pack : Bytes) (u : RefUpdate) (rest : List RefUpdate) :
    incomingNames (((u :: rest).flatMap fun u => pktLength (u.payload.length + 4) ++ u.payload) ++
      flushPkt ++ pack) =
      (ReceivePackRequest.segmentsFrom pack (u :: rest)).flatMap fun s =>
        s.readNames ++ s.strayNames := by
  induction rest generalizing u with
  | nil =>
    rw [List.flatMap_singleton, List.append_assoc, line_eq, incomingNames_first,
      ← List.append_assoc u.tail, incomingNames_behind]
    exact (List.append_nil _).symm
  | cons v rest ih =>
    have hnext := ih v
    rw [List.flatMap_cons, List.append_assoc, List.append_assoc, line_eq, incomingNames_first]
      at hnext ⊢
    rw [List.flatMap_cons, List.append_assoc, line_eq, ← List.append_assoc u.tail,
      ← List.append_assoc, incomingNames_split isRefByte_space, hnext, incomingNames_behind]
    rfl

end CompatLemmas

open CompatLemmas

/-- What the relay finds in a body is what it reads where the refs stand, and the strays. -/
theorem incomingNames_bytes (q : ReceivePackRequest) :
    incomingNames q.bytes = q.segments.flatMap fun s => s.readNames ++ s.strayNames := by
  obtain ⟨commands, pack, hne⟩ := q
  cases commands with
  | nil => exact absurd rfl hne
  | cons u rest => exact incomingNames_commands pack u rest

/-! ## When the report is right -/

namespace GitServe

/-- The host answers that it takes no pushes. -/
def RefusesReceivePack (H : GitServeHost) (parts : ResponseParts) : Prop :=
  parts.status = .ofNat 403 ∧ isReceivePackDisabledBody H parts.body = true

/-- The push has incoming refs only, and the report says `ok` to each of them and to nothing
else. -/
structure AcceptsExactly (q : ReceivePackRequest) (pending : PendingGitRequest)
    (report : ResponseParts) : Prop where
  incoming : ∀ ref ∈ q.refs, textEncode "refs/relay/incoming/" <+: ref
  body : report.body = some (buildReceivePackResultBody pending.incomingRefs)
  listed : ∀ ref, ref ∈ pending.incomingRefs.map textEncode ↔ ref ∈ q.refs

/-- The ref runs on into what follows, but what is read there is another ref of the push, and the
ref itself is found elsewhere. -/
structure ReadElsewhere (q : ReceivePackRequest) (s : RefSegment) : Prop where
  runs_on : s.runOn ≠ []
  read : ∀ name ∈ s.readNames, name ∈ q.refs
  found : ∃ s' ∈ q.segments, s.ref ∈ s'.readNames ++ s'.strayNames

/-- Each ref is made for the pattern and ends where its alphabet does, and no other name is
found. -/
structure ReadsExactly (q : ReceivePackRequest) : Prop where
  reportable : ∀ ref ∈ q.refs, Reportable ref
  ends : ∀ s ∈ q.segments, s.runOn = [] ∨ ReadElsewhere q s
  strays : ∀ s ∈ q.segments, ∀ name ∈ s.strayNames, name ∈ q.refs

end GitServe

namespace CompatLemmas

theorem map_ref_segmentsFrom (pack : Bytes) (commands : List RefUpdate) :
    (ReceivePackRequest.segmentsFrom pack commands).map RefSegment.ref =
      commands.map RefUpdate.ref := by
  induction commands with
  | nil => rfl
  | cons u rest ih =>
    cases rest with
    | nil => rfl
    | cons v rest => exact congrArg (List.cons u.ref) ih

theorem mem_refs_iff {q : ReceivePackRequest} {ref : Bytes} :
    ref ∈ q.refs ↔ ∃ s ∈ q.segments, s.ref = ref := by
  rw [ReceivePackRequest.refs, ← map_ref_segmentsFrom q.pack, List.mem_map]
  rfl

theorem mem_incomingNames_bytes {q : ReceivePackRequest} {name : Bytes} :
    name ∈ incomingNames q.bytes ↔ ∃ s ∈ q.segments, name ∈ s.readNames ++ s.strayNames := by
  rw [incomingNames_bytes, List.mem_flatMap]

/-- Where nothing runs on, a ref is read as it is. -/
theorem readNames_of_ends {s : RefSegment} (href : Reportable s.ref) (hends : s.runOn = []) :
    s.readNames = [s.ref] := by
  unfold RefSegment.readNames
  rw [hends, List.append_nil]
  exact incomingNames_whole href

/-- The names found in a body are the refs of its commands exactly when each is read right. -/
theorem readsExactly_iff {q : ReceivePackRequest} :
    (∀ ref, ref ∈ incomingNames q.bytes ↔ ref ∈ q.refs) ↔ GitServe.ReadsExactly q := by
  constructor
  · intro h
    have hread : ∀ s ∈ q.segments, ∀ name ∈ s.readNames ++ s.strayNames, name ∈ q.refs :=
      fun s hs name hname => (h name).mp (mem_incomingNames_bytes.mpr ⟨s, hs, hname⟩)
    refine ⟨fun ref href => reportable_of_mem ((h ref).mpr href), fun s hs => ?_,
      fun s hs name hname => hread s hs name (List.mem_append_right _ hname)⟩
    have hfound := (h s.ref).mpr (mem_refs_iff.mpr ⟨s, hs, rfl⟩)
    by_cases hends : s.runOn = []
    · exact .inl hends
    exact .inr ⟨hends, fun name hname => hread s hs name (List.mem_append_left _ hname),
      mem_incomingNames_bytes.mp hfound⟩
  · rintro ⟨hreportable, hends, hstrays⟩ ref
    rw [mem_incomingNames_bytes]
    constructor
    · rintro ⟨s, hs, hname⟩
      rcases List.mem_append.mp hname with hname | hname
      · have href : s.ref ∈ q.refs := mem_refs_iff.mpr ⟨s, hs, rfl⟩
        rcases hends s hs with hend | helse
        · rw [readNames_of_ends (hreportable s.ref href) hend, List.mem_singleton] at hname
          exact hname ▸ href
        · exact helse.read ref hname
      · exact hstrays s hs ref hname
    · intro href
      obtain ⟨s, hs, rfl⟩ := mem_refs_iff.mp href
      rcases hends s hs with hend | helse
      · refine ⟨s, hs, List.mem_append_left _ ?_⟩
        rw [readNames_of_ends (hreportable s.ref href) hend]
        exact List.mem_singleton.mpr rfl
      · exact helse.found

end CompatLemmas

namespace GitServe

/-- The pathname of a push, whatever its query. -/
theorem splitPath_receivePack (query : List (String × String)) :
    (splitPath ("/git-receive-pack" ++ searchOf query)).1 = "/git-receive-pack" :=
  splitPath_searchOf (by decide) query

section
variable {H : GitServeHost} {call now timeoutId : Nat} {request : Request} {q : ReceivePackRequest}

/-- The queue entry of a push. -/
def pendingPush (H : GitServeHost) (call now timeoutId : Nat) (request : Request)
    (q : ReceivePackRequest) : PendingGitRequest :=
  pendingGitRequest H call now request "/git-receive-pack" (some q.bytes) timeoutId

theorem pendingPush_incomingRefs :
    (pendingPush H call now timeoutId request q).incomingRefs = extractIncomingRefs q.bytes := by
  have hpacked : endsWith "/git-receive-pack" "/git-receive-pack" = true := by decide
  simp only [pendingPush, pendingGitRequest, hpacked, if_true, Option.map_some, Option.getD_some]

theorem pendingPush_allRelayRefs :
    (pendingPush H call now timeoutId request q).allRelayRefs = extractAllRelayRefs q.bytes := by
  have hpacked : endsWith "/git-receive-pack" "/git-receive-pack" = true := by decide
  simp only [pendingPush, pendingGitRequest, hpacked, if_true, Option.map_some, Option.getD_some]

theorem isRpc_push :
    isReceivePackRpcPath (pendingPush H call now timeoutId request q).path = true := by
  have hpath := splitPath_receivePack
    (request.query.filter fun p => decide (p.1 ≠ "session_token"))
  unfold isReceivePackRpcPath
  simp only [pendingPush, pendingGitRequest, hpath]
  rfl

theorem not_infoRefs_push :
    isReceivePackInfoRefsPath (pendingPush H call now timeoutId request q).path = false := by
  have hpath := splitPath_receivePack
    (request.query.filter fun p => decide (p.1 ≠ "session_token"))
  unfold isReceivePackInfoRefsPath
  simp only [pendingPush, pendingGitRequest, hpath]
  rfl

variable (call now timeoutId request) in
/-- The answer to a refused push: the report if the push is taken for one of incoming refs, else the
refusal. -/
theorem compatParts_push {parts : ResponseParts} (hrefused : RefusesReceivePack H parts) :
    let pending := pendingPush H call now timeoutId request q
    (shouldCompatAcceptIncomingOnlyPush pending = true →
      (compatParts H pending parts).status = .ofNat 200 ∧
        (compatParts H pending parts).body =
          some (buildReceivePackResultBody pending.incomingRefs)) ∧
    (shouldCompatAcceptIncomingOnlyPush pending = false →
      (compatParts H pending parts).status ≠ .ofNat 200) := by
  intro pending
  have hdisabled : (parts.status == .ofNat 403 && isReceivePackDisabledBody H parts.body) = true := by
    rw [hrefused.1, hrefused.2]
    decide
  have hinfo : isReceivePackInfoRefsPath pending.path = false := not_infoRefs_push
  unfold compatParts
  simp only [hdisabled, hinfo, Bool.true_and, Bool.and_false, Bool.false_eq_true, if_false]
  constructor
  · intro haccept
    simp only [haccept, if_true]
    exact ⟨trivial, trivial⟩
  · intro haccept
    simp only [haccept, Bool.false_eq_true, if_false, hrefused.1]
    decide

/-- A refused push that the relay turns into a success is one of incoming refs, reported exactly, if
and only if the relay does not take it for one or reads each of its refs exactly. -/
theorem compat_accepts_exactly_iff (H : GitServeHost) (call now timeoutId : Nat) (request : Request)
    (q : ReceivePackRequest) (parts : ResponseParts) (hrefused : RefusesReceivePack H parts) :
    let pending := pendingPush H call now timeoutId request q
    ((compatParts H pending parts).status = .ofNat 200 →
      AcceptsExactly q pending (compatParts H pending parts)) ↔
      (shouldCompatAcceptIncomingOnlyPush pending = true → ReadsExactly q) := by
  intro pending
  have hrefs : ∀ ref, ref ∈ pending.incomingRefs.map textEncode ↔ ref ∈ incomingNames q.bytes := by
    intro ref
    rw [show pending.incomingRefs = extractIncomingRefs q.bytes from pendingPush_incomingRefs]
    exact mem_extractIncomingRefs
  obtain ⟨haccepted, hrejected⟩ := compatParts_push call now timeoutId request (q := q) hrefused
  constructor
  · intro h haccept
    have hexact := h (haccepted haccept).1
    exact readsExactly_iff.mp fun ref => (hrefs ref).symm.trans (hexact.listed ref)
  · intro h hstatus
    have haccept : shouldCompatAcceptIncomingOnlyPush pending = true := by
      cases hcase : shouldCompatAcceptIncomingOnlyPush pending with
      | true => rfl
      | false => exact absurd hstatus (hrejected hcase)
    have hreads := h haccept
    refine ⟨fun ref href => ?_, (haccepted haccept).2, fun ref =>
      (hrefs ref).trans (readsExactly_iff.mpr hreads ref)⟩
    obtain ⟨tail, rfl, -⟩ := hreads.reportable ref href
    exact List.prefix_append _ _

end

/-! ## A push of three refs -/

/-- An object id. -/
def pushId : Bytes := List.replicate 40 0x61

theorem isObjectId_pushId : isObjectId pushId = true := by decide

/-- A first command, with its capabilities. -/
def pushFirst : RefUpdate :=
  ⟨pushId, pushId, textEncode "refs/relay/incoming/a", some (textEncode "report-status"), false,
    ⟨isObjectId_pushId, isObjectId_pushId⟩, by decide⟩

/-- A push of one incoming ref. -/
def plainPush : ReceivePackRequest := ⟨[pushFirst], textEncode "PACK", List.cons_ne_nil _ _⟩

/-- A push of an incoming ref, of `refs/é`, and of another incoming ref. -/
def mixedPush : ReceivePackRequest where
  commands := [pushFirst,
    ⟨pushId, pushId, textEncode "refs/é", none, false, ⟨isObjectId_pushId, isObjectId_pushId⟩,
      by decide⟩,
    ⟨pushId, pushId, textEncode "refs/relay/incoming/b", none, false,
      ⟨isObjectId_pushId, isObjectId_pushId⟩, by decide⟩]
  pack := textEncode "PACK"
  commands_ne := List.cons_ne_nil _ _

/-- The host answers `403 receive-pack not enabled`. -/
def refusal : ResponseParts := ⟨.ofNat 403, ∅, some (textEncode RECEIVE_PACK_DISABLED_MESSAGE)⟩

theorem refusal_refuses : RefusesReceivePack toyHost refusal := ⟨rfl, by decide⟩

/-- The push of one incoming ref on the service's first call. -/
def plainPending : PendingGitRequest :=
  pendingPush toyHost 0 0 0 (.post "/git/git-receive-pack" [] [] ⟨"", none⟩) plainPush

theorem readsExactly_plainPush : ReadsExactly plainPush := by
  refine ⟨fun ref href => ?_, fun s hs => .inl ?_, fun s hs name hname => ?_⟩
  · obtain rfl := List.mem_singleton.mp href
    exact ⟨textEncode "a", by decide, by decide, by decide, by decide⟩
  · obtain rfl := List.mem_singleton.mp hs
    decide
  · obtain rfl := List.mem_singleton.mp hs
    have hnone : (RefSegment.mk pushFirst.ref (pushFirst.tail ++ flushPkt ++
        textEncode "PACK")).strayNames = [] := by decide
    change name ∈ (RefSegment.mk pushFirst.ref (pushFirst.tail ++ flushPkt ++
      textEncode "PACK")).strayNames at hname
    rw [hnone] at hname
    cases hname

/-- The push of one incoming ref is accepted, and the report on it is right. -/
theorem plain_push_exact :
    (compatParts toyHost plainPending refusal).status = .ofNat 200 ∧
      AcceptsExactly plainPush plainPending (compatParts toyHost plainPending refusal) := by
  have hstatus : (compatParts toyHost plainPending refusal).status = .ofNat 200 := by decide +kernel
  exact ⟨hstatus, (compat_accepts_exactly_iff toyHost 0 0 0 _ plainPush refusal
    refusal_refuses).mpr (fun _ => readsExactly_plainPush) hstatus⟩

/-- The relay accepts the push: it misses `refs/é`, and reports `ok` to a ref `b0000PACK` that the
push does not have. -/
theorem mixed_push_accepted :
    let pending := pendingPush toyHost 0 0 0 (.post "/git/git-receive-pack" [] [] ⟨"", none⟩) mixedPush
    (compatParts toyHost pending refusal).status = .ofNat 200 ∧
      pending.incomingRefs = ["refs/relay/incoming/a", "refs/relay/incoming/b0000PACK"] ∧
      textEncode "refs/é" ∈ mixedPush.refs ∧
      ¬ AcceptsExactly mixedPush pending (compatParts toyHost pending refusal) := by
  intro pending
  have hincoming : pending.incomingRefs =
      ["refs/relay/incoming/a", "refs/relay/incoming/b0000PACK"] := by
    rw [show pending.incomingRefs = extractIncomingRefs mixedPush.bytes from
      pendingPush_incomingRefs, extractIncomingRefs_eq]
    decide +kernel
  have hrelay : pending.allRelayRefs =
      ["refs/relay/incoming/a", "refs/relay/incoming/b0000PACK"] := by
    rw [show pending.allRelayRefs = extractAllRelayRefs mixedPush.bytes from
      pendingPush_allRelayRefs, extractAllRelayRefs_eq]
    decide +kernel
  have haccept : shouldCompatAcceptIncomingOnlyPush pending = true := by
    have hpath : isReceivePackRpcPath pending.path = true := isRpc_push
    unfold shouldCompatAcceptIncomingOnlyPush
    rw [hpath, hincoming, hrelay]
    decide
  have hmissed : textEncode "refs/é" ∈ mixedPush.refs := by decide
  refine ⟨((compatParts_push _ _ _ _ refusal_refuses).1 haccept).1, hincoming, hmissed, fun hexact => ?_⟩
  exact absurd (hexact.incoming _ hmissed) (by decide)

end GitServe

end BitRelay
