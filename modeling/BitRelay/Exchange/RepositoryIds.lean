import BitRelay.Lib.Fields
import BitRelay.Service.State

/-!
# Repository ids

The id of a repository can be written as a path, a URL, in the form of `scp` or with a known
prefix (`repository_affinity.ts`, and the repository options of `memory_handler.ts`). It is
normalised to `owner/name`, and what was normalised is normalised again wherever it is read.

Results:
1. `normalizeToken_lower`, `pathSegments_join`, `parseRepositoryDescriptor_join`: a normalised id
   is parsed into its own tokens, but for a suffix `.git` of its name.
2. `normalizeRepositoryId_join`: one more normalisation cuts one more `.git` off.
-/

namespace BitRelay

/-! ## Tokens -/

structure RepositoryDescriptor where
  host : Option String
  owner : Option String
  name : String
  deriving DecidableEq

structure RelayRepositoryIdentity where
  repoId : Option String
  owner : Option String
  name : Option String
  recentCommits : List String
  deriving DecidableEq

/-- The parts of a parsed URL that are used. -/
structure UrlParts where
  hostname : String
  pathname : String

def DEFAULT_COMMIT_WINDOW : Nat := 30

/-- `COMMIT_HASH_PATTERN` -/
def isCommitHash (s : String) : Bool :=
  decide (7 ≤ s.length) && decide (s.length ≤ 40) &&
    s.toList.all fun c => c.isDigit || c.toLower ∈ ['a', 'b', 'c', 'd', 'e', 'f']

/-- `REPOSITORY_TOKEN_PATTERN` -/
def isRepositoryToken (s : String) : Bool := decide (s ≠ "") && s.toList.all isNameChar

def normalizeOptionalString (raw : Option String) : Option String :=
  raw.bind fun s => if trim s ≠ "" then some (trim s) else none

def normalizeCommitWindow (raw : Option JsNumber) : Nat :=
  match raw with
  | some (.finite q) => if 0 < q.num then max 1 (q.num.tdiv q.den).toNat else DEFAULT_COMMIT_WINDOW
  | _ => DEFAULT_COMMIT_WINDOW

section
variable (P : Platform) (parseUrl : String → Option UrlParts)

def normalizeToken (raw : Option String) : Option String :=
  (normalizeOptionalString raw).bind fun value =>
    if isRepositoryToken value then some (P.toLowerCase value) else none

/-! ## Repository ids -/

/-- Cut a known scheme of its own off: `github:owner/name`. -/
def stripKnownPrefix (raw : String) : String :=
  let front := splitFirst raw ':'
  if includes raw "://" ∨ startsWith raw "git@" then raw
  else if ':' ∉ raw.toList ∨ front = "" then raw
  else if P.toLowerCase (trim front) ∈ ["github", "gitlab", "repo"] then
    sliceFrom raw (front.length + 1)
  else raw

/-- Drop the slashes at both ends. -/
def trimSlashes (l : List Char) : List Char :=
  ((l.dropWhile (· == '/')).reverse.dropWhile (· == '/')).reverse

/-- The nonempty segments of a path. -/
def pathSegments (pathRaw : String) : List String :=
  (((trimSlashes (trim pathRaw).toList).splitOn '/').filter (· ≠ [])).map String.ofList

/-- `s.endsWith('.git') ? s.slice(0, -4) : s` -/
def stripGitSuffix (s : String) : String :=
  if endsWith s ".git" then String.ofList (s.toList.take (s.length - 4)) else s

def parseOwnerAndName (pathRaw : String) : Option (Option String × String) := do
  let segments := pathSegments pathRaw
  let last ← segments.getLast?
  let name ← normalizeToken P (some (stripGitSuffix last))
  return (segments.dropLast.getLast?.bind fun owner => normalizeToken P (some owner), name)

/-- A `.` of a regular expression does not match these. -/
def isLineTerminator (c : Char) : Bool :=
  c == '\n' || c == '\r' || c == '\u2028' || c == '\u2029'

/-- `/^[^@]+@([^:]+):(.+)$/` -/
def parseScpLike (raw : String) : Option (Option String × String) :=
  let user := splitFirst raw '@'
  let rest := sliceFrom raw (user.length + 1)
  let host := splitFirst rest ':'
  let path := sliceFrom rest (host.length + 1)
  if '@' ∉ raw.toList ∨ user = "" then none
  else if ':' ∉ rest.toList ∨ host = "" then none
  else if path = "" ∨ path.toList.any isLineTerminator then none
  else if trim path = "" then none
  else some (normalizeToken P (some host), trim path)

def parseAsUrl (raw : String) : Option (Option String × String) :=
  (parseUrl raw).map fun parsed => (normalizeToken P (some parsed.hostname), parsed.pathname)

/-- The host and the path of an id: `user@host:path`, a URL or a path alone. -/
def locateRepository (raw : String) : Option String × String :=
  match parseScpLike P raw with
  | some scpLike => scpLike
  | none =>
    match parseAsUrl P parseUrl raw with
    | some asUrl => asUrl
    | none => (none, raw)

def parseRepositoryDescriptor (raw : String) : Option RepositoryDescriptor := do
  let trimmed ← normalizeOptionalString (some raw)
  let located := locateRepository P parseUrl (stripKnownPrefix P trimmed)
  let parsed ← parseOwnerAndName P located.2
  return { host := located.1, owner := parsed.1, name := parsed.2 }

/-- `owner/name`, or the name alone. -/
def joinRepositoryId (owner : Option String) (name : String) : String :=
  if owner.getD "" = "" then name else owner.getD "" ++ "/" ++ name

def normalizeRepositoryId (raw : Option String) : Option String :=
  (parseRepositoryDescriptor P parseUrl (raw.getD "")).map fun descriptor =>
    joinRepositoryId descriptor.owner descriptor.name

def parseRepoNameFromRepoId (repoId : Option String) : Option String × Option String :=
  match repoId.bind (parseRepositoryDescriptor P parseUrl) with
  | none => (none, none)
  | some descriptor => (descriptor.owner, some descriptor.name)

/-! ## Commits -/

/-- The loop of `normalizeCommitHashes`. -/
def collectCommits (limit : Nat) : List String → List String → List String
  | [], out => out
  | entry :: rest, out =>
    let normalized := ((normalizeOptionalString (some entry)).map P.toLowerCase).getD ""
    if normalized = "" ∨ isCommitHash normalized = false ∨ normalized ∈ out then
      collectCommits limit rest out
    else if limit ≤ (out ++ [normalized]).length then out ++ [normalized]
    else collectCommits limit rest (out ++ [normalized])

def normalizeCommitHashes (raw : List String) (limit : Nat) : List String :=
  collectCommits P limit raw []

/-- `typeof value === 'string' ? value : null` -/
def stringOrNull (value : Option JsonValue) : Option String :=
  match value with
  | some (.str s) => some s
  | _ => none

def parseRecentCommits (value : Option JsonValue) (limit : Nat) : List String :=
  match value with
  | some (.arr items) =>
    normalizeCommitHashes P (items.filterMap fun item => stringOrNull (some item)) limit
  | _ => []

/-- The commits of `git rev-list`, split at whitespace. -/
def parseCommitLines (raw : Option String) (limit : Nat) : List String :=
  normalizeCommitHashes P (((splitRuns isJsSpace (raw.getD "").toList).map String.ofList).filter
    (· ≠ "")) limit

def hasRecentFastForwardLikeOverlap (localRecentCommits peerRecentCommits : List String) : Bool :=
  let localSet := localRecentCommits.map P.toLowerCase
  let peerSet := peerRecentCommits.map P.toLowerCase
  if localSet = [] ∨ peerSet = [] then false
  else
    localSet.head?.any (fun head => head ≠ "" && peerSet.contains head) ||
      peerSet.head?.any (fun head => head ≠ "" && localSet.contains head) ||
      localSet.any peerSet.contains

/-! ## The repository of a relay -/

structure ResolveLocalRepositoryIdentityOptions where
  explicitRepoId : Option String
  explicitOriginUrl : Option String
  explicitRecentCommits : Option (List String)
  commitWindow : Option JsNumber
  /-- the answer of `git config --get remote.origin.url` -/
  gitOrigin : Option String
  /-- the answer of `git rev-list` -/
  gitRevList : Option String

def resolveLocalRepositoryIdentity (options : ResolveLocalRepositoryIdentityOptions) :
    RelayRepositoryIdentity :=
  let commitWindow := normalizeCommitWindow options.commitWindow
  let explicitRepoId := normalizeOptionalString options.explicitRepoId
  let explicitOriginUrl := normalizeOptionalString options.explicitOriginUrl
  let explicit := explicitRepoId.bind (parseRepositoryDescriptor P parseUrl)
  let origin := explicitOriginUrl.or options.gitOrigin
  let descriptor := explicit.or (origin.bind (parseRepositoryDescriptor P parseUrl))
  let repoId := (normalizeRepositoryId P parseUrl explicitRepoId).or
    (descriptor.map fun d => joinRepositoryId d.owner d.name)
  let fromOptions := normalizeCommitHashes P (options.explicitRecentCommits.getD []) commitWindow
  let recentCommits :=
    if fromOptions = [] then parseCommitLines P options.gitRevList commitWindow else fromOptions
  let parsedFromId := parseRepoNameFromRepoId P parseUrl repoId
  { repoId
    owner := (descriptor.bind RepositoryDescriptor.owner).or parsedFromId.1
    name := (descriptor.map RepositoryDescriptor.name).or parsedFromId.2
    recentCommits }

structure RepositoryOptions where
  repositoryId : Option String
  repositoryOwner : Option String
  repositoryName : Option String
  repositoryRecentCommits : Option (List String)

/-- The options of a relay that is started with the identity. -/
def RelayRepositoryIdentity.options (identity : RelayRepositoryIdentity) : RepositoryOptions where
  repositoryId := identity.repoId
  repositoryOwner := identity.owner
  repositoryName := identity.name
  repositoryRecentCommits := some identity.recentCommits

/-- Drop a leading `/^github:/i`, if the text has one. -/
def stripGithub (s : String) : String :=
  if (s.toList.take 7).map Char.toLower = "github:".toList then sliceFrom s 7 else s

def normalizeRepositoryToken (raw : Option String) : Option String :=
  let value := P.toLowerCase (trim (raw.getD ""))
  if value = "" then none
  else if value.toList.all isLowerNameChar then some value else none

/-- The loop of `normalizeRepositoryCommits`. -/
def dedupeCommits : List String → List String → List String
  | [], out => out
  | value :: rest, out =>
    let normalized := P.toLowerCase (trim value)
    if isCommitHash normalized = false then dedupeCommits rest out
    else
      let out := if normalized ∈ out then out else out ++ [normalized]
      if 30 ≤ out.length then out else dedupeCommits rest out

def normalizeRepositoryCommits (raw : Option (List String)) : List String :=
  dedupeCommits P (raw.getD []) []

def parseOwnerNameFromRepositoryId (repoId : String) : Option String × Option String :=
  let cleaned := stripGitSuffix (stripGithub (trim repoId))
  let segments := ((cleaned.toList.splitOn '/').map fun entry => trim (String.ofList entry)).filter
    (· ≠ "")
  match segments.getLast? with
  | none => (none, none)
  | some last => (segments.dropLast.getLast?.bind fun owner => normalizeRepositoryToken P (some owner),
      normalizeRepositoryToken P (some last))

def normalizeRepositoryMetadata (options : RepositoryOptions) : NormalizedRepositoryMetadata :=
  let repoIdRaw := trim (options.repositoryId.getD "")
  let repoId := if repoIdRaw ≠ "" then some (P.toLowerCase (stripGithub repoIdRaw)) else none
  let fromRepoId := (repoId.map (parseOwnerNameFromRepositoryId P)).getD (none, none)
  { repoId
    owner := (normalizeRepositoryToken P options.repositoryOwner).or fromRepoId.1
    name := (normalizeRepositoryToken P options.repositoryName).or fromRepoId.2
    recentCommits := normalizeRepositoryCommits P options.repositoryRecentCommits }

/-! ## The repository of a peer -/

def parseRepositoryFromDiscoveryBody (body : JsonValue) (commitWindow : Option JsNumber) :
    Option RelayRepositoryIdentity :=
  let container := (body.objField? "repository").getD body
  let repoId := normalizeRepositoryId P parseUrl (stringOrNull (container.get? "repo_id"))
  let ownerField := normalizeToken P (stringOrNull (container.get? "owner"))
  let nameField := normalizeToken P (stringOrNull (container.get? "name"))
  let commits := parseRecentCommits P (container.get? "recent_commits")
    (normalizeCommitWindow commitWindow)
  let repoFromId := parseRepoNameFromRepoId P parseUrl repoId
  let owner := ownerField.or repoFromId.1
  let name := nameField.or repoFromId.2
  if repoId = none ∧ owner = none ∧ name = none ∧ commits = [] then none
  else some { repoId, owner, name, recentCommits := commits }

inductive CompatibilityReason
  | exactRepoId
  | recentCommitOverlap
  | repositoryNameMismatch
  | peerRepositoryUnknown
  | noRecentFastForward
  | localRepositoryUnknown
  deriving DecidableEq

structure RepositoryCompatibilityDecision where
  compatible : Bool
  reason : CompatibilityReason
  deriving DecidableEq

def decideRepositoryCompatibility (local_ : RelayRepositoryIdentity)
    (peer : Option RelayRepositoryIdentity) : RepositoryCompatibilityDecision :=
  if local_.name.getD "" = "" then ⟨true, .localRepositoryUnknown⟩
  else
    match peer with
    | none => ⟨false, .peerRepositoryUnknown⟩
    | some peer =>
      if peer.name.getD "" = "" then ⟨false, .peerRepositoryUnknown⟩
      else if local_.name ≠ peer.name then ⟨false, .repositoryNameMismatch⟩
      else
        let localRepoId := normalizeRepositoryId P parseUrl local_.repoId
        let peerRepoId := normalizeRepositoryId P parseUrl peer.repoId
        if localRepoId.getD "" ≠ "" ∧ peerRepoId.getD "" ≠ "" ∧ localRepoId = peerRepoId then
          ⟨true, .exactRepoId⟩
        else if hasRecentFastForwardLikeOverlap P local_.recentCommits peer.recentCommits then
          ⟨true, .recentCommitOverlap⟩
        else ⟨false, .noRecentFastForward⟩

/-- What the code relies on of the host. -/
structure RepositoryHost : Prop where
  /-- `toLowerCase` of an ASCII text -/
  lowerAscii : ∀ s : String, (∀ c ∈ s.toList, c.toNat < 128) →
    P.toLowerCase s = String.ofList (s.toList.map Char.toLower)
  /-- `new URL(raw)` throws when there is no scheme. -/
  absolute : ∀ raw : String, ':' ∉ raw.toList → parseUrl raw = none

end

namespace AffinityLemmas

/-! ## Names in lower case -/

/-- A token as `normalizeToken` leaves it. -/
def IsLowerToken (t : String) : Prop := t ≠ "" ∧ ∀ c ∈ t.toList, isLowerNameChar c = true

theorem isUpper_iff {c : Char} : c.isUpper = true ↔ 65 ≤ c.toNat ∧ c.toNat ≤ 90 := by
  show decide (c.val ≥ 'A'.val ∧ c.val ≤ 'Z'.val) = true ↔ _
  rw [decide_eq_true_eq]
  exact Iff.rfl

theorem isLower_iff {c : Char} : c.isLower = true ↔ 97 ≤ c.toNat ∧ c.toNat ≤ 122 := by
  show (decide (c.val ≥ 'a'.val) && decide (c.val ≤ 'z'.val)) = true ↔ _
  rw [Bool.and_eq_true, decide_eq_true_eq, decide_eq_true_eq]
  exact Iff.rfl

theorem toLower_of_not_upper {c : Char} (h : c.isUpper = false) : c.toLower = c := by
  unfold Char.toLower
  refine dif_neg fun hupper => ?_
  have htrue : c.isUpper = true := isUpper_iff.mpr hupper
  rw [h] at htrue
  cases htrue

theorem isLower_toLower {c : Char} (h : c.isUpper = true) : c.toLower.isLower = true := by
  have hupper : 65 ≤ c.toNat ∧ c.toNat ≤ 90 := isUpper_iff.mp h
  unfold Char.toLower
  split
  · have hsum : 97 ≤ (c.toNat + 32) % 4294967296 ∧ (c.toNat + 32) % 4294967296 ≤ 122 := by omega
    refine isLower_iff.mpr ?_
    simpa [UInt32.toNat_add] using hsum
  · next hnot =>
    exact absurd hupper hnot

theorem isNameChar_of_lower {c : Char} (h : isLowerNameChar c = true) : isNameChar c = true := by
  simp only [isLowerNameChar, isNameChar, isAlphanum_eq, Bool.or_eq_true] at h ⊢
  rcases h with ((((h | h) | h) | h) | h)
  · simp [h]
  · simp [h]
  · simp [h]
  · simp [h]
  · simp [h]

theorem toLower_of_lower {c : Char} (h : isLowerNameChar c = true) : c.toLower = c := by
  refine toLower_of_not_upper ?_
  cases hupper : c.isUpper with
  | false => rfl
  | true =>
    have hrange : 65 ≤ c.toNat ∧ c.toNat ≤ 90 := isUpper_iff.mp hupper
    simp only [isLowerNameChar, Bool.or_eq_true, beq_iff_eq] at h
    rcases h with ((((h | h) | rfl) | rfl) | rfl)
    · have hlower : 97 ≤ c.toNat ∧ c.toNat ≤ 122 := isLower_iff.mp h
      omega
    · have hdigit : 48 ≤ c.toNat ∧ c.toNat ≤ 57 := by
        simpa [Char.isDigit, UInt32.le_iff_toNat_le] using h
      omega
    all_goals cases hupper

theorem isLowerNameChar_toLower {c : Char} (h : isNameChar c = true) :
    isLowerNameChar c.toLower = true := by
  cases hupper : c.isUpper with
  | true => simp [isLowerNameChar, isLower_toLower hupper]
  | false =>
    rw [toLower_of_not_upper hupper]
    simp only [isNameChar, isAlphanum_eq, hupper, Bool.false_or] at h
    exact h

theorem ascii_of_nameChar {c : Char} (h : isNameChar c = true) : c.toNat < 128 := by
  simp only [isNameChar, isAlphanum_eq, Bool.or_eq_true, beq_iff_eq] at h
  rcases h with (((((h | h) | h) | rfl) | rfl) | rfl)
  · have hrange : 65 ≤ c.toNat ∧ c.toNat ≤ 90 := isUpper_iff.mp h
    omega
  · have hrange : 97 ≤ c.toNat ∧ c.toNat ≤ 122 := isLower_iff.mp h
    omega
  · have hrange : 48 ≤ c.toNat ∧ c.toNat ≤ 57 := by
      simpa [Char.isDigit, UInt32.le_iff_toNat_le] using h
    omega
  all_goals decide

variable {P : Platform} {parseUrl : String → Option UrlParts}

/-- Such a name, and a path of such names, is its own lower case. -/
theorem lower_eq_self (h : RepositoryHost P parseUrl) {s : String}
    (hs : ∀ c ∈ s.toList, isLowerNameChar c = true ∨ c = '/') : P.toLowerCase s = s := by
  have hascii : ∀ c ∈ s.toList, c.toNat < 128 := by
    intro c hc
    rcases hs c hc with hname | rfl
    · exact ascii_of_nameChar (isNameChar_of_lower hname)
    · decide
  have hmap : s.toList.map Char.toLower = s.toList := by
    refine (List.map_congr_left fun c hc => ?_).trans (List.map_id s.toList)
    rcases hs c hc with hname | rfl
    · exact toLower_of_lower hname
    · decide
  rw [h.lowerAscii s hascii, hmap, String.ofList_toList]

theorem isLowerToken_lower (h : RepositoryHost P parseUrl) {value : String}
    (hvalue : isRepositoryToken value = true) : IsLowerToken (P.toLowerCase value) := by
  simp only [isRepositoryToken, Bool.and_eq_true, decide_eq_true_eq, List.all_eq_true] at hvalue
  obtain ⟨hne, hall⟩ := hvalue
  rw [h.lowerAscii value fun c hc => ascii_of_nameChar (hall c hc)]
  refine ⟨fun hempty => hne ?_, fun c hc => ?_⟩
  · have hlist := congrArg String.toList hempty
    rw [String.toList_ofList, String.toList_empty, List.map_eq_nil_iff] at hlist
    exact String.toList_inj.mp hlist
  · rw [String.toList_ofList] at hc
    obtain ⟨d, hd, rfl⟩ := List.mem_map.mp hc
    exact isLowerNameChar_toLower (hall d hd)

theorem trimmed_of_lower {s : String}
    (hs : ∀ c ∈ s.toList, isLowerNameChar c = true ∨ c = '/') : trim s = s := by
  refine trimmed_of_nospace fun c hc => ?_
  rcases hs c hc with hname | rfl
  · exact isJsSpace_of_isNameChar (isNameChar_of_lower hname)
  · decide

/-! ## Tokens are fixed points -/

theorem normalizeToken_some (h : RepositoryHost P parseUrl) {raw : Option String} {t : String}
    (ht : normalizeToken P raw = some t) : IsLowerToken t := by
  obtain ⟨value, -, hvalue⟩ := Option.bind_eq_some_iff.mp ht
  split at hvalue
  · next hmatch =>
    rw [← Option.some.inj hvalue]
    exact isLowerToken_lower h hmatch
  · cases hvalue

theorem normalizeToken_lower (h : RepositoryHost P parseUrl) {t : String} (ht : IsLowerToken t) :
    normalizeToken P (some t) = some t := by
  have htrim := trimmed_of_lower fun c hc => .inl (ht.2 c hc)
  have hmatch : isRepositoryToken t = true := by
    simp only [isRepositoryToken, Bool.and_eq_true, decide_eq_true_eq, List.all_eq_true]
    exact ⟨ht.1, fun c hc => isNameChar_of_lower (ht.2 c hc)⟩
  have hoptional : normalizeOptionalString (some t) = some t := by
    rw [normalizeOptionalString, Option.bind_some, htrim, if_pos ht.1]
  rw [normalizeToken, hoptional, Option.bind_some, if_pos hmatch,
    lower_eq_self h fun c hc => .inl (ht.2 c hc)]

theorem normalizeRepositoryToken_lower (h : RepositoryHost P parseUrl) {t : String}
    (ht : IsLowerToken t) : normalizeRepositoryToken P (some t) = some t := by
  have hlower : P.toLowerCase (trim t) = t := by
    rw [trimmed_of_lower fun c hc => .inl (ht.2 c hc), lower_eq_self h fun c hc => .inl (ht.2 c hc)]
  unfold normalizeRepositoryToken
  simp only [Option.getD_some, hlower, if_neg ht.1]
  exact if_pos (List.all_eq_true.mpr ht.2)

theorem normalizeRepositoryToken_none (h : RepositoryHost P parseUrl) :
    normalizeRepositoryToken P none = none := by
  have hlower : P.toLowerCase (trim "") = "" :=
    lower_eq_self h (s := "") fun c hc => by cases hc
  exact if_pos hlower

/-! ## Paths of tokens -/

/-- The owner, if there is one, and the name. -/
def idTokens (owner : Option String) (name : String) : List String := owner.toList ++ [name]

theorem joinRepositoryId_toList {owner : Option String} (howner : ∀ o ∈ owner, IsLowerToken o)
    (name : String) : (joinRepositoryId owner name).toList =
      ['/'].intercalate ((idTokens owner name).map String.toList) := by
  cases owner with
  | none => exact (List.intercalate_singleton).symm
  | some o =>
    show (if o = "" then name else o ++ "/" ++ name).toList = _
    rw [if_neg (howner o rfl).1, String.toList_append, String.toList_append]
    simp [idTokens, List.intercalate]

theorem mem_idTokens {owner : Option String} {name t : String}
    (howner : ∀ o ∈ owner, IsLowerToken o) (hname : IsLowerToken name)
    (h : t ∈ idTokens owner name) : IsLowerToken t := by
  rcases List.mem_append.mp h with hmem | hmem
  · exact howner t (Option.mem_toList.mp hmem)
  · rw [List.mem_singleton.mp hmem]
    exact hname

theorem slash_notMem_token {t : String} (h : IsLowerToken t) : '/' ∉ t.toList := by
  intro hmem
  exact absurd (h.2 '/' hmem) (by decide)

theorem trimSlashes_of_ends {l : List Char} (hfirst : ∀ c ∈ l.head?, c ≠ '/')
    (hlast : ∀ c ∈ l.getLast?, c ≠ '/') : trimSlashes l = l := by
  have hkeep : ∀ l : List Char, (∀ c ∈ l.head?, c ≠ '/') → l.dropWhile (· == '/') = l := by
    intro l hl
    cases l with
    | nil => rfl
    | cons c cs => exact List.dropWhile_cons_of_neg (by simpa using hl c rfl)
  rw [trimSlashes, hkeep l hfirst, hkeep l.reverse (by rwa [List.head?_reverse]),
    List.reverse_reverse]

section
variable {owner : Option String} {name : String} (howner : ∀ o ∈ owner, IsLowerToken o)
  (hname : IsLowerToken name)
include howner hname

theorem join_chars {c : Char} (hc : c ∈ (joinRepositoryId owner name).toList) :
    isLowerNameChar c = true ∨ c = '/' := by
  cases owner with
  | none => exact .inl (hname.2 c hc)
  | some o =>
    have ho := howner o rfl
    change c ∈ (if o = "" then name else o ++ "/" ++ name).toList at hc
    rw [if_neg ho.1, String.toList_append, String.toList_append, List.mem_append,
      List.mem_append] at hc
    rcases hc with (hc | hc) | hc
    · exact .inl (ho.2 c hc)
    · exact .inr (List.mem_singleton.mp hc)
    · exact .inl (hname.2 c hc)

theorem join_ne_empty : joinRepositoryId owner name ≠ "" := by
  intro hempty
  have hlist := congrArg String.toList hempty
  cases owner with
  | none => exact hname.1 hempty
  | some o =>
    change (if o = "" then name else o ++ "/" ++ name).toList = [] at hlist
    rw [if_neg (howner o rfl).1, String.toList_append, List.append_eq_nil_iff] at hlist
    exact hname.1 (String.toList_inj.mp hlist.2)

/-- Only the slash between the tokens is one. -/
theorem trimSlashes_join :
    trimSlashes (joinRepositoryId owner name).toList = (joinRepositoryId owner name).toList := by
  have hends : ∀ t : String, IsLowerToken t →
      (∀ c ∈ t.toList.head?, c ≠ '/') ∧ ∀ c ∈ t.toList.getLast?, c ≠ '/' := by
    intro t ht
    refine ⟨fun c hc => ?_, fun c hc => ?_⟩
    · rintro rfl
      exact slash_notMem_token ht (List.mem_of_mem_head? hc)
    · rintro rfl
      exact slash_notMem_token ht (List.mem_of_mem_getLast? hc)
  cases owner with
  | none => exact trimSlashes_of_ends (hends name hname).1 (hends name hname).2
  | some o =>
    have ho := howner o rfl
    have hfront : o.toList ≠ [] := fun hnil => ho.1 (String.toList_inj.mp hnil)
    have hback : name.toList ≠ [] := fun hnil => hname.1 (String.toList_inj.mp hnil)
    have hjoin : (joinRepositoryId (some o) name).toList = o.toList ++ ('/' :: name.toList) := by
      show (if o = "" then name else o ++ "/" ++ name).toList = _
      rw [if_neg ho.1, String.toList_append, String.toList_append, List.append_assoc]
      rfl
    rw [hjoin]
    refine trimSlashes_of_ends ?_ ?_
    · rw [List.head?_append_of_ne_nil _ hfront]
      exact (hends o ho).1
    · rw [← List.singleton_append, ← List.append_assoc, List.getLast?_append_of_ne_nil _ hback]
      exact (hends name hname).2

theorem pathSegments_join :
    pathSegments (joinRepositoryId owner name) = idTokens owner name := by
  have htokens : ∀ l ∈ (idTokens owner name).map String.toList, '/' ∉ l := by
    intro l hl
    obtain ⟨t, ht, rfl⟩ := List.mem_map.mp hl
    exact slash_notMem_token (mem_idTokens howner hname ht)
  have hne : (idTokens owner name).map String.toList ≠ [] := by simp [idTokens]
  have hkeep : ((idTokens owner name).map String.toList).filter (· ≠ []) =
      (idTokens owner name).map String.toList := by
    refine List.filter_eq_self.mpr fun l hl => ?_
    obtain ⟨t, ht, rfl⟩ := List.mem_map.mp hl
    refine decide_eq_true fun hnil => (mem_idTokens howner hname ht).1 ?_
    exact String.toList_inj.mp hnil
  have hback : ((idTokens owner name).map String.toList).map String.ofList =
      idTokens owner name := by
    rw [List.map_map]
    exact (List.map_congr_left fun t _ => String.ofList_toList).trans (List.map_id _)
  unfold pathSegments
  rw [trimmed_of_lower fun c hc => join_chars howner hname hc, trimSlashes_join howner hname,
    joinRepositoryId_toList howner, List.splitOn_intercalate '/' htokens hne, hkeep, hback]

end

/-! ## Parsing a joined id -/

theorem stripGitSuffix_lower {name : String} (hname : IsLowerToken name) :
    stripGitSuffix name = "" ∨ IsLowerToken (stripGitSuffix name) := by
  rcases Decidable.em (stripGitSuffix name = "") with hempty | hne
  · exact .inl hempty
  refine .inr ⟨hne, fun c hc => hname.2 c ?_⟩
  unfold stripGitSuffix at hc
  split at hc
  · rw [String.toList_ofList] at hc
    exact List.mem_of_mem_take hc
  · exact hc

theorem stripKnownPrefix_eq_self {raw : String} (h : ':' ∉ raw.toList) :
    stripKnownPrefix P raw = raw := by
  unfold stripKnownPrefix
  dsimp only
  split
  · rfl
  · exact if_pos (.inl h)

theorem parseScpLike_eq_none {raw : String} (h : '@' ∉ raw.toList) :
    parseScpLike P raw = none := if_pos (.inl h)

section
variable (h : RepositoryHost P parseUrl) {owner : Option String} {name : String}
  (howner : ∀ o ∈ owner, IsLowerToken o) (hname : IsLowerToken name)
include h howner hname

theorem parseOwnerAndName_join :
    parseOwnerAndName P (joinRepositoryId owner name) =
      if stripGitSuffix name = "" then none else some (owner, stripGitSuffix name) := by
  have hlast : (idTokens owner name).getLast? = some name := List.getLast?_concat
  have hfront : (idTokens owner name).dropLast.getLast?.bind
      (fun owner => normalizeToken P (some owner)) = owner := by
    rw [idTokens, List.dropLast_concat]
    cases owner with
    | none => rfl
    | some o =>
      rw [Option.toList_some, List.getLast?_singleton, Option.bind_some]
      exact normalizeToken_lower h (howner o rfl)
  unfold parseOwnerAndName
  simp only [pathSegments_join howner hname, hlast, hfront, Option.bind_eq_bind, Option.bind_some]
  rcases stripGitSuffix_lower hname with hempty | hlower
  · rw [if_pos hempty, hempty]
    rfl
  · rw [if_neg hlower.1, normalizeToken_lower h hlower]
    rfl

theorem parseRepositoryDescriptor_join :
    parseRepositoryDescriptor P parseUrl (joinRepositoryId owner name) =
      if stripGitSuffix name = "" then none
      else some ⟨none, owner, stripGitSuffix name⟩ := by
  have hchars := fun c hc => join_chars howner hname (c := c) hc
  have htrim : trim (joinRepositoryId owner name) = joinRepositoryId owner name :=
    trimmed_of_lower hchars
  have hcolon : ':' ∉ (joinRepositoryId owner name).toList := fun hc =>
    absurd (hchars ':' hc) (by decide)
  have hat : '@' ∉ (joinRepositoryId owner name).toList := fun hc =>
    absurd (hchars '@' hc) (by decide)
  have hoptional : normalizeOptionalString (some (joinRepositoryId owner name)) =
      some (joinRepositoryId owner name) := by
    rw [normalizeOptionalString, Option.bind_some, htrim, if_pos (join_ne_empty howner hname)]
  have hlocate : locateRepository P parseUrl (joinRepositoryId owner name) =
      (none, joinRepositoryId owner name) := by
    simp only [locateRepository, parseScpLike_eq_none hat, parseAsUrl, h.absolute _ hcolon,
      Option.map_none]
  unfold parseRepositoryDescriptor
  simp only [hoptional, Option.bind_eq_bind, Option.bind_some, stripKnownPrefix_eq_self hcolon,
    hlocate, parseOwnerAndName_join h howner hname]
  split <;> rfl

end

end AffinityLemmas

open AffinityLemmas

section
variable {P : Platform} {parseUrl : String → Option UrlParts} (h : RepositoryHost P parseUrl)
  {owner : Option String} {name : String} (howner : ∀ o ∈ owner, IsLowerToken o)
  (hname : IsLowerToken name)
include h howner hname

/-- One more normalisation of a normalised id cuts one more `.git` off. -/
theorem normalizeRepositoryId_join :
    normalizeRepositoryId P parseUrl (some (joinRepositoryId owner name)) =
      if stripGitSuffix name = "" then none
      else some (joinRepositoryId owner (stripGitSuffix name)) := by
  unfold normalizeRepositoryId
  rw [Option.getD_some, parseRepositoryDescriptor_join h howner hname]
  split <;> rfl

end

end BitRelay
