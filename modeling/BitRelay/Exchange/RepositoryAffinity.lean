import BitRelay.Exchange.RepositoryIds
import BitRelay.Exchange.TokenGates

/-!
# Repository affinity

A relay resolves its own repository at its start and publishes it in its discovery document. A
relay that reads the document of a peer judges whether they serve the same repository.

Results:
1. `resolve_explicit`, `metadata_join`: what a relay publishes that was started with an id.
2. `peer_reads`: what a peer reads of it.
3. `recognise_each_other_iff`: two relays with one explicit id find the same repository in each
   other's document if and only if its name does not stack the suffix `.git`.
-/

namespace BitRelay

section
variable (P : Platform) (parseUrl : String → Option UrlParts)

/-- `fetchPeerDiscovery`: any status but 200 makes it throw. -/
def fetchPeerRepository {C : Type} (R : Relay C) (env : Env) (s : ServiceState C) (token : String)
    (commitWindow : Option JsNumber) : Option (Option RelayRepositoryIdentity) :=
  let response := (serve R (peerDiscovery token) env s).1.wire
  if response.status ≠ 200 then none
  else some (parseRepositoryFromDiscoveryBody P parseUrl response.body commitWindow)

/-- The relay runs with the repository of these options. -/
def RunsWith {C : Type} (R : Relay C) (options : ResolveLocalRepositoryIdentityOptions) : Prop :=
  R.platform = P ∧ R.config.repositoryMetadata =
    normalizeRepositoryMetadata P (resolveLocalRepositoryIdentity P parseUrl options).options

/-- Only an id is given. -/
def ResolveLocalRepositoryIdentityOptions.ofId (id : String) :
    ResolveLocalRepositoryIdentityOptions :=
  ⟨some id, none, none, none, none, none⟩

/-- A relay without tokens that runs with the repository of these options. -/
def openRelay (options : ResolveLocalRepositoryIdentityOptions) : Relay Unit where
  config := { RelayConfig.default with
    repositoryMetadata :=
      normalizeRepositoryMetadata P (resolveLocalRepositoryIdentity P parseUrl options).options }
  platform := P
  cacheAdapter := .noStore

/-- Whoever was started with the id judges every relay that was started with it to be of the same
repository, once it has read its discovery document. -/
def RecogniseEachOther (id : String) : Prop :=
  ∀ options options' : ResolveLocalRepositoryIdentityOptions,
    options.explicitRepoId = some id → options'.explicitRepoId = some id →
    ∀ (C : Type) (R : Relay C) (env : Env) (s : ServiceState C) (token : String)
      (window : Option JsNumber) (peer : Option RelayRepositoryIdentity),
      RunsWith P parseUrl R options' →
      fetchPeerRepository P parseUrl R env s token window = some peer →
      decideRepositoryCompatibility P parseUrl
        (resolveLocalRepositoryIdentity P parseUrl options) peer = ⟨true, .exactRepoId⟩

/-- The last segment of the path of an id, as it is written. -/
def repositorySegment (id : String) : Option String :=
  (pathSegments (locateRepository P parseUrl (stripKnownPrefix P (trim id))).2).getLast?

/-- The name in the id, with a first `.git` cut off, is `.git` or ends in `.git.git`. -/
def StacksGitSuffix (id : String) : Prop :=
  ∃ segment, repositorySegment P parseUrl id = some segment ∧
    (P.toLowerCase (trim (stripGitSuffix segment)) = ".git" ∨
      endsWith (P.toLowerCase (trim (stripGitSuffix segment))) ".git.git" = true)

end

open AffinityLemmas

namespace AffinityLemmas

variable {P : Platform} {parseUrl : String → Option UrlParts}

/-! ## What an id resolves to -/

/-- The owner and the name of a descriptor are tokens, and the name comes from the last segment. -/
theorem descriptor_facts (h : RepositoryHost P parseUrl) {id : String}
    {descriptor : RepositoryDescriptor}
    (hid : parseRepositoryDescriptor P parseUrl id = some descriptor) :
    IsLowerToken descriptor.name ∧ (∀ o ∈ descriptor.owner, IsLowerToken o) ∧
      ∃ segment, repositorySegment P parseUrl id = some segment ∧
        descriptor.name = P.toLowerCase (trim (stripGitSuffix segment)) := by
  unfold parseRepositoryDescriptor at hid
  simp only [Option.bind_eq_bind, Option.bind_eq_some_iff] at hid
  obtain ⟨trimmed, htrimmed, parsed, hparsed, hid⟩ := hid
  obtain rfl := Option.some.inj hid
  unfold parseOwnerAndName at hparsed
  simp only [Option.bind_eq_bind, Option.bind_eq_some_iff] at hparsed
  obtain ⟨segment, hsegment, token, htoken, hparsed⟩ := hparsed
  obtain rfl := Option.some.inj hparsed
  have hid : trim id = trimmed := by
    rw [normalizeOptionalString, Option.bind_some] at htrimmed
    split at htrimmed
    · exact Option.some.inj htrimmed
    · cases htrimmed
  subst hid
  refine ⟨normalizeToken_some h htoken, fun o ho => ?_, segment, hsegment, ?_⟩
  · simp only [Option.mem_def, Option.bind_eq_some_iff] at ho
    obtain ⟨raw, -, ho⟩ := ho
    exact normalizeToken_some h ho
  · rw [normalizeToken, normalizeOptionalString, Option.bind_some] at htoken
    split at htoken
    · rw [Option.bind_some] at htoken
      split at htoken
      · exact (Option.some.inj htoken).symm
      · cases htoken
    · cases htoken

theorem trim_ne_empty_of_parse {id : String} {descriptor : RepositoryDescriptor}
    (hid : parseRepositoryDescriptor P parseUrl id = some descriptor) : trim id ≠ "" := by
  intro hempty
  have hnone : normalizeOptionalString (some id) = none := if_neg (not_not.mpr hempty)
  rw [parseRepositoryDescriptor, hnone] at hid
  cases hid

/-- An id that can be parsed determines the repository, whatever the other options are. -/
theorem resolve_explicit (h : RepositoryHost P parseUrl) {id : String}
    {descriptor : RepositoryDescriptor}
    (hid : parseRepositoryDescriptor P parseUrl id = some descriptor)
    {options : ResolveLocalRepositoryIdentityOptions} (hoptions : options.explicitRepoId = some id) :
    let identity := resolveLocalRepositoryIdentity P parseUrl options
    identity.repoId = some (joinRepositoryId descriptor.owner descriptor.name) ∧
      identity.owner = descriptor.owner ∧ identity.name = some descriptor.name := by
  obtain ⟨hname, howner, -⟩ := descriptor_facts h hid
  have hne := trim_ne_empty_of_parse hid
  have hexplicit : normalizeOptionalString options.explicitRepoId = some (trim id) := by
    rw [hoptions, normalizeOptionalString, Option.bind_some, if_pos hne]
  have hparse : parseRepositoryDescriptor P parseUrl (trim id) = some descriptor := by
    rw [← hid, parseRepositoryDescriptor, parseRepositoryDescriptor, normalizeOptionalString,
      normalizeOptionalString, Option.bind_some, Option.bind_some, trim_trim]
  have hrepoId : normalizeRepositoryId P parseUrl (some (trim id)) =
      some (joinRepositoryId descriptor.owner descriptor.name) := by
    rw [normalizeRepositoryId, Option.getD_some, hparse, Option.map_some]
  -- Without an owner in the id there is none in the normalised id.
  have hfromId : descriptor.owner.or (parseRepoNameFromRepoId P parseUrl
      (some (joinRepositoryId descriptor.owner descriptor.name))).1 = descriptor.owner := by
    rw [parseRepoNameFromRepoId, Option.bind_some, parseRepositoryDescriptor_join h howner hname]
    rcases Decidable.em (stripGitSuffix descriptor.name = "") with hempty | hleft
    · rw [if_pos hempty]
      exact Option.or_none
    · rw [if_neg hleft]
      exact Option.or_self
  simp only [resolveLocalRepositoryIdentity, hexplicit, Option.bind_some, hparse, hrepoId,
    Option.some_or, Option.map_some, hfromId, and_self]

theorem stripGithub_eq_self {s : String}
    (hs : ∀ c ∈ s.toList, isLowerNameChar c = true ∨ c = '/') : stripGithub s = s := by
  refine if_neg fun hgithub => ?_
  have hcolon : ':' ∈ (s.toList.take 7).map Char.toLower := by
    rw [hgithub]
    decide
  obtain ⟨c, hc, hlower⟩ := List.mem_map.mp hcolon
  rcases hs c (List.mem_of_mem_take hc) with hname | rfl
  · rw [toLower_of_lower hname] at hlower
    subst hlower
    exact absurd hname (by decide)
  · exact absurd hlower (by decide)

/-- A name alone has no owner in front of it. -/
theorem owner_of_name (P : Platform) {name : String} (hname : IsLowerToken name) :
    (parseOwnerNameFromRepositoryId P name).1 = none := by
  have hchars : ∀ c ∈ name.toList, isLowerNameChar c = true ∨ c = '/' :=
    fun c hc => .inl (hname.2 c hc)
  have hslash : '/' ∉ (stripGitSuffix name).toList := by
    rcases stripGitSuffix_lower hname with hempty | hleft
    · rw [hempty]
      exact List.not_mem_nil
    · exact slash_notMem_token hleft
  have hsplit : (stripGitSuffix name).toList.splitOn '/' = [(stripGitSuffix name).toList] := by
    have hone : (['/'].intercalate [(stripGitSuffix name).toList]).splitOn '/' =
        [(stripGitSuffix name).toList] := by
      refine List.splitOn_intercalate '/' (fun l hl => ?_) (List.cons_ne_nil _ _)
      rw [List.mem_singleton.mp hl]
      exact hslash
    rwa [List.intercalate_singleton] at hone
  -- There is one segment at most.
  have hfew : ∀ segments : List String, segments.length ≤ 1 → segments.dropLast.getLast? = none := by
    intro segments hlength
    rcases segments with _ | ⟨a, _ | ⟨b, rest⟩⟩
    · rfl
    · rfl
    · exact absurd hlength (by simp)
  have hlength : ((((stripGitSuffix name).toList.splitOn '/').map fun entry =>
      trim (String.ofList entry)).filter (· ≠ "")).length ≤ 1 := by
    refine (List.length_filter_le _ _).trans ?_
    rw [List.length_map, hsplit]
    exact Nat.le_refl 1
  unfold parseOwnerNameFromRepositoryId
  dsimp only
  rw [trimmed_of_lower hchars, stripGithub_eq_self hchars]
  generalize (((stripGitSuffix name).toList.splitOn '/').map fun entry =>
    trim (String.ofList entry)).filter (· ≠ "") = segments at hlength
  rw [hfew segments hlength]
  cases segments.getLast? with
  | none => rfl
  | some last => rfl

/-- The metadata of a relay that is started with such a repository are the same once more. -/
theorem metadata_join (h : RepositoryHost P parseUrl) {owner : Option String} {name : String}
    (howner : ∀ o ∈ owner, IsLowerToken o) (hname : IsLowerToken name)
    {identity : RelayRepositoryIdentity}
    (hid : identity.repoId = some (joinRepositoryId owner name) ∧ identity.owner = owner ∧
      identity.name = some name) :
    let metadata := normalizeRepositoryMetadata P identity.options
    metadata.repoId = some (joinRepositoryId owner name) ∧ metadata.owner = owner ∧
      metadata.name = some name := by
  obtain ⟨hrepoId, hownerField, hnameField⟩ := hid
  have hchars := fun c hc => join_chars howner hname (c := c) hc
  have htrim := trimmed_of_lower hchars
  have hstrip := stripGithub_eq_self hchars
  have hlower := lower_eq_self h hchars
  have hnameToken := normalizeRepositoryToken_lower h hname
  simp only [normalizeRepositoryMetadata, RelayRepositoryIdentity.options, hrepoId, hownerField,
    hnameField, Option.getD_some, htrim, hstrip, hlower, if_pos (join_ne_empty howner hname),
    hnameToken, Option.some_or, and_true, true_and, Option.map_some]
  cases owner with
  | some o => rw [normalizeRepositoryToken_lower h (howner o rfl), Option.some_or]
  | none =>
    rw [normalizeRepositoryToken_none h, Option.none_or]
    exact owner_of_name P hname

/-- The repository in a discovery document. -/
def repositoryJson (metadata : NormalizedRepositoryMetadata) : JsonValue := .obj [
  ("repo_id", .ofString? metadata.repoId),
  ("owner", .ofString? metadata.owner),
  ("name", .ofString? metadata.name),
  ("recent_commits", .arr (metadata.recentCommits.map .str))]

theorem stringOrNull_ofString? (text : Option String) :
    stringOrNull (some (JsonValue.ofString? text).normalize) = text := by
  cases text with
  | none => rfl
  | some s => rfl

theorem repositoryJson_fields (metadata : NormalizedRepositoryMetadata) :
    stringOrNull ((repositoryJson metadata).normalize.get? "repo_id") = metadata.repoId ∧
      stringOrNull ((repositoryJson metadata).normalize.get? "name") = metadata.name := by
  rw [JsonValue.get?_normalize, JsonValue.get?_normalize]
  exact ⟨stringOrNull_ofString? metadata.repoId, stringOrNull_ofString? metadata.name⟩

theorem objField?_wire {body : JsonValue} {key : String}
    {metadata : NormalizedRepositoryMetadata}
    (h : body.objField? key = some (repositoryJson metadata)) :
    body.normalize.objField? key = some (repositoryJson metadata).normalize := by
  unfold JsonValue.objField? at h ⊢
  rw [JsonValue.get?_normalize]
  split at h
  · next fields hfields =>
    rw [hfields, ← Option.some.inj h]
    rfl
  · cases h

/-- A discovery document that is answered with 200 holds the repository of the relay. -/
theorem discovery_body {C : Type} {R : Relay C} {env : Env} {s : ServiceState C} {token : String}
    (h : (serve R (peerDiscovery token) env s).1.status = 200) :
    (serve R (peerDiscovery token) env s).1.body.objField? "repository" =
      some (repositoryJson R.config.repositoryMetadata) := by
  have hserve : serve R (peerDiscovery token) env s =
      (Proc.failWith (checkAuth R (peerDiscovery token)) >>= fun _ =>
        Proc.failWith (checkPeerAuth R (peerDiscovery token)) >>= fun _ =>
        pure (okResponse [
          ("protocol", .str "cache.exchange.v1"),
          ("node_id", .str R.config.relayNodeId),
          ("peers", .arr (R.config.peerRelayUrls.map .str)),
          ("max_hops", .ofNat R.config.cacheExchangeMaxHops),
          ("repository", repositoryJson R.config.repositoryMetadata)]) :
        Handler C Response).serve s := rfl
  rw [hserve] at h ⊢
  -- A refusal has the status 401.
  rcases TokenGateLemmas.checkAuth_cases R (peerDiscovery token) with hauth | hauth
  · rcases TokenGateLemmas.checkPeerAuth_cases R (peerDiscovery token) with hpeer | hpeer
    · rw [hauth, hpeer]
      rfl
    · rw [hauth, hpeer] at h
      cases h
  · rw [hauth] at h
    cases h

/-- A peer reads the repository as the relay publishes it, with its id normalised once more. -/
theorem peer_reads (h : RepositoryHost P parseUrl) {owner : Option String} {name : String}
    (hname : IsLowerToken name) {C : Type} {R : Relay C} {env : Env}
    {s : ServiceState C} {token : String} {window : Option JsNumber}
    {peer : Option RelayRepositoryIdentity}
    (hmetadata : R.config.repositoryMetadata.repoId = some (joinRepositoryId owner name) ∧
      R.config.repositoryMetadata.owner = owner ∧ R.config.repositoryMetadata.name = some name)
    (hfetch : fetchPeerRepository P parseUrl R env s token window = some peer) :
    ∃ identity, peer = some identity ∧ identity.name = some name ∧ identity.repoId =
      normalizeRepositoryId P parseUrl (some (joinRepositoryId owner name)) := by
  obtain ⟨hrepoId, -, hnameField⟩ := hmetadata
  unfold fetchPeerRepository at hfetch
  dsimp only at hfetch
  split at hfetch
  · cases hfetch
  next hstatus =>
  have hbody := objField?_wire (discovery_body (not_not.mp hstatus))
  obtain ⟨hidField, hnameText⟩ := repositoryJson_fields R.config.repositoryMetadata
  rw [hrepoId] at hidField
  rw [hnameField] at hnameText
  rw [← Option.some.inj hfetch]
  unfold parseRepositoryFromDiscoveryBody
  simp only [Response.wire, hbody, Option.getD_some, hidField, hnameText,
    normalizeToken_lower h hname, Option.some_or]
  rw [if_neg fun hnone => Option.some_ne_none _ hnone.2.2.1]
  refine ⟨_, rfl, ?_, ?_⟩
  · dsimp only
  · dsimp only

theorem endsWith_iff {s suffix : String} :
    endsWith s suffix = true ↔ ∃ front, s = front ++ suffix := by
  rw [endsWith, List.isSuffixOf_iff_suffix]
  constructor
  · rintro ⟨front, hfront⟩
    refine ⟨String.ofList front, String.toList_inj.mp ?_⟩
    rw [String.toList_append, String.toList_ofList, hfront]
  · rintro ⟨front, rfl⟩
    rw [String.toList_append]
    exact List.suffix_append _ _

theorem stripGitSuffix_append (front : String) : stripGitSuffix (front ++ ".git") = front := by
  have hlength : (front ++ ".git").length - 4 = front.toList.length := by
    rw [String.length_append, String.length_toList]
    exact Nat.add_sub_cancel front.length 4
  rw [stripGitSuffix, if_pos (endsWith_iff.mpr ⟨front, rfl⟩), hlength, String.toList_append,
    List.take_left, String.ofList_toList]

theorem stripGitSuffix_of_not {s : String} (h : ¬ endsWith s ".git" = true) :
    stripGitSuffix s = s := if_neg h

/-- Nothing is cut off a name that does not end in `.git`, and only off such a name. -/
theorem stripGitSuffix_eq_self_iff {s : String} :
    stripGitSuffix s = s ↔ ¬ endsWith s ".git" = true := by
  refine ⟨fun hself hends => ?_, stripGitSuffix_of_not⟩
  obtain ⟨front, rfl⟩ := endsWith_iff.mp hends
  rw [stripGitSuffix_append] at hself
  have hlength := congrArg String.length hself
  rw [String.length_append] at hlength
  exact absurd hlength (Nat.ne_of_lt (Nat.lt_add_of_pos_right (by decide)))

/-- What is left of a name is empty or ends in `.git` when the name stacks the suffix. -/
theorem stacks_iff {name : String} (hne : name ≠ "") :
    (stripGitSuffix name = "" ∨ endsWith (stripGitSuffix name) ".git" = true) ↔
      (name = ".git" ∨ endsWith name ".git.git" = true) := by
  rcases Decidable.em (endsWith name ".git" = true) with hends | hends
  · obtain ⟨front, rfl⟩ := endsWith_iff.mp hends
    rw [stripGitSuffix_append]
    refine or_congr ⟨?_, fun hgit => ?_⟩ ⟨fun hfront => ?_, fun htwice => ?_⟩
    · rintro rfl
      rfl
    · rw [← stripGitSuffix_append front, hgit]
      decide
    · obtain ⟨rest, rfl⟩ := endsWith_iff.mp hfront
      exact endsWith_iff.mpr ⟨rest, by rw [String.append_assoc]; rfl⟩
    · obtain ⟨rest, hrest⟩ := endsWith_iff.mp htwice
      have hsplit : front ++ ".git" = rest ++ ".git" ++ ".git" := by
        rw [hrest, String.append_assoc]
        rfl
      refine endsWith_iff.mpr ⟨rest, ?_⟩
      rw [← stripGitSuffix_append front, hsplit, stripGitSuffix_append]
  · rw [stripGitSuffix_of_not hends]
    refine iff_of_false (not_or.mpr ⟨hne, hends⟩) (not_or.mpr ⟨?_, fun htwice => hends ?_⟩)
    · rintro rfl
      exact hends rfl
    · obtain ⟨front, rfl⟩ := endsWith_iff.mp htwice
      exact endsWith_iff.mpr ⟨front ++ ".git", by rw [String.append_assoc]; rfl⟩

theorem joinRepositoryId_inj {owner : Option String} {a b : String} :
    joinRepositoryId owner a = joinRepositoryId owner b ↔ a = b := by
  refine ⟨fun heq => ?_, fun heq => by rw [heq]⟩
  unfold joinRepositoryId at heq
  split at heq
  · exact heq
  · have hlist := congrArg String.toList heq
    simp only [String.toList_append] at hlist
    exact String.toList_inj.mp (List.append_cancel_left hlist)

/-- The ids decide when they agree; otherwise the commits do. -/
theorem exact_iff {c : Prop} [Decidable c] {overlap : Bool} :
    (if c then ⟨true, .exactRepoId⟩
      else if overlap then ⟨true, .recentCommitOverlap⟩
      else ⟨false, .noRecentFastForward⟩ : RepositoryCompatibilityDecision) =
        ⟨true, .exactRepoId⟩ ↔ c := by
  rcases Decidable.em c with hc | hc
  · rw [if_pos hc]
    exact iff_of_true rfl hc
  · rw [if_neg hc]
    cases overlap with
    | true => exact iff_of_false (by decide) hc
    | false => exact iff_of_false (by decide) hc

/-- Two ids that were normalised once and twice agree when the second time changed nothing. -/
theorem decide_exact_iff (h : RepositoryHost P parseUrl) {owner : Option String} {name : String}
    (howner : ∀ o ∈ owner, IsLowerToken o) (hname : IsLowerToken name)
    {identity peer : RelayRepositoryIdentity}
    (hid : identity.repoId = some (joinRepositoryId owner name))
    (hlocal : identity.name = some name) (hpeer : peer.name = some name)
    (hpeerId : peer.repoId = normalizeRepositoryId P parseUrl (some (joinRepositoryId owner name))) :
    decideRepositoryCompatibility P parseUrl identity (some peer) = ⟨true, .exactRepoId⟩ ↔
      ¬ (name = ".git" ∨ endsWith name ".git.git" = true) := by
  rw [← stacks_iff hname.1]
  have hlocalId := normalizeRepositoryId_join h howner hname
  rw [← hid] at hlocalId
  have hknown : identity.name.getD "" ≠ "" ∧ peer.name.getD "" ≠ "" := by
    rw [hlocal, hpeer]
    exact ⟨hname.1, hname.1⟩
  have hsame : ¬ identity.name ≠ peer.name := by
    rw [hlocal, hpeer]
    exact not_not.mpr rfl
  simp only [decideRepositoryCompatibility, if_neg hknown.1, if_neg hknown.2, if_neg hsame,
    hpeerId, ← hid, hlocalId, exact_iff]
  rcases stripGitSuffix_lower hname with hempty | hleft
  · -- Nothing is left of the name, and there is no id to compare.
    rw [if_pos hempty]
    exact iff_of_false (fun hboth => hboth.1 rfl) (not_not.mpr (.inl hempty))
  rw [if_neg hleft.1, normalizeRepositoryId_join h howner hleft, not_or, ← stripGitSuffix_eq_self_iff]
  have hne : (some (joinRepositoryId owner (stripGitSuffix name))).getD "" ≠ "" :=
    join_ne_empty howner hleft
  rcases stripGitSuffix_lower hleft with hgone | hleft'
  · rw [if_pos hgone, hgone]
    exact iff_of_false (fun hboth => hboth.2.1 rfl) fun hboth => hleft.1 hboth.2.symm
  · rw [if_neg hleft'.1]
    constructor
    · rintro ⟨-, -, hids⟩
      exact ⟨hleft.1, (joinRepositoryId_inj.mp (Option.some.inj hids)).symm⟩
    · rintro ⟨-, hself⟩
      exact ⟨hne, join_ne_empty howner hleft', by rw [hself]⟩

/-- What the judgement says when a document could be read. -/
theorem exact_iff_of_fetch (h : RepositoryHost P parseUrl) {id : String}
    {descriptor : RepositoryDescriptor}
    (hid : parseRepositoryDescriptor P parseUrl id = some descriptor)
    {options options' : ResolveLocalRepositoryIdentityOptions}
    (hoptions : options.explicitRepoId = some id) (hoptions' : options'.explicitRepoId = some id)
    {C : Type} {R : Relay C} {env : Env} {s : ServiceState C} {token : String}
    {window : Option JsNumber} {peer : Option RelayRepositoryIdentity}
    (hruns : RunsWith P parseUrl R options')
    (hfetch : fetchPeerRepository P parseUrl R env s token window = some peer) :
    decideRepositoryCompatibility P parseUrl (resolveLocalRepositoryIdentity P parseUrl options)
      peer = ⟨true, .exactRepoId⟩ ↔ ¬ StacksGitSuffix P parseUrl id := by
  obtain ⟨hname, howner, segment, hsegment, hlower⟩ := descriptor_facts h hid
  obtain ⟨hlocalId, -, hlocalName⟩ := resolve_explicit h hid hoptions
  have hmetadata := metadata_join h howner hname (resolve_explicit h hid hoptions')
  rw [← hruns.2] at hmetadata
  obtain ⟨identity, rfl, hpeerName, hpeerId⟩ := peer_reads h hname hmetadata hfetch
  rw [decide_exact_iff h howner hname hlocalId hlocalName hpeerName hpeerId, hlower]
  refine not_congr ⟨fun hstacks => ⟨segment, hsegment, hstacks⟩, ?_⟩
  rintro ⟨segment', hsegment', hstacks⟩
  rw [hsegment] at hsegment'
  rw [Option.some.inj hsegment']
  exact hstacks

end AffinityLemmas

/-- A relay with such an id does not even recognise itself. -/
theorem unrecognised_of_stacks {P : Platform} {parseUrl : String → Option UrlParts}
    (h : RepositoryHost P parseUrl) {id : String} {descriptor : RepositoryDescriptor}
    (hid : parseRepositoryDescriptor P parseUrl id = some descriptor)
    (hstacks : StacksGitSuffix P parseUrl id) : ¬ RecogniseEachOther P parseUrl id := by
  intro heach
  have hruns : RunsWith P parseUrl (openRelay P parseUrl (.ofId id)) (.ofId id) := ⟨rfl, rfl⟩
  obtain ⟨peer, hfetch⟩ : ∃ peer, fetchPeerRepository P parseUrl (openRelay P parseUrl (.ofId id))
    (.at 0) (.init ()) "" none = some peer := ⟨_, rfl⟩
  have hexplicit : (ResolveLocalRepositoryIdentityOptions.ofId id).explicitRepoId = some id := rfl
  have hexact := heach _ _ hexplicit hexplicit Unit _ _ _ _ _ peer hruns hfetch
  exact (exact_iff_of_fetch h hid hexplicit hexplicit hruns hfetch).mp hexact hstacks

/-- Two relays that are started with one explicit id recognise each other by it if and only if its
name does not stack the suffix `.git`. -/
theorem recognise_each_other_iff {P : Platform} {parseUrl : String → Option UrlParts}
    (h : RepositoryHost P parseUrl) {id : String} {descriptor : RepositoryDescriptor}
    (hid : parseRepositoryDescriptor P parseUrl id = some descriptor) :
    RecogniseEachOther P parseUrl id ↔ ¬ StacksGitSuffix P parseUrl id := by
  constructor
  · exact fun heach hstacks => unrecognised_of_stacks h hid hstacks heach
  · intro hstacks options options' hoptions hoptions' C R env s token window peer hruns hfetch
    exact (exact_iff_of_fetch h hid hoptions hoptions' hruns hfetch).mpr hstacks

/-! ## Small ids -/

/-- A URL of the toy host has a scheme; it is not taken apart. -/
def noUrl (_ : String) : Option UrlParts := none

theorem repositoryHost_toy : RepositoryHost Platform.toy noUrl where
  lowerAscii _ _ := rfl
  absolute _ _ := rfl

/-- An id with an upper-case owner, a prefix and a suffix. -/
theorem recognise_each_other_bit :
    RecogniseEachOther Platform.toy noUrl "github:Bit-VCS/bit.git" ↔
      ¬ StacksGitSuffix Platform.toy noUrl "github:Bit-VCS/bit.git" :=
  recognise_each_other_iff repositoryHost_toy
    (show parseRepositoryDescriptor Platform.toy noUrl "github:Bit-VCS/bit.git" =
      some ⟨none, some "bit-vcs", "bit"⟩ by decide +kernel)

/-- A suffix that is stacked three times is cut once on one side and twice on the other. -/
theorem stacked_suffix_unrecognised :
    ¬ RecogniseEachOther Platform.toy noUrl "bit-vcs/bit.git.git.git" :=
  unrecognised_of_stacks repositoryHost_toy
    (show parseRepositoryDescriptor Platform.toy noUrl "bit-vcs/bit.git.git.git" =
      some ⟨none, some "bit-vcs", "bit.git.git"⟩ by decide +kernel)
    ⟨"bit.git.git.git", by decide +kernel, .inr (by decide +kernel)⟩

end BitRelay
