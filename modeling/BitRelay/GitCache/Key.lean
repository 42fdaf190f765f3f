import BitRelay.Cache.Projection
import BitRelay.GitServe.Routes
import BitRelay.Js.FormText

/-!
# Keys of the git cache

`git_cache_layer.ts`: the answer to a git request is stored under the session of the request and a
hash of its method, its path, its query and its body. The session id is rewritten, a slash to two
underscores; the method is taken in upper case; the body counts for POST and PUT only.

SHA-256 is a parameter: no two inputs have one digest.

Results:
1. `canonicalizePathWithQuery_inj`: the canonical path determines the path and the parameters.
2. `storageKey_eq_iff`: two requests have one storage key exactly when they agree in all that the
   key is made of.
-/

namespace BitRelay

/-! ## Definitions -/

/-- The hash of the host, and its `JSON.stringify`. -/
structure GitCacheHost where
  sha256 : Bytes → Bytes
  sha256_injective : Function.Injective sha256
  stringify : JsonValue → String

/-- `sha256HexBytes(bytes)` -/
def GitCacheHost.sha256HexBytes (H : GitCacheHost) (bytes : Bytes) : String :=
  toHex (H.sha256 bytes)

structure GitCacheKey where
  kind : CacheStoreKind
  key : String
  sessionId : String
  pathWithQuery : String
  requestHash : String
  deriving DecidableEq

/-- `sessionId.replaceAll('/', '__')` -/
def normalizeSessionId (sessionId : String) : String :=
  String.ofList (sessionId.toList.flatMap fun c => if c = '/' then ['_', '_'] else [c])

def classifyKind (gitPath : String) : CacheStoreKind :=
  if gitPath = "/HEAD" ∨ startsWith gitPath "/info/refs" = true then .ref else .pack

/-- The parameters without the session token: what `params.delete('session_token')` leaves. -/
def withoutToken (query : List (String × String)) : List (String × String) :=
  query.filter fun p => decide (p.1 ≠ "session_token")

/-- `params.sort()`, a stable sort by the code units of the names. -/
def sortParams (params : List (String × String)) : List (String × String) :=
  params.insertionSort fun p q => codeUnitLe p.1 q.1 = true

def canonicalizePathWithQuery (gitPath : String) (search : List (String × String)) : String :=
  let query := paramsToString (sortParams (withoutToken search))
  if 0 < query.length then gitPath ++ "?" ++ query else gitPath

/-- `request.method.toUpperCase()`; a method is a token of ASCII characters. -/
def upperMethod (method : String) : String := String.ofList (method.toList.map Char.toUpper)

/-- The bytes that are hashed for the body; `none` when the body cannot be read. -/
def hashedBody (request : GitServeRequest) : Option Bytes :=
  let method := upperMethod request.request.method
  if method = "POST" ∨ method = "PUT" then request.bytes else some []

/-- The key of a request; `none` is the exception of a body that cannot be read. -/
def buildGitCacheKeyFromRequest (H : GitCacheHost) (request : GitServeRequest)
    (sessionId gitPath : String) : Option GitCacheKey :=
  (hashedBody request).map fun bodyBytes =>
    let pathWithQuery := canonicalizePathWithQuery gitPath request.request.query
    let bodyHash := H.sha256HexBytes bodyBytes
    let requestHash := H.sha256HexBytes (textEncode
      (upperMethod request.request.method ++ "\n" ++ pathWithQuery ++ "\n" ++ bodyHash))
    { kind := classifyKind gitPath
      key := "git/" ++ normalizeSessionId sessionId ++ "/" ++ requestHash
      sessionId
      pathWithQuery
      requestHash }

/-- Where the store keeps the entry of a key: `put` and `get` trim the key first. -/
def GitCacheKey.storageKey (key : GitCacheKey) : Option String :=
  (normalizeKey key.key).toOption.map (toStorageKey key.kind)

/-! ## Requests -/

/-- The arguments of `handleGitRelayRequest`. -/
structure GitRelayRequest where
  request : GitServeRequest
  sessionId : String
  gitSubPath : String
  deriving DecidableEq

namespace GitRelayRequest

def method (r : GitRelayRequest) : String := r.request.request.method

def cacheKey (H : GitCacheHost) (r : GitRelayRequest) : Option GitCacheKey :=
  buildGitCacheKeyFromRequest H r.request r.sessionId ("/" ++ r.gitSubPath)

def storageKey (H : GitCacheHost) (r : GitRelayRequest) : Option String :=
  (r.cacheKey H).bind GitCacheKey.storageKey

/-- What the routes and the host make sure of: the method is a token, the path ends before the
query, and the session id is made of name characters and slashes. -/
structure Admitted (r : GitRelayRequest) : Prop where
  method : isHeaderName r.request.request.method = true
  path : '?' ∉ r.request.request.pathname.toList
  pathname : r.request.request.pathname = "/git/" ++ r.sessionId ++ "/" ++ r.gitSubPath
  sessionId : ∀ c ∈ r.sessionId.toList, isNameChar c = true ∨ c = '/'

/-- Two requests agree in all that a key is made of. -/
structure SameCacheKey (r r' : GitRelayRequest) : Prop where
  session : normalizeSessionId r.sessionId = normalizeSessionId r'.sessionId
  method : upperMethod r.method = upperMethod r'.method
  path : r.gitSubPath = r'.gitSubPath
  query : sortParams (withoutToken r.request.request.query) =
    sortParams (withoutToken r'.request.request.query)
  body : hashedBody r.request = hashedBody r'.request

end GitRelayRequest

namespace GitCacheKeyLemmas

/-! ## Paths -/

/-- The path and the parameters are read back from the canonical path. -/
theorem canonicalizePathWithQuery_inj {gitPath gitPath' : String}
    {search search' : List (String × String)} (hpath : '?' ∉ gitPath.toList)
    (hpath' : '?' ∉ gitPath'.toList)
    (h : canonicalizePathWithQuery gitPath search = canonicalizePathWithQuery gitPath' search') :
    gitPath = gitPath' ∧
      sortParams (withoutToken search) = sortParams (withoutToken search') := by
  have hform : ∀ (path : String) (search : List (String × String)),
      (sortParams (withoutToken search) = [] ∧
        canonicalizePathWithQuery path search = path) ∨
      (canonicalizePathWithQuery path search).toList =
        path.toList ++ '?' :: (paramsToString (sortParams (withoutToken search))).toList := by
    intro path search
    unfold canonicalizePathWithQuery
    simp only
    split
    · right
      rw [String.toList_append, String.toList_append, List.append_assoc]
      rfl
    · next hlength =>
      left
      have hempty : paramsToString (sortParams (withoutToken search)) = "" := by
        refine String.toList_inj.mp (List.length_eq_zero_iff.mp ?_)
        rw [String.length_toList]
        exact Nat.eq_zero_of_not_pos hlength
      exact ⟨paramsToString_eq_empty_iff.mp hempty, rfl⟩
  rcases hform gitPath search with ⟨hnone, hp⟩ | hp
  · rcases hform gitPath' search' with ⟨hnone', hp'⟩ | hp'
    · rw [hp, hp'] at h
      exact ⟨h, hnone.trans hnone'.symm⟩
    · rw [← h, hp] at hp'
      refine absurd ?_ hpath
      rw [hp']
      exact List.mem_append_right _ List.mem_cons_self
  · rcases hform gitPath' search' with ⟨-, hp'⟩ | hp'
    · rw [h, hp'] at hp
      refine absurd ?_ hpath'
      rw [hp]
      exact List.mem_append_right _ List.mem_cons_self
    · rw [h, hp'] at hp
      obtain ⟨hsame, hquery⟩ := Lines.first_line_inj hpath' hpath hp
      exact ⟨(String.toList_inj.mp hsame).symm,
        (paramsToString_injective (String.toList_inj.mp hquery)).symm⟩

/-! ## Hashes -/

theorem textEncode_injective : Function.Injective textEncode := utf8_injective

theorem sha256HexBytes_injective (H : GitCacheHost) : Function.Injective H.sha256HexBytes :=
  toHex_injective.comp H.sha256_injective

/-- Only a line break has itself as its upper case. -/
theorem eq_newline_of_toUpper {c : Char} (h : c.toUpper = '\n') : c = '\n' := by
  unfold Char.toUpper at h
  split at h
  · next hlower =>
    have hval := congrArg Char.val h
    have hlow := hlower.1
    -- The code of a line break is no lower-case letter's code less 32.
    dsimp only at hval
    rw [← UInt32.eq_sub_iff_add_eq] at hval
    rw [hval] at hlow
    exact absurd hlow (by decide)
  · exact h

/-- The upper case of a token has no line break. -/
theorem newline_notMem_upperMethod {method : String} (h : isHeaderName method = true) :
    '\n' ∉ (upperMethod method).toList := by
  unfold upperMethod
  rw [String.toList_ofList, List.mem_map]
  rintro ⟨c, hc, hupper⟩
  have hall := (Bool.and_eq_true _ _ ▸ h).2
  have htoken := List.all_eq_true.mp hall c hc
  rw [eq_newline_of_toUpper hupper] at htoken
  revert htoken
  decide

theorem newline_notMem_hash (H : GitCacheHost) (bytes : Bytes) :
    '\n' ∉ (H.sha256HexBytes bytes).toList := by
  intro h
  have hdigit := isLowerHexDigit_of_mem_toHex h
  revert hdigit
  decide

/-- The lines of a hashed description are its method, its path and its body. -/
theorem description_inj {method method' path path' hash hash' : String}
    (hmethod : '\n' ∉ method.toList) (hmethod' : '\n' ∉ method'.toList)
    (hhash : '\n' ∉ hash.toList) (hhash' : '\n' ∉ hash'.toList)
    (h : method ++ "\n" ++ path ++ "\n" ++ hash = method' ++ "\n" ++ path' ++ "\n" ++ hash') :
    method = method' ∧ path = path' ∧ hash = hash' := by
  have hlist : ∀ method path hash : String, (method ++ "\n" ++ path ++ "\n" ++ hash).toList =
      method.toList ++ '\n' :: (path.toList ++ Lines.block '\n' [hash.toList]) := by
    intro method path hash
    simp only [String.toList_append, Lines.block, List.flatMap_cons, List.flatMap_nil,
      List.append_nil, List.append_assoc]
    rfl
  have heq := congrArg String.toList h
  rw [hlist, hlist] at heq
  obtain ⟨hfirst, hrest⟩ := Lines.first_line_inj hmethod hmethod' heq
  obtain ⟨hmiddle, hlast⟩ := Lines.append_block_inj hrest rfl
    (fun l hl => by rwa [List.mem_singleton.mp hl]) (fun l hl => by rwa [List.mem_singleton.mp hl])
  exact ⟨String.toList_inj.mp hfirst, String.toList_inj.mp hmiddle,
    String.toList_inj.mp (List.cons.inj hlast).1⟩

/-! ## Sessions and storage keys -/

theorem slash_notMem_normalizeSessionId (sessionId : String) :
    '/' ∉ (normalizeSessionId sessionId).toList := by
  unfold normalizeSessionId
  rw [String.toList_ofList, List.mem_flatMap]
  rintro ⟨c, -, hc⟩
  split at hc
  · revert hc
    decide
  · next hslash => exact hslash (List.mem_singleton.mp hc).symm

theorem isJsSpace_of_isLowerHexDigit {c : Char} (h : isLowerHexDigit c = true) :
    isJsSpace c = false := by
  refine isJsSpace_of_isNameChar ?_
  unfold isLowerHexDigit at h
  unfold isNameChar
  rw [isAlphanum_eq]
  rcases Bool.or_eq_true _ _ ▸ h with hdigit | hletter
  · rw [hdigit, Bool.or_true, Bool.true_or, Bool.true_or, Bool.true_or]
  · have hall : (['a', 'b', 'c', 'd', 'e', 'f'].all fun d =>
        d.isUpper || d.isLower || d.isDigit || d == '.' || d == '_' || d == '-') = true := by decide
    exact List.all_eq_true.mp hall c (of_decide_eq_true hletter)

variable {H : GitCacheHost} {r r' : GitRelayRequest}

/-- A key has no whitespace that the store could trim. -/
theorem trimmed_key (hr : r.Admitted) (hash : Bytes) :
    Trimmed ("git/" ++ normalizeSessionId r.sessionId ++ "/" ++ toHex hash) := by
  refine trimmed_of_nospace fun c hc => ?_
  simp only [String.toList_append, List.mem_append] at hc
  have hspace : ∀ text : String, (text.toList.all fun d => !isJsSpace d) = true →
      c ∈ text.toList → isJsSpace c = false := by
    intro text hall hmem
    exact (Bool.not_eq_true' _).mp (List.all_eq_true.mp hall c hmem)
  rcases hc with ((hc | hc) | hc) | hc
  · exact hspace "git/" (by decide) hc
  · unfold normalizeSessionId at hc
    rw [String.toList_ofList, List.mem_flatMap] at hc
    obtain ⟨d, hd, hcd⟩ := hc
    split at hcd
    · have hmark : c = '_' := by
        rcases List.mem_cons.mp hcd with h | h
        · exact h
        · exact List.mem_singleton.mp h
      rw [hmark]
      decide
    · next hslash =>
      rw [List.mem_singleton.mp hcd]
      rcases hr.sessionId d hd with hname | hd
      · exact isJsSpace_of_isNameChar hname
      · exact absurd hd hslash
  · exact hspace "/" (by decide) hc
  · exact isJsSpace_of_isLowerHexDigit (isLowerHexDigit_of_mem_toHex hc)

end GitCacheKeyLemmas

open GitCacheKeyLemmas

namespace GitRelayRequest

variable {H : GitCacheHost} {r r' : GitRelayRequest}

/-- The text whose hash is the second part of the key. -/
def description (H : GitCacheHost) (r : GitRelayRequest) (bodyBytes : Bytes) : String :=
  upperMethod r.method ++ "\n" ++
    canonicalizePathWithQuery ("/" ++ r.gitSubPath) r.request.request.query ++ "\n" ++
    H.sha256HexBytes bodyBytes

/-- The path of a cached request ends before the query. -/
theorem Admitted.question_notMem (hr : r.Admitted) : '?' ∉ ("/" ++ r.gitSubPath).toList := by
  intro h
  refine hr.path ?_
  rw [hr.pathname, String.append_assoc]
  rw [String.toList_append]
  exact List.mem_append_right _ h

theorem storageKey_eq (hr : r.Admitted) :
    r.storageKey H = (hashedBody r.request).map fun bodyBytes =>
      toStorageKey (classifyKind ("/" ++ r.gitSubPath))
        ("git/" ++ normalizeSessionId r.sessionId ++ "/" ++
          H.sha256HexBytes (textEncode (r.description H bodyBytes))) := by
  unfold storageKey cacheKey buildGitCacheKeyFromRequest
  cases hashedBody r.request with
  | none => rfl
  | some bodyBytes =>
    have hnormal : ∀ hash : Bytes,
        normalizeKey ("git/" ++ normalizeSessionId r.sessionId ++ "/" ++ toHex hash) =
          .ok ("git/" ++ normalizeSessionId r.sessionId ++ "/" ++ toHex hash) := by
      intro hash
      refine normalizeKey_trimmed (trimmed_key hr hash) fun hempty => ?_
      have hlist := congrArg String.toList hempty
      simp only [String.toList_append, List.append_assoc] at hlist
      cases hlist
    simp only [Option.map_some, Option.bind_some]
    unfold GitCacheKey.storageKey
    simp only
    unfold GitCacheHost.sha256HexBytes at hnormal ⊢
    rw [hnormal]
    rfl

/-- Two requests have one storage key exactly when they agree in all that it is made of. -/
theorem storageKey_eq_iff (hr : r.Admitted) (hr' : r'.Admitted) {key : String}
    (hkey : r.storageKey H = some key) : r'.storageKey H = some key ↔ SameCacheKey r r' := by
  rw [storageKey_eq hr, Option.map_eq_some_iff] at hkey
  obtain ⟨bodyBytes, hbody, rfl⟩ := hkey
  rw [storageKey_eq hr', Option.map_eq_some_iff]
  constructor
  · rintro ⟨bodyBytes', hbody', hkey⟩
    obtain ⟨-, hkey⟩ := toStorageKey_inj hkey
    have hparts : ∀ part hash : String, "git/" ++ part ++ "/" ++ hash = "git" ++ "/" ++
        (part ++ "/" ++ hash) := by
      intro part hash
      simp only [String.append_assoc]
      rfl
    rw [hparts, hparts] at hkey
    obtain ⟨-, hkey⟩ := slash_inj (by decide) (by decide) hkey
    obtain ⟨hsession, hhash⟩ := slash_inj (slash_notMem_normalizeSessionId _)
      (slash_notMem_normalizeSessionId _) hkey
    have hdescription := textEncode_injective (sha256HexBytes_injective H hhash)
    obtain ⟨hmethod, hpath, hbytes⟩ := description_inj (newline_notMem_upperMethod hr'.method)
      (newline_notMem_upperMethod hr.method) (newline_notMem_hash H _) (newline_notMem_hash H _)
      hdescription
    obtain ⟨hpath, hquery⟩ := canonicalizePathWithQuery_inj hr'.question_notMem
      hr.question_notMem hpath
    have hsame : bodyBytes' = bodyBytes := sha256HexBytes_injective H hbytes
    exact {
      session := hsession.symm
      method := hmethod.symm
      path := (append_right_inj hpath).symm
      query := hquery.symm
      body := by rw [hbody, hbody', hsame] }
  · intro h
    refine ⟨bodyBytes, h.body.symm.trans hbody, ?_⟩
    unfold description canonicalizePathWithQuery
    rw [h.session, h.method, h.path, h.query]

end GitRelayRequest

end BitRelay
