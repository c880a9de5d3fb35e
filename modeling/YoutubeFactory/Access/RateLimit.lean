import YoutubeFactory.Access.ApiKeys

/-!
# The rate limit of a key

`RateLimitMiddleware` of `app/middleware/rate_limit.py` picks the credential it counts a
request by on its own, before `get_api_principal` picks the one it authenticates.  The
middleware looks at `X-API-Key` first and the dependency at `Authorization`, and the
middleware looks for the prefix before it strips the header.

So a request is counted in the bucket of its key exactly when both pick the same one
(`counted_by_key_iff`).
-/

namespace YoutubeFactory.Access

open Python

/-! ## The middleware -/

/-- `API_KEY_PREFIX` -/
def API_KEY_PREFIX : String := "ayf_"

/-- `_API_KEY_MAX_REQUESTS` -/
def API_KEY_MAX_REQUESTS : Nat := 120

/-- `_MAX_REQUESTS` -/
def MAX_REQUESTS : Nat := 300

/-- `scheme.lower() == "bearer"`: only ASCII capitals have a lower case in it. -/
def isBearer (scheme : String) : Bool := scheme.toList.map Char.toLower = "bearer".toList

/-- The scheme of an `Authorization` header and the stripped rest of it. -/
def schemeAndToken (authorization : Option String) : String × String :=
  let (scheme, rest) := cut ' ' (authorization.getD "")
  (scheme, strip (rest.getD ""))

/-- `_presented_key` -/
def RequestHeaders.presentedKey (headers : RequestHeaders) : Option String :=
  let explicit := headers.xApiKey.getD ""
  if explicit ≠ "" ∧ startsWith explicit API_KEY_PREFIX = true then some (strip explicit)
  else
    let (scheme, token) := schemeAndToken headers.authorization
    if isBearer scheme = true ∧ startsWith token API_KEY_PREFIX = true then some token else none

/-- The bucket of a credential.  `digest` is the start of its SHA-256. -/
def keyBucket (digest : String → String) (credential : String) : String :=
  "ratelimit:key:" ++ digest credential

-- The equation that `rw [keyBucket]` would make compares the texts letter by letter.
theorem keyBucket_eq (digest : String → String) (credential : String) :
    keyBucket digest credential = "ratelimit:key:" ++ digest credential := rfl

/-- `_bucket`: the counter of a request and its budget. -/
def RequestHeaders.bucket (digest : String → String) (headers : RequestHeaders) : String × Nat :=
  match headers.presentedKey with
  | some presented =>
      if presented = "" then byAddress else (keyBucket digest presented, API_KEY_MAX_REQUESTS)
  | none => byAddress
where
  byAddress : String × Nat :=
    ("ratelimit:ip:" ++ headers.clientHost.getD "anonymous", MAX_REQUESTS)

/-- `dispatch` with a working client: the counters of the window, and whether the request
is passed on. -/
def dispatch (digest : String → String) (counters : String → Nat) (headers : RequestHeaders) :
    (String → Nat) × Bool :=
  let (key, budget) := headers.bucket digest
  let count := counters key + 1
  (Function.update counters key count, decide (count ≤ budget))

/-! ## The documented behaviour of `HTTPBearer` -/

/-- `HTTPBearer(auto_error=False)` gives the rest of a header of the scheme `Bearer`, with or
without the blanks around it, and nothing for another scheme or an empty rest. -/
structure HttpBearer (bearer : Option String → Option String) : Prop where
  other : ∀ a, isBearer (schemeAndToken a).1 = false → bearer a = none
  empty : ∀ a c, (schemeAndToken a).2 = "" → bearer a = some c → strip c = ""
  given : ∀ a, isBearer (schemeAndToken a).1 = true → (schemeAndToken a).2 ≠ "" →
    ∃ c, bearer a = some c ∧ strip c = (schemeAndToken a).2

/-! ## Requests that are counted by their key -/

/-- The API authenticates the request as the key of that id, by a credential. -/
def AuthenticatedAs (library : KeyLibrary) (keys : List ApiKey) (headers : RequestHeaders)
    (now later : DateTime) (keyId : Id) (credential : String) : Prop :=
  (headers.credential library).map strip = some credential ∧
    ∃ principal keys', getApiPrincipal library keys headers now later = .ok (principal, keys') ∧
      principal.keyId = keyId

/-- The headers lead the middleware to the credential that is authenticated.  With a bearer
token: `X-API-Key` does not start with the prefix and the token does, or `X-API-Key` holds
the same key.  Without one: `X-API-Key` starts with the prefix. -/
def RequestHeaders.Agrees (digest : String → String) (headers : RequestHeaders) : Prop :=
  let explicit := headers.xApiKey.getD ""
  let (scheme, token) := schemeAndToken headers.authorization
  if isBearer scheme = true ∧ token ≠ "" then
    if startsWith explicit API_KEY_PREFIX = true then digest (strip explicit) = digest token
    else startsWith token API_KEY_PREFIX = true
  else startsWith explicit API_KEY_PREFIX = true

/-- The request is counted in the bucket of the credential. -/
def CountedBy (digest : String → String) (headers : RequestHeaders) (credential : String) :
    Prop :=
  ∀ counters, (dispatch digest counters headers).1 =
    Function.update counters (keyBucket digest credential)
      (counters (keyBucket digest credential) + 1)

section

variable {digest : String → String} {headers : RequestHeaders} {credential : String}

theorem startsWith_empty : startsWith "" API_KEY_PREFIX = false := by decide

theorem ne_empty_of_startsWith {text : String} (h : startsWith text API_KEY_PREFIX = true) :
    text ≠ "" := by
  rintro rfl
  rw [startsWith_empty] at h
  cases h

theorem presentedKey_of_explicit
    (h : startsWith (headers.xApiKey.getD "") API_KEY_PREFIX = true) :
    headers.presentedKey = some (strip (headers.xApiKey.getD "")) :=
  if_pos ⟨ne_empty_of_startsWith h, h⟩

theorem presentedKey_of_not_explicit
    (h : ¬ startsWith (headers.xApiKey.getD "") API_KEY_PREFIX = true) :
    headers.presentedKey =
      if isBearer (schemeAndToken headers.authorization).1 = true ∧
          startsWith (schemeAndToken headers.authorization).2 API_KEY_PREFIX = true then
        some (schemeAndToken headers.authorization).2
      else none :=
  if_neg fun hboth => h hboth.2

/-- The credential the middleware picks is never blank. -/
theorem presentedKey_ne_empty {presented : String} (h : headers.presentedKey = some presented) :
    presented ≠ "" := by
  by_cases hexplicit : startsWith (headers.xApiKey.getD "") API_KEY_PREFIX = true
  · rw [presentedKey_of_explicit hexplicit, Option.some.injEq] at h
    rw [← h]
    exact @strip_ne_empty _ API_KEY_PREFIX 'a' hexplicit (by decide) (by decide)
  · rw [presentedKey_of_not_explicit hexplicit] at h
    split at h
    · next hboth =>
        rw [Option.some.injEq] at h
        exact h ▸ ne_empty_of_startsWith hboth.2
    · cases h

theorem keyBucket_inj {a b : String} (h : keyBucket digest a = keyBucket digest b) :
    digest a = digest b := by
  have hletters := congrArg String.toList h
  rw [keyBucket_eq, keyBucket_eq, String.toList_append, String.toList_append] at hletters
  exact String.toList_inj.mp (List.append_cancel_left hletters)

theorem address_ne_keyBucket (host : String) :
    "ratelimit:ip:" ++ host ≠ keyBucket digest credential := by
  intro h
  have hletters := congrArg String.toList h
  rw [keyBucket_eq, String.toList_append, String.toList_append] at hletters
  have hletter : some 'i' = some 'k' := congrArg (fun letters => letters[10]?) hletters
  cases hletter

theorem bucket_eq_iff : (headers.bucket digest).1 = keyBucket digest credential ↔
    ∃ presented, headers.presentedKey = some presented ∧ digest presented = digest credential := by
  unfold RequestHeaders.bucket RequestHeaders.bucket.byAddress
  cases hpresented : headers.presentedKey with
  | none => exact iff_of_false (address_ne_keyBucket _) (by simp)
  | some presented =>
      dsimp only
      rw [if_neg (presentedKey_ne_empty hpresented)]
      constructor
      · exact fun h => ⟨presented, rfl, keyBucket_inj h⟩
      · rintro ⟨found, hfound, hdigest⟩
        cases hfound
        rw [keyBucket_eq, keyBucket_eq, hdigest]

theorem countedBy_iff :
    CountedBy digest headers credential ↔
      (headers.bucket digest).1 = keyBucket digest credential := by
  constructor
  · intro h
    by_contra hne
    have hcount := congrFun (h fun _ => 0) (keyBucket digest credential)
    simp [dispatch, Function.update_of_ne (Ne.symm hne)] at hcount
  · intro h counters
    simp only [dispatch, h]

end

/-- The middleware counts a request in the bucket of the key that the API authenticates
exactly when the headers lead both to one credential. -/
theorem counted_by_key_iff (library : KeyLibrary) (hbearer : HttpBearer library.bearer)
    (digest : String → String) (keys : List ApiKey) (headers : RequestHeaders)
    (now later : DateTime) (keyId : Id) (credential : String)
    (hauthenticated : AuthenticatedAs library keys headers now later keyId credential) :
    CountedBy digest headers credential ↔ headers.Agrees digest := by
  obtain ⟨hcredential, principal, keys', hprincipal, -⟩ := hauthenticated
  obtain ⟨key, ⟨raw, hraw, hkey, -⟩, -⟩ := getApiPrincipal_ok hprincipal
  rw [hraw, Option.map_some, Option.some.injEq] at hcredential
  rw [hcredential] at hkey
  rw [countedBy_iff, bucket_eq_iff, RequestHeaders.Agrees]
  dsimp only
  by_cases hbearerToken : isBearer (schemeAndToken headers.authorization).1 = true ∧
      (schemeAndToken headers.authorization).2 ≠ ""
  · -- The dependency takes the bearer token.
    obtain ⟨found, hfound, htoken⟩ := hbearer.given _ hbearerToken.1 hbearerToken.2
    have hsame : credential = (schemeAndToken headers.authorization).2 := by
      rw [RequestHeaders.credential, hfound, Option.some.injEq] at hraw
      rw [← hcredential, ← hraw, htoken]
    rw [if_pos hbearerToken, hsame]
    by_cases hexplicit : startsWith (headers.xApiKey.getD "") API_KEY_PREFIX = true
    · rw [if_pos hexplicit, presentedKey_of_explicit hexplicit]
      simp
    · rw [if_neg hexplicit, presentedKey_of_not_explicit hexplicit]
      by_cases htoken : startsWith (schemeAndToken headers.authorization).2 API_KEY_PREFIX = true
      · rw [if_pos ⟨hbearerToken.1, htoken⟩]
        exact iff_of_true ⟨_, rfl, rfl⟩ htoken
      · rw [if_neg fun hboth => htoken hboth.2]
        exact iff_of_false (by simp) htoken
  · -- It takes `X-API-Key`: a blank token is no key.
    have hnone : library.bearer headers.authorization = none := by
      cases hfound : library.bearer headers.authorization with
      | none => rfl
      | some found =>
          rw [RequestHeaders.credential, hfound, Option.some.injEq] at hraw
          rcases Bool.eq_false_or_eq_true (isBearer (schemeAndToken headers.authorization).1)
            with hscheme | hscheme
          · have hblank : (schemeAndToken headers.authorization).2 = "" :=
              not_not.mp fun hne => hbearerToken ⟨hscheme, hne⟩
            have hempty : strip found = "" := hbearer.empty _ found hblank hfound
            rw [hraw, hcredential] at hempty
            exact absurd hempty hkey.ne_empty
          · rw [hbearer.other _ hscheme] at hfound
            cases hfound
    have hexplicit : headers.xApiKey.getD "" = raw := by
      rw [RequestHeaders.credential, hnone] at hraw
      dsimp only at hraw
      rw [hraw, Option.getD_some]
    rw [if_neg hbearerToken]
    by_cases hstarts : startsWith (headers.xApiKey.getD "") API_KEY_PREFIX = true
    · rw [presentedKey_of_explicit hstarts, hexplicit, hcredential]
      rw [hexplicit] at hstarts
      exact iff_of_true ⟨_, rfl, rfl⟩ hstarts
    · rw [presentedKey_of_not_explicit hstarts, if_neg]
      · exact iff_of_false (by simp) hstarts
      · exact fun hboth => hbearerToken ⟨hboth.1, ne_empty_of_startsWith hboth.2⟩

/-- A key that can be used is authenticated. -/
theorem authenticatedAs_of_usable {library : KeyLibrary} {keys : List ApiKey}
    {headers : RequestHeaders} {now : DateTime} {keyId : Id} {key : ApiKey} {credential : String}
    (hcredential : (headers.credential library).map strip = some credential)
    (h : headers.Presents library keys keyId key) (husable : key.Usable now) (later : DateTime) :
    AuthenticatedAs library keys headers now later keyId credential :=
  ⟨hcredential, _, _, getApiPrincipal_of_usable h husable later, rfl⟩

/-- A credential is of one key. -/
theorem AuthenticatedAs.unique {library : KeyLibrary} {keys : List ApiKey}
    {headers headers' : RequestHeaders} {now later now' later' : DateTime} {keyId keyId' : Id}
    {credential : String} (h : AuthenticatedAs library keys headers now later keyId credential)
    (h' : AuthenticatedAs library keys headers' now' later' keyId' credential) :
    keyId = keyId' := by
  obtain ⟨hcredential, principal, written, hprincipal, rfl⟩ := h
  obtain ⟨hcredential', principal', written', hprincipal', rfl⟩ := h'
  obtain ⟨key, ⟨raw, hraw, ⟨secret, hcut, -⟩, hfound, -⟩, -⟩ := getApiPrincipal_ok hprincipal
  obtain ⟨key', ⟨raw', hraw', ⟨secret', hcut', -⟩, hfound', -⟩, -⟩ :=
    getApiPrincipal_ok hprincipal'
  rw [hraw, Option.map_some, Option.some.injEq] at hcredential
  rw [hraw', Option.map_some, Option.some.injEq] at hcredential'
  rw [hcredential] at hcut
  rw [hcredential', hcut] at hcut'
  have hsame : key.keyPrefix = key'.keyPrefix := congrArg Prod.fst hcut'
  rw [hsame, hfound', Option.some.injEq] at hfound
  exact hfound.symm

/-- Requests of two keys that are counted by their own share a bucket only if the digest
has a collision. -/
theorem collision_of_shared_bucket {library : KeyLibrary} {digest : String → String}
    {keys : List ApiKey} {headers headers' : RequestHeaders} {now later now' later' : DateTime}
    {keyId keyId' : Id} {credential credential' : String}
    (h : AuthenticatedAs library keys headers now later keyId credential)
    (h' : AuthenticatedAs library keys headers' now' later' keyId' credential')
    (hkeys : keyId ≠ keyId') (hcounted : CountedBy digest headers credential)
    (hcounted' : CountedBy digest headers' credential')
    (hshared : (headers.bucket digest).1 = (headers'.bucket digest).1) :
    credential ≠ credential' ∧ digest credential = digest credential' := by
  rw [countedBy_iff] at hcounted hcounted'
  rw [hcounted, hcounted'] at hshared
  refine ⟨?_, keyBucket_inj hshared⟩
  rintro rfl
  exact hkeys (h.unique h')

/-! ## One key -/

/-- `HTTPBearer` as it splits the header at the first blank. -/
def splitBearer (authorization : Option String) : Option String :=
  let token := (cut ' ' (authorization.getD "")).2.getD ""
  if isBearer (schemeAndToken authorization).1 = true ∧ token ≠ "" then some token else none

theorem splitBearer_httpBearer : HttpBearer splitBearer where
  other a hscheme := by
    refine if_neg fun hboth => ?_
    rw [hscheme] at hboth
    cases hboth.1
  empty a c hblank hc := by
    have htoken : (cut ' ' (a.getD "")).2.getD "" = c := by
      by_cases hboth : isBearer (schemeAndToken a).1 = true ∧
          (cut ' ' (a.getD "")).2.getD "" ≠ ""
      · exact Option.some.inj ((if_pos hboth).symm.trans hc)
      · cases (if_neg hboth).symm.trans hc
    rw [← htoken]
    exact hblank
  given a hscheme htoken := by
    refine ⟨(cut ' ' (a.getD "")).2.getD "", if_pos ⟨hscheme, ?_⟩, rfl⟩
    intro hempty
    refine htoken ?_
    show strip ((cut ' ' (a.getD "")).2.getD "") = ""
    rw [hempty]
    rfl

/-- A library in which a text is its own hash. -/
def plainLibrary : KeyLibrary := ⟨id, splitBearer⟩

/-- Two keys of one user. -/
def sampleKeys : List ApiKey :=
  [⟨0, some 0, "build", "ayf_1", "one", ["video:read"], none, none, none, none⟩,
    ⟨0, some 0, "report", "ayf_2", "two", ["usage:read"], none, none, none, none⟩]

/-- Headers with the first of them. -/
theorem sample_authenticatedAs {headers : RequestHeaders} {raw : String}
    (hraw : headers.credential plainLibrary = some raw) (hstrip : strip raw = "ayf_1.one") :
    AuthenticatedAs plainLibrary sampleKeys headers 0 0 0 "ayf_1.one" := by
  have hcut : cut '.' "ayf_1.one" = ("ayf_1", some "one") := by decide +kernel
  refine authenticatedAs_of_usable (by rw [hraw, Option.map_some, hstrip]) ⟨raw, hraw, ?_, ?_, rfl⟩
    ⟨rfl, rfl, fun e he => ?_⟩ 0
  · exact ⟨"one", hstrip.symm ▸ hcut, rfl⟩
  · decide +kernel
  · cases he

/-- A key as a bearer token is counted as itself. -/
theorem bearer_key_counted :
    CountedBy id ⟨some "Bearer ayf_1.one", none, none⟩ "ayf_1.one" := by
  refine (counted_by_key_iff plainLibrary splitBearer_httpBearer id sampleKeys _ 0 0 0 _
    (@sample_authenticatedAs _ "ayf_1.one" (by decide +kernel) (by decide +kernel))).mpr ?_
  unfold RequestHeaders.Agrees
  exact (if_pos (by decide +kernel)).mpr ((if_neg (by decide)).mpr (by decide +kernel))

/-- Another key, or none, in the other header: the first request is counted by a key that
it does not use, and the second by its address. -/
theorem other_bucket_counted :
    let decoy : RequestHeaders := ⟨some "Bearer ayf_1.one", some "ayf_x", none⟩
    let blank : RequestHeaders := ⟨none, some " ayf_1.one", some "10.0.0.1"⟩
    AuthenticatedAs plainLibrary sampleKeys decoy 0 0 0 "ayf_1.one" ∧
      (decoy.bucket id).1 = "ratelimit:key:ayf_x" ∧ ¬ CountedBy id decoy "ayf_1.one" ∧
      AuthenticatedAs plainLibrary sampleKeys blank 0 0 0 "ayf_1.one" ∧
      (blank.bucket id).1 = "ratelimit:ip:10.0.0.1" ∧ ¬ CountedBy id blank "ayf_1.one" := by
  refine ⟨@sample_authenticatedAs _ "ayf_1.one" (by decide +kernel) (by decide +kernel),
    by decide +kernel, ?_,
    @sample_authenticatedAs _ " ayf_1.one" (by decide +kernel) (by decide +kernel),
    by decide +kernel, ?_⟩
  · rw [countedBy_iff]
    decide +kernel
  · rw [countedBy_iff]
    decide +kernel

end YoutubeFactory.Access
