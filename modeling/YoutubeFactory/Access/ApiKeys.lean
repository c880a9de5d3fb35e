import YoutubeFactory.Python.Text
import YoutubeFactory.Access.Rbac
import Mathlib.Data.List.Sort

/-!
# API keys

`ApiKeyService.authenticate` of `app/services/api_key.py`, the scopes of
`app/security/api_scopes.py` and the dependencies of `app/dependencies/api_auth.py`.
-/

namespace YoutubeFactory.Access

open Python

/-! ## Scopes -/

/-- `ALL_SCOPES` -/
def allScopes : List String :=
  ["video:read", "video:write", "channel:read", "project:read", "pipeline:read",
    "pipeline:write", "analytics:read", "usage:read"]

/-- `SCOPE_REQUIRES_PERMISSION` -/
def scopeRequiresPermission (scope : String) : Option String :=
  if scope = "video:write" then some "video.create"
  else if scope = "pipeline:write" then some "video.create"
  else if scope = "analytics:read" then some "analytics.read"
  else if scope = "usage:read" then some "billing.read"
  else none

/-! ## Keys -/

structure ApiKey where
  userId : Id
  organizationId : Option Id
  name : String
  keyPrefix : String
  secretHash : String
  scopes : List String
  expiresAt : Option DateTime
  lastUsedAt : Option DateTime
  revokedAt : Option DateTime
  deletedAt : Option DateTime

/-- The functions outside the application that authentication calls. -/
structure KeyLibrary where
  /-- `hash_token` -/
  hashToken : String → String
  /-- The credentials `HTTPBearer` reads from the `Authorization` header. -/
  bearer : Option String → Option String

/-- `ApiKeyRepository.get_by_prefix`, with the id of the key. -/
def keyByPrefix (keys : List ApiKey) (keyPrefix : String) : Option Id :=
  keys.findIdx? fun k => k.keyPrefix = keyPrefix

/-- `ApiKeyService.authenticate`, with the keys it leaves. -/
def authenticate (library : KeyLibrary) (keys : List ApiKey) (rawKey : String)
    (now later : DateTime) : Except ApiError (Id × List ApiKey) :=
  match cut '.' rawKey with
  | (_, none) => .error (.unauthorized "Malformed API key.")
  | (keyPrefix, some secret) =>
      match keyByPrefix keys keyPrefix with
      | none => .error (.unauthorized "Invalid API key.")
      | some keyId =>
          match keys[keyId]? with
          | none => .error (.unauthorized "Invalid API key.")
          | some key =>
              if key.revokedAt.isSome ∨ key.deletedAt.isSome then
                .error (.unauthorized "Invalid API key.")
              else if key.expiresAt.any fun e => e < now then
                .error (.unauthorized "API key has expired.")
              else if library.hashToken secret ≠ key.secretHash then
                .error (.unauthorized "Invalid API key.")
              else .ok (keyId, keys.set keyId { key with lastUsedAt := some later })

/-! ## Principals -/

structure ApiPrincipal where
  keyId : Id
  userId : Id
  organizationId : Option Id
  scopes : List String
  name : String

/-- `ApiPrincipal.from_key`: unknown scopes are dropped. -/
def ApiPrincipal.fromKey (keyId : Id) (key : ApiKey) : ApiPrincipal where
  keyId
  userId := key.userId
  organizationId := key.organizationId
  scopes := (key.scopes.filter fun s => s ∈ allScopes).dedup
  name := key.name

/-- The headers of a request that name a credential, and the address it comes from. -/
structure RequestHeaders where
  authorization : Option String
  xApiKey : Option String
  clientHost : Option String

/-- The credential `get_api_principal` takes. -/
def RequestHeaders.credential (library : KeyLibrary) (headers : RequestHeaders) :
    Option String :=
  match library.bearer headers.authorization with
  | some credentials => some credentials
  | none => headers.xApiKey

/-- `get_api_principal`, with the keys it leaves. -/
def getApiPrincipal (library : KeyLibrary) (keys : List ApiKey) (headers : RequestHeaders)
    (now later : DateTime) : Except ApiError (ApiPrincipal × List ApiKey) :=
  let raw := (headers.credential library).getD ""
  if raw = "" then
    .error (.unauthorized ("An API key is required. Send it as 'Authorization: Bearer <key>' " ++
      "or 'X-API-Key: <key>'."))
  else do
    let (keyId, keys') ← authenticate library keys (strip raw) now later
    match keys'[keyId]? with
    | none => .error (.unauthorized "Invalid API key.")
    | some key => return (ApiPrincipal.fromKey keyId key, keys')

/-- The scopes with quotes and commas, as `sorted(principal.scopes)`. -/
def ApiPrincipal.sortedScopes (principal : ApiPrincipal) : List String :=
  principal.scopes.insertionSort fun a b => strLe a b

/-- `require_scope`, of a scope that exists. -/
def ApiPrincipal.requireScope (principal : ApiPrincipal) (scope : String) :
    Except ApiError Unit :=
  if scope ∈ principal.scopes then .ok ()
  else
    .error (.forbidden s!"This API key does not have the '{scope}' scope."
      [("required", .str scope), ("granted", .list (principal.sortedScopes.map .str))])

/-- `require_organization` -/
def ApiPrincipal.requireOrganization (principal : ApiPrincipal) : Except ApiError Id :=
  match principal.organizationId with
  | none =>
      .error (.forbidden ("This API key is not bound to an organization and cannot access " ++
        "organization data. Create a key with an organization to use these endpoints.") [])
  | some organizationId => .ok organizationId

/-! ## What authentication checks -/

/-- The raw text is of this key: its prefix, and a secret of the stored hash. -/
def ApiKey.IsKey (library : KeyLibrary) (key : ApiKey) (rawKey : String) : Prop :=
  ∃ secret, cut '.' rawKey = (key.keyPrefix, some secret) ∧
    library.hashToken secret = key.secretHash

/-- The key can be used: it is neither revoked nor deleted, and has not expired. -/
structure ApiKey.Usable (key : ApiKey) (now : DateTime) : Prop where
  unrevoked : key.revokedAt = none
  undeleted : key.deletedAt = none
  unexpired : ∀ e ∈ key.expiresAt, now ≤ e

theorem authenticate_ok {library : KeyLibrary} {keys keys' : List ApiKey} {rawKey : String}
    {now later : DateTime} {keyId : Id}
    (h : authenticate library keys rawKey now later = .ok (keyId, keys')) :
    ∃ key, keys[keyId]? = some key ∧ keyByPrefix keys key.keyPrefix = some keyId ∧
      key.IsKey library rawKey ∧ key.Usable now ∧
      keys' = keys.set keyId { key with lastUsedAt := some later } := by
  unfold authenticate at h
  rcases hcut : cut '.' rawKey with ⟨keyPrefix, _ | secret⟩
  · rw [hcut] at h
    cases h
  · rw [hcut] at h
    dsimp only at h
    cases hfound : keyByPrefix keys keyPrefix with
    | none =>
        rw [hfound] at h
        cases h
    | some found =>
        rw [hfound] at h
        dsimp only at h
        cases hrow : keys[found]? with
        | none =>
            rw [hrow] at h
            cases h
        | some key =>
            rw [hrow] at h
            dsimp only at h
            split at h
            · cases h
            · next hlive =>
                split at h
                · cases h
                · next hexpired =>
                    split at h
                    · cases h
                    · next hhash =>
                        cases h
                        obtain ⟨hlt, hkeyed, -⟩ := List.findIdx?_eq_some_iff_getElem.mp hfound
                        have hkey : keys[keyId] = key := Option.some.inj
                          ((List.getElem?_eq_getElem hlt).symm.trans hrow)
                        rw [hkey] at hkeyed
                        have hkeyed : key.keyPrefix = keyPrefix := of_decide_eq_true hkeyed
                        refine ⟨key, hrow, hkeyed.symm ▸ hfound,
                          ⟨secret, by rw [hcut, hkeyed], not_not.mp hhash⟩,
                          ⟨?_, ?_, ?_⟩, rfl⟩
                        · simpa using (not_or.mp hlive).1
                        · simpa using (not_or.mp hlive).2
                        · intro e he
                          rw [Option.mem_def] at he
                          simpa [he] using hexpired

/-- Text without a separator is no key. -/
theorem ApiKey.IsKey.ne_empty {library : KeyLibrary} {key : ApiKey} {rawKey : String}
    (h : key.IsKey library rawKey) : rawKey ≠ "" := by
  rintro rfl
  obtain ⟨secret, hcut, -⟩ := h
  cases congrArg Prod.snd hcut

theorem authenticate_of_usable {library : KeyLibrary} {keys : List ApiKey} {rawKey : String}
    {now : DateTime} {keyId : Id} {key : ApiKey}
    (hfound : keyByPrefix keys key.keyPrefix = some keyId) (hrow : keys[keyId]? = some key)
    (hkey : key.IsKey library rawKey) (husable : key.Usable now) (later : DateTime) :
    authenticate library keys rawKey now later =
      .ok (keyId, keys.set keyId { key with lastUsedAt := some later }) := by
  obtain ⟨secret, hcut, hhash⟩ := hkey
  have hlive : ¬ (key.revokedAt.isSome ∨ key.deletedAt.isSome) := by
    simp [husable.unrevoked, husable.undeleted]
  have hexpired : ¬ key.expiresAt.any (fun e => e < now) = true := by
    cases hexpires : key.expiresAt with
    | none => simp
    | some e => simpa using husable.unexpired e hexpires
  unfold authenticate
  rw [hcut]
  dsimp only
  rw [hfound]
  dsimp only
  rw [hrow]
  dsimp only
  rw [if_neg hlive, if_neg hexpired, if_neg (not_not.mpr hhash)]

/-- The headers hold the key of that id: the first one with its prefix. -/
def RequestHeaders.Presents (library : KeyLibrary) (headers : RequestHeaders)
    (keys : List ApiKey) (keyId : Id) (key : ApiKey) : Prop :=
  ∃ raw, headers.credential library = some raw ∧ key.IsKey library (strip raw) ∧
    keyByPrefix keys key.keyPrefix = some keyId ∧ keys[keyId]? = some key

theorem getApiPrincipal_ok {library : KeyLibrary} {keys keys' : List ApiKey}
    {headers : RequestHeaders} {now later : DateTime} {principal : ApiPrincipal}
    (h : getApiPrincipal library keys headers now later = .ok (principal, keys')) :
    ∃ key, headers.Presents library keys principal.keyId key ∧ key.Usable now ∧
      principal = ApiPrincipal.fromKey principal.keyId key := by
  unfold getApiPrincipal at h
  dsimp only at h
  split at h
  · cases h
  · next hraw =>
      obtain ⟨raw, hcredential⟩ : ∃ raw, headers.credential library = some raw := by
        cases hcredential : headers.credential library with
        | none =>
            rw [hcredential] at hraw
            exact absurd rfl hraw
        | some raw => exact ⟨raw, rfl⟩
      rw [hcredential, Option.getD_some] at h
      obtain ⟨⟨keyId, written⟩, hauthenticate, h⟩ := Except.bind_eq_ok.mp h
      obtain ⟨key, hrow, hkeyed, hkey, husable, rfl⟩ := authenticate_ok hauthenticate
      have hlt : keyId < keys.length := (List.getElem?_eq_some_iff.mp hrow).1
      dsimp only at h
      rw [List.getElem?_set_self hlt] at h
      cases h
      exact ⟨key, ⟨raw, hcredential, hkey, hkeyed, hrow⟩, husable, rfl⟩

theorem getApiPrincipal_of_usable {library : KeyLibrary} {keys : List ApiKey}
    {headers : RequestHeaders} {now : DateTime} {keyId : Id} {key : ApiKey}
    (h : headers.Presents library keys keyId key) (husable : key.Usable now)
    (later : DateTime) :
    getApiPrincipal library keys headers now later =
      .ok (ApiPrincipal.fromKey keyId key,
        keys.set keyId { key with lastUsedAt := some later }) := by
  obtain ⟨raw, hcredential, hkey, hfound, hrow⟩ := h
  have hraw : raw ≠ "" := by
    rintro rfl
    exact hkey.ne_empty rfl
  have hlt : keyId < keys.length := (List.getElem?_eq_some_iff.mp hrow).1
  unfold getApiPrincipal
  rw [hcredential, Option.getD_some, if_neg hraw,
    authenticate_of_usable hfound hrow hkey husable later, Except.ok_bind]
  dsimp only
  rw [List.getElem?_set_self hlt]
  rfl

/-- The headers hold one key. -/
theorem RequestHeaders.Presents.unique {library : KeyLibrary} {headers : RequestHeaders}
    {keys : List ApiKey} {keyId keyId' : Id} {key key' : ApiKey}
    (h : headers.Presents library keys keyId key)
    (h' : headers.Presents library keys keyId' key') : keyId = keyId' ∧ key = key' := by
  obtain ⟨raw, hcredential, ⟨secret, hcut, -⟩, hfound, hrow⟩ := h
  obtain ⟨raw', hcredential', ⟨secret', hcut', -⟩, hfound', hrow'⟩ := h'
  rw [hcredential, Option.some.injEq] at hcredential'
  rw [← hcredential', hcut] at hcut'
  have hkeyed : key.keyPrefix = key'.keyPrefix := congrArg Prod.fst hcut'
  rw [hkeyed, hfound', Option.some.injEq] at hfound
  subst hfound
  rw [hrow, Option.some.injEq] at hrow'
  exact ⟨rfl, hrow'⟩

end YoutubeFactory.Access
