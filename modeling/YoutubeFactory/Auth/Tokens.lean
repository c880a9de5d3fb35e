import Mathlib.Data.List.Basic

/-!
# Sessions and refresh tokens

`app/services/token_service.py` over the tables of `app/models/auth.py`, and
`session_scope` of `app/db/session.py`.  Rows are never removed from a table, so a
row's position is its id.

A call gives its result together with the tables as it has written them, also when
it raises: whether the writes are kept is decided by `sessionScope`.
-/

namespace YoutubeFactory.Auth

/-! ## Tables -/

abbrev Id := Nat

/-- Seconds since the epoch, UTC. -/
abbrev DateTime := Int

structure User where
  isActive : Bool

/-- `RequestContext` -/
structure RequestContext where
  ipAddress : Option String
  userAgent : Option String
  browser : Option String
  os : Option String
  device : Option String

structure Session where
  userId : Id
  context : RequestContext
  lastActivity : Option DateTime
  revokedAt : Option DateTime

structure RefreshToken where
  userId : Id
  sessionId : Id
  tokenHash : String
  expiresAt : DateTime
  revokedAt : Option DateTime
  rotatedTo : Option Id

structure AuthDb where
  users : List User
  sessions : List Session
  refreshTokens : List RefreshToken

/-- `IssuedTokens` -/
structure IssuedTokens where
  accessToken : String
  refreshToken : String
  expiresIn : Int

inductive AuthError where
  | unauthorized (message : String)
  /-- A token hash that is already stored: the column is unique. -/
  | integrity
deriving DecidableEq, Repr

/-- The settings, and the functions of `app/security`. -/
structure Security where
  refreshTokenExpireDays : Int
  accessTokenExpireMinutes : Int
  createAccessToken : (userId sessionId : Id) → String
  hashToken : String → String

/-- The row of a new refresh token. -/
def Security.refreshToken (security : Security) (userId sessionId : Id) (raw : String)
    (now : DateTime) : RefreshToken where
  userId
  sessionId
  tokenHash := security.hashToken raw
  expiresAt := now + security.refreshTokenExpireDays * 86400
  revokedAt := none
  rotatedTo := none

/-! ## Token service -/

/-- A call's result and the tables it has written. -/
abbrev Outcome (α : Type) := Except AuthError α × AuthDb

namespace AuthDb

/-- `RefreshTokenRepository.get_by_hash`, with the id of the row. -/
def tokenByHash (db : AuthDb) (hash : String) : Option Id :=
  db.refreshTokens.findIdx? fun t => t.tokenHash = hash

/-- The row of an id. -/
def getToken (db : AuthDb) (id : Id) : Option RefreshToken := db.refreshTokens[id]?

def getSession (db : AuthDb) (id : Id) : Option Session := db.sessions[id]?

/-- `create_session` -/
def createSession (db : AuthDb) (userId : Id) (context : RequestContext) (now : DateTime) :
    Id × AuthDb :=
  (db.sessions.length,
    { db with
      sessions := db.sessions ++
        [{ userId, context, lastActivity := some now, revokedAt := none }] })

/-- `issue_tokens`.  `raw` is the token `generate_token` returns. -/
def issueTokens (db : AuthDb) (security : Security) (userId sessionId : Id) (raw : String)
    (now : DateTime) : Outcome IssuedTokens :=
  if db.refreshTokens.any fun t => t.tokenHash = security.hashToken raw then
    (.error .integrity, db)
  else
    (.ok { accessToken := security.createAccessToken userId sessionId
           refreshToken := raw
           expiresIn := security.accessTokenExpireMinutes * 60 },
      { db with
        refreshTokens := db.refreshTokens ++ [security.refreshToken userId sessionId raw now] })

/-- `session.revoked_at = now` -/
def markSessionRevoked (db : AuthDb) (sessionId : Id) (now : DateTime) : AuthDb :=
  { db with sessions := db.sessions.modify sessionId fun s => { s with revokedAt := some now } }

/-- `RefreshTokenRepository.revoke_for_session` -/
def revokeForSession (db : AuthDb) (sessionId : Id) (now : DateTime) : AuthDb :=
  { db with
    refreshTokens := db.refreshTokens.map fun t =>
      if t.sessionId = sessionId ∧ t.revokedAt = none then { t with revokedAt := some now }
      else t }

/-- The old token linked to its successor, and the activity of the session. -/
def consume (db : AuthDb) (tokenId : Id) (sessionId : Id) (successor : Option Id)
    (now : DateTime) : AuthDb :=
  { db with
    refreshTokens := db.refreshTokens.modify tokenId fun t =>
      { t with revokedAt := some now, rotatedTo := successor }
    sessions := db.sessions.modify sessionId fun s => { s with lastActivity := some now } }

/-- The checks of `rotate` on a token that is not consumed. -/
def refusal (db : AuthDb) (token : RefreshToken) (now : DateTime) : Option String :=
  if token.expiresAt < now then some "Refresh token has expired."
  else if (db.getSession token.sessionId).all fun s => s.revokedAt.isSome then
    some "Session is no longer active."
  else if (db.users[token.userId]?).all fun u => !u.isActive then
    some "User is no longer active."
  else none

/-- `rotate` -/
def rotate (db : AuthDb) (security : Security) (rawRefresh fresh : String)
    (now later : DateTime) : Outcome IssuedTokens :=
  match db.tokenByHash (security.hashToken rawRefresh) with
  | none => (.error (.unauthorized "Invalid refresh token."), db)
  | some tokenId =>
      match db.getToken tokenId with
      | none => (.error (.unauthorized "Invalid refresh token."), db)
      | some token =>
          if token.revokedAt.isSome ∨ token.rotatedTo.isSome then
            -- Reuse of a consumed token: the session is revoked, then the call raises.
            (.error (.unauthorized "Refresh token has already been used."),
              (db.revokeForSession token.sessionId later).markSessionRevoked token.sessionId now)
          else
            match db.refusal token now with
            | some message => (.error (.unauthorized message), db)
            | none =>
                match db.issueTokens security token.userId token.sessionId fresh later with
                | (.error e, db') => (.error e, db')
                | (.ok issued, db') =>
                    let successor := db'.tokenByHash (security.hashToken issued.refreshToken)
                    (.ok issued, db'.consume tokenId token.sessionId successor now)

/-- `revoke_session` -/
def revokeSession (db : AuthDb) (sessionId : Id) (now later : DateTime) : AuthDb :=
  let marked :=
    if (db.getSession sessionId).any fun s => s.revokedAt = none then
      db.markSessionRevoked sessionId now
    else db
  marked.revokeForSession sessionId later

/-- `SessionRepository.list_active_for_user` -/
def activeSessions (db : AuthDb) (userId : Id) : List Id :=
  (List.range db.sessions.length).filter fun id =>
    (db.getSession id).any fun s => s.userId = userId ∧ s.revokedAt = none

/-- `revoke_all_for_user`, with one reading of the clock for all its sessions. -/
def revokeAllForUser (db : AuthDb) (userId : Id) (now later : DateTime) : AuthDb :=
  (db.activeSessions userId).foldl (fun db id => db.revokeSession id now later) db

end AuthDb

/-! ## Requests -/

/-- `session_scope`: the writes are committed when the body returns and rolled back
when it raises. -/
def sessionScope {α : Type} (db : AuthDb) (body : AuthDb → Outcome α) : AuthDb :=
  match body db with
  | (.ok _, db') => db'
  | (.error _, _) => db

/-- The requests of a history.  `fresh` is the token generated during the request. -/
inductive Request where
  | login (userId : Id) (context : RequestContext) (fresh : String) (now later : DateTime)
  | refresh (rawRefresh fresh : String) (now later : DateTime)
  | revokeSession (sessionId : Id) (now later : DateTime)
  | revokeAll (userId : Id) (now later : DateTime)

namespace Request

/-- When the request is handled. -/
def time : Request → DateTime
  | .login _ _ _ now _ => now
  | .refresh _ _ now _ => now
  | .revokeSession _ now _ => now
  | .revokeAll _ now _ => now

/-- The calls a request makes. -/
def body (security : Security) (request : Request) (db : AuthDb) : Outcome Unit :=
  match request with
  | .login userId context fresh now later =>
      let (sessionId, db') := db.createSession userId context now
      let (result, db'') := db'.issueTokens security userId sessionId fresh later
      (result.map fun _ => (), db'')
  | .refresh rawRefresh fresh now later =>
      let (result, db') := db.rotate security rawRefresh fresh now later
      (result.map fun _ => (), db')
  | .revokeSession sessionId now later => (.ok (), db.revokeSession sessionId now later)
  | .revokeAll userId now later => (.ok (), db.revokeAllForUser userId now later)

/-- One request in its own transaction. -/
def step (security : Security) (db : AuthDb) (request : Request) : AuthDb :=
  sessionScope db (request.body security)

end Request

end YoutubeFactory.Auth
