import YoutubeFactory.Lib.Transactions
import YoutubeFactory.Auth.AccountCalls

/-!
# Requests on sessions, step by step

The requests that open, use and revoke sessions, cut at their database steps: `login`,
`refresh`, `logout` and `reset_password` of `app/services/auth.py`, `terminate` and
`terminate_all` of `app/services/session_service.py`, over `app/services/token_service.py`, and
`get_current_user` of `app/dependencies/auth.py`, which stands before those that need a user.
Each request has its own transaction.

Ids are generated by the requests, so sessions and tokens carry theirs.  Users and reset tokens
are not inserted here, and have their position as id.  An object that a request has loaded is
taken from its identity map afterwards, and not read again.
-/

namespace YoutubeFactory.Auth

open Transactions

/-! ## Tables -/

structure SessionRow extends Session where
  id : Id

structure TokenRow extends RefreshToken where
  id : Id

structure SharedDb where
  users : List Account
  resetTokens : List OneTimeToken
  sessions : List SessionRow
  refreshTokens : List TokenRow
  auditLog : List AuditLog

/-- `TokenClaims` -/
structure Claims where
  subject : Id
  sessionId : Id
deriving DecidableEq, Repr

structure RequestEnv extends AuthEnv where
  /-- `decode_access_token` at a moment. -/
  decodeAccessToken : DateTime → String → Except AccountError Claims

namespace SharedDb

variable (db : SharedDb)

/-- The tables of the accounts. -/
def accounts : AccountDb where
  users := db.users
  sessions := []
  refreshTokens := []
  emailTokens := []
  resetTokens := db.resetTokens
  oauthAccounts := []
  auditLog := db.auditLog

/-- The session of an id. -/
def session (id : Id) : Option SessionRow := db.sessions.find? fun s => s.id = id

/-- `SessionRepository.list_active_for_user` -/
def activeSessions (userId : Id) : List SessionRow :=
  db.sessions.filter fun s => s.userId = userId ∧ s.revokedAt = none

/-- `RefreshTokenRepository.get_by_hash` -/
def tokenByHash (hash : String) : Except AccountError (Option (TokenRow × Id)) :=
  scalarOneOrNone db.refreshTokens fun t => t.tokenHash = hash

/-! ## Writes -/

/-- A new session.  Its id is a primary key. -/
def insertSession (row : SessionRow) : Change SharedDb := fun db =>
  if db.sessions.any fun s => s.id = row.id then none
  else some { db with sessions := db.sessions ++ [row] }

/-- A new token.  Its id is a primary key, and its hash is unique. -/
def insertToken (row : TokenRow) : Change SharedDb := fun db =>
  if db.refreshTokens.any fun t => t.id = row.id ∨ t.tokenHash = row.tokenHash then none
  else some { db with refreshTokens := db.refreshTokens ++ [row] }

/-- A change to the columns of a session. -/
def updateSession (id : Id) (change : SessionRow → SessionRow) : Change SharedDb := fun db =>
  some { db with sessions := db.sessions.map fun s => if s.id = id then change s else s }

/-- `session.revoked_at = now` -/
def markRevoked (id : Id) (now : DateTime) : Change SharedDb :=
  updateSession id fun s => { s with revokedAt := some now }

/-- `session.last_activity = now` -/
def touch (id : Id) (now : DateTime) : Change SharedDb :=
  updateSession id fun s => { s with lastActivity := some now }

/-- A change to the columns of the tokens that pass. -/
def updateTokens (passes : TokenRow → Bool) (change : TokenRow → TokenRow) : Change SharedDb :=
  fun db => some { db with
    refreshTokens := db.refreshTokens.map fun t => if passes t then change t else t }

/-- `RefreshTokenRepository.revoke_for_session` -/
def revokeForSession (sessionId : Id) (now : DateTime) : Change SharedDb :=
  updateTokens (fun t => t.sessionId = sessionId ∧ t.revokedAt = none)
    fun t => { t with revokedAt := some now }

/-- The old token of a rotation linked to its successor. -/
def consume (id : Id) (successor : Option Id) (now : DateTime) : Change SharedDb :=
  updateTokens (fun t => t.id = id) fun t =>
    { t with revokedAt := some now, rotatedTo := successor }

/-- A change to the columns of a user. -/
def updateUser (userId : Id) (change : Account → Account) : Change SharedDb := fun db =>
  some { db with users := db.users.modify userId change }

/-- `record.used_at = now` -/
def useResetToken (tokenId : Id) (now : DateTime) : Change SharedDb := fun db =>
  some { db with
    resetTokens := db.resetTokens.modify tokenId fun t => { t with usedAt := some now } }

/-- `AuditService.record`.  The actor is a foreign key. -/
def record (action : AuditAction) (actorId : Id) (targetType targetId ipAddress : Option String) :
    Change SharedDb := fun db =>
  if actorId < db.users.length then
    some { db with auditLog := db.auditLog ++
      [AuthService.entry action actorId targetType targetId ipAddress] }
  else none

end SharedDb

/-! ## Calls -/

/-- A call in a transaction. -/
abbrev Call := Program SharedDb AccountError

namespace Call

open Program SharedDb

/-- `get` of a session, from the identity map if it is there. -/
def getSession (loaded : List SessionRow) (id : Id) : Call (Option SessionRow) :=
  match loaded.find? fun s => s.id = id with
  | some row => pure (some row)
  | none => do
      let db ← tables
      pure (db.session id)

/-- `session.revoked_at = now`, on a condition. -/
def markIf (condition : Bool) (sessionId : Id) (now : DateTime) : Call Unit :=
  if condition then change (markRevoked sessionId now) else pure ()

/-- `revoke_session` -/
def revokeSession (loaded : List SessionRow) (sessionId : Id) (now later : DateTime) :
    Call Unit := do
  let found ← getSession loaded sessionId
  markIf (found.any fun s => s.revokedAt = none) sessionId now
  change (SharedDb.revokeForSession sessionId later)

/-- The loop of `revoke_all_for_user`, with one reading of the clock for all sessions. -/
def revokeEach (loaded : List SessionRow) (now later : DateTime) : List SessionRow → Call Unit
  | [] => pure ()
  | row :: rows => do
      revokeSession loaded row.id now later
      revokeEach loaded now later rows

/-- `revoke_all_for_user` -/
def revokeAllForUser (loaded : List SessionRow) (userId : Id) (now later : DateTime) :
    Call Unit := do
  let db ← tables
  let listed := db.activeSessions userId
  revokeEach (loaded ++ listed) now later listed

/-- `get_current_user`, once the access token is decoded. -/
def claimedUser (claims : Claims) : Call (Id × SessionRow) := do
  let db ← tables
  match db.session claims.sessionId with
  | none => raise (.unauthorized "Session has been revoked.")
  | some loginSession =>
      if loginSession.revokedAt.isSome then raise (.unauthorized "Session has been revoked.")
      else do
        let db ← tables
        if (db.users[claims.subject]?).any fun u => u.isActive ∧ u.deletedAt = none then
          pure (claims.subject, loginSession)
        else raise (.unauthorized "User account is not active.")

section

variable (env : RequestEnv)

/-- `get_current_user`, with the login session it has loaded. -/
def currentUser (accessToken : Option String) (now : DateTime) : Call (Id × SessionRow) :=
  match given accessToken with
  | none => raise (.unauthorized "Authentication credentials were not provided.")
  | some token =>
      match env.decodeAccessToken now token with
      | .error e => raise e
      | .ok claims => claimedUser claims

/-- `issue_tokens` -/
def issueTokens (userId sessionId tokenId : Id) (raw : String) (now : DateTime) :
    Call IssuedTokens := do
  change (insertToken { env.security.refreshToken userId sessionId raw now with id := tokenId })
  pure { accessToken := env.security.createAccessToken userId sessionId
         refreshToken := raw
         expiresIn := env.security.accessTokenExpireMinutes * 60 }

/-- `_issue_login` -/
def issueLogin (userId : Id) (context : RequestContext) (sessionId tokenId : Id) (fresh : String)
    (now later : DateTime) : Call IssuedTokens := do
  change (updateUser userId fun u => { u with lastLogin := some now })
  change (insertSession
    { userId, context, lastActivity := some now, revokedAt := none, id := sessionId })
  let issued ← issueTokens env userId sessionId tokenId fresh later
  change (record .userLogin userId (some "session") (some (toString sessionId))
    context.ipAddress)
  pure issued

/-- The transparent upgrade of a hash. -/
def upgradeHash (userId : Id) (password passwordHash : String) : Call Unit :=
  if env.needsRehash passwordHash then do
    let rehashed ← ofExcept (env.hashPassword password)
    change (updateUser userId fun u => { u with passwordHash := some rehashed })
  else pure ()

/-- `login`.  `lockedOut` is what the login guard says. -/
def login (email password : String) (context : RequestContext) (lockedOut : Bool)
    (sessionId tokenId : Id) (fresh : String) (now later : DateTime) : Call IssuedTokens :=
  if lockedOut then raise (.unauthorized "Too many failed login attempts. Try again later.")
  else do
    let db ← tables
    let user ← ofExcept (db.accounts.userByEmail env.toAuthEnv email)
    let candidate := (user.bind fun u => given u.1.passwordHash).getD env.dummyHash
    match user with
    | none => raise (.unauthorized "Invalid email or password.")
    | some (u, userId) =>
        match given u.passwordHash, env.verifyPassword password candidate with
        | some passwordHash, true =>
            if u.isActive = false then raise (.unauthorized "This account is disabled.")
            else do
              upgradeHash env userId password passwordHash
              issueLogin env userId context sessionId tokenId fresh now later
        | _, _ => do
            change (record .userLoginFailed userId none none context.ipAddress)
            raise (.unauthorized "Invalid email or password.")

/-- `rotate`, once the token's session is found active. -/
def rotateInSession (token : TokenRow) (tokenId : Id) (fresh : String) (now later : DateTime) :
    Call IssuedTokens := do
  let db ← tables
  if (db.users[token.userId]?).any fun u => u.isActive then do
    let issued ← issueTokens env token.userId token.sessionId tokenId fresh later
    let db ← tables
    let successor ← ofExcept (db.tokenByHash (env.security.hashToken issued.refreshToken))
    change (consume token.id (successor.map fun t => t.1.id) now)
    change (touch token.sessionId now)
    pure issued
  else raise (.unauthorized "User is no longer active.")

/-- `rotate`, once the token is found. -/
def rotateToken (token : TokenRow) (tokenId : Id) (fresh : String) (now later : DateTime) :
    Call IssuedTokens :=
  if token.revokedAt.isSome ∨ token.rotatedTo.isSome then do
    -- Reuse of a consumed token: the session is revoked, then the call raises.
    change (SharedDb.revokeForSession token.sessionId later)
    let db ← tables
    markIf (db.session token.sessionId).isSome token.sessionId now
    raise (.unauthorized "Refresh token has already been used.")
  else if token.expiresAt < now then raise (.unauthorized "Refresh token has expired.")
  else do
    let db ← tables
    if (db.session token.sessionId).any fun s => s.revokedAt = none then
      rotateInSession env token tokenId fresh now later
    else raise (.unauthorized "Session is no longer active.")

/-- `rotate` -/
def rotate (rawRefresh : String) (tokenId : Id) (fresh : String) (now later : DateTime) :
    Call IssuedTokens := do
  let db ← tables
  match ← ofExcept (db.tokenByHash (env.security.hashToken rawRefresh)) with
  | none => raise (.unauthorized "Invalid refresh token.")
  | some (token, _) => rotateToken env token tokenId fresh now later

/-- The session of the token that a logout presents is revoked. -/
def revokePresented (loaded : List SessionRow) (refreshToken : Option String)
    (now later : DateTime) : Call Unit :=
  match given refreshToken with
  | none => pure ()
  | some raw => do
      let db ← tables
      match ← ofExcept (db.tokenByHash (env.security.hashToken raw)) with
      | none => pure ()
      | some (row, _) => revokeSession loaded row.sessionId now later

/-- `logout` -/
def logout (userId : Id) (loaded : List SessionRow) (refreshToken : Option String)
    (allDevices : Bool) (now later : DateTime) : Call Unit :=
  if allDevices then do
    revokeAllForUser loaded userId now later
    change (record .sessionsRevokedAll userId none none none)
  else do
    revokePresented env loaded refreshToken now later
    change (record .userLogout userId none none none)

/-- `terminate`.  The session is in the identity map when `revoke_session` gets it. -/
def terminate (userId : Id) (loaded : List SessionRow) (sessionId : Id) (now later : DateTime) :
    Call Unit := do
  match ← getSession loaded sessionId with
  | none => raise (.notFound "Session not found.")
  | some row =>
      if row.userId ≠ userId then raise (.notFound "Session not found.")
      else do
        revokeSession (loaded ++ [row]) sessionId now later
        change (record .sessionRevoked userId none (some (toString sessionId)) none)

/-- `terminate_all` -/
def terminateAll (userId : Id) (loaded : List SessionRow) (now later : DateTime) : Call Unit := do
  revokeAllForUser loaded userId now later
  change (record .sessionsRevokedAll userId none none none)

/-- `reset_password` -/
def resetPassword (token newPassword : String) (now later : DateTime) : Call Unit := do
  let db ← tables
  let found ← ofExcept (db.accounts.resetTokenByHash env.toAuthEnv token)
  match found.filter fun t => t.1.usedAt = none with
  | none => raise (.validation "Invalid or already-used reset token.")
  | some (row, tokenId) =>
      if row.expiresAt < now then raise (.validation "Reset token has expired.")
      else do
        let db ← tables
        match db.users[row.userId]? with
        | none => raise (.validation "Invalid reset token.")
        | some _ => do
            let passwordHash ← ofExcept (env.hashPassword newPassword)
            -- The two objects are flushed with the first session that is revoked.
            change (updateUser row.userId fun u => { u with passwordHash := some passwordHash })
            change (useResetToken tokenId now)
            revokeAllForUser [] row.userId now later
            change (record .passwordReset row.userId none none none)

end

end Call

/-! ## Requests -/

inductive SessionRequest where
  | login (email password : String) (context : RequestContext) (lockedOut : Bool)
      (sessionId tokenId : Id) (fresh : String) (now later : DateTime)
  | refresh (rawRefresh : String) (tokenId : Id) (fresh : String) (now later : DateTime)
  | logout (accessToken refreshToken : Option String) (allDevices : Bool) (now later : DateTime)
  | terminate (accessToken : Option String) (sessionId : Id) (now later : DateTime)
  | terminateAll (accessToken : Option String) (now later : DateTime)
  | resetPassword (token newPassword : String) (now later : DateTime)
  /-- Any other request of a signed-in user. -/
  | authenticated (accessToken : Option String) (now : DateTime)

/-- The calls of a request, with the tokens it answers with. -/
def SessionRequest.program (env : RequestEnv) : SessionRequest → Call (Option IssuedTokens)
  | login email password context lockedOut sessionId tokenId fresh now later => do
      let issued ← Call.login env email password context lockedOut sessionId tokenId fresh now later
      pure (some issued)
  | refresh rawRefresh tokenId fresh now later => do
      let issued ← Call.rotate env rawRefresh tokenId fresh now later
      pure (some issued)
  | logout accessToken refreshToken allDevices now later => do
      let user ← Call.currentUser env accessToken now
      Call.logout env user.1 [user.2] refreshToken allDevices now later
      pure none
  | terminate accessToken sessionId now later => do
      let user ← Call.currentUser env accessToken now
      Call.terminate user.1 [user.2] sessionId now later
      pure none
  | terminateAll accessToken now later => do
      let user ← Call.currentUser env accessToken now
      Call.terminateAll user.1 [user.2] now later
      pure none
  | resetPassword token newPassword now later => do
      Call.resetPassword env token newPassword now later
      pure none
  | authenticated accessToken now => do
      let _ ← Call.currentUser env accessToken now
      pure none

/-- Requests in flight. -/
abbrev SessionRequests := Pool SharedDb AccountError (Option IssuedTokens)

abbrev RequestTurn := Interleaving.Turn (Option AccountError)

/-- One turn.  A unique column that refuses a row raises. -/
def SessionRequests.step (s : SessionRequests) (turn : RequestTurn) : SessionRequests :=
  Transactions.step .integrity s turn

/-- The requests are made and none has begun. -/
def SessionRequests.Starts (env : RequestEnv) (s : SessionRequests) : Prop :=
  ∀ p ∈ s.procs, ∃ request : SessionRequest, p = .running (request.program env) []

end YoutubeFactory.Auth
