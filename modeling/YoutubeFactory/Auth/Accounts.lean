import YoutubeFactory.Lib.Stateful
import YoutubeFactory.Auth.Tokens
import YoutubeFactory.Content.Tables

/-!
# The auth service

`AuthService` of `app/services/auth.py`, with the audit log of `app/services/audit.py`.  A call
writes the tables and may raise; `session_scope` keeps what it has written if it returns, and
nothing if it raises.

Rows are never removed, so a row's position is its id.  What a request gets from outside the
database is part of the request: the answer of the login guard, what the mailer raises, the
generated token, the clock.
-/

namespace YoutubeFactory.Auth

/-! ## Tables -/

/-- A row of `User`. -/
structure Account where
  email : String
  username : String
  displayName : Option String
  passwordHash : Option String
  avatarUrl : Option String
  isActive : Bool
  isVerified : Bool
  lastLogin : Option DateTime
  deletedAt : Option DateTime

/-- A row of `EmailVerificationToken` or `PasswordResetToken`. -/
structure OneTimeToken where
  userId : Id
  tokenHash : String
  expiresAt : DateTime
  usedAt : Option DateTime

inductive OAuthProvider where
  | google | github
deriving DecidableEq, Repr

def OAuthProvider.value : OAuthProvider → String
  | google => "google"
  | github => "github"

structure OAuthAccount where
  userId : Id
  provider : String
  providerAccountId : String
  email : Option String
  accessToken : Option String

/-- The actions that the auth service and the session service record. -/
inductive AuditAction where
  | userRegistered | userLogin | userLoginFailed | userLogout | emailVerified | passwordChanged
  | passwordResetRequested | passwordReset | oauthLogin | sessionRevoked | sessionsRevokedAll
deriving DecidableEq, Repr

def AuditAction.value : AuditAction → String
  | userRegistered => "user.registered"
  | userLogin => "user.login"
  | userLoginFailed => "user.login_failed"
  | userLogout => "user.logout"
  | emailVerified => "user.email_verified"
  | passwordChanged => "user.password_changed"
  | passwordResetRequested => "user.password_reset_requested"
  | passwordReset => "user.password_reset"
  | oauthLogin => "user.oauth_login"
  | sessionRevoked => "session.revoked"
  | sessionsRevokedAll => "session.revoked_all"

structure AuditLog where
  action : String
  actorId : Option Id
  targetType : Option String
  targetId : Option String
  ipAddress : Option String
deriving DecidableEq, Repr

structure AccountDb where
  users : List Account
  sessions : List Session
  refreshTokens : List RefreshToken
  emailTokens : List OneTimeToken
  resetTokens : List OneTimeToken
  oauthAccounts : List OAuthAccount
  auditLog : List AuditLog

inductive AccountError where
  | unauthorized (message : String)
  | validation (message : String)
  | conflict (message : String)
  | notFound (message : String)
  /-- A foreign key or a unique column. -/
  | integrity
  /-- `MultipleResultsFound` -/
  | multipleResults
  /-- What the mailer raises. -/
  | mail (text : String)
deriving DecidableEq, Repr

def AccountError.ofAuth : AuthError → AccountError
  | .unauthorized message => .unauthorized message
  | .integrity => .integrity

/-- The settings, and the functions of `app/security` and of the database that the service
calls. -/
structure AuthEnv where
  security : Security
  emailVerificationExpireHours : Int
  passwordResetExpireHours : Int
  /-- `hash_password`, which raises when the policy is not met. -/
  hashPassword : String → Except AccountError String
  /-- `verify_password` -/
  verifyPassword : (password hash : String) → Bool
  needsRehash : String → Bool
  dummyHash : String
  /-- `str.lower`, and `lower` of the database. -/
  lower : String → String
  sqlLower : String → String

/-- `OAuthProfile` -/
structure OAuthProfile where
  provider : OAuthProvider
  accountId : String
  email : Option String
  name : Option String
  avatarUrl : Option String
  accessToken : String

/-- A call of the service: what it has written is there also when it raises. -/
abbrev AccountM := EStateM AccountError AccountDb

/-- `bool(value)` of a text that may be missing. -/
def given (value : Option String) : Option String := value.filter (· ≠ "")

/-! ## The tables of the token service -/

namespace AccountDb

/-- What the token service sees of a user is whether it is active. -/
def auth (db : AccountDb) : AuthDb where
  users := db.users.map fun u => ⟨u.isActive⟩
  sessions := db.sessions
  refreshTokens := db.refreshTokens

def withAuth (db : AccountDb) (auth : AuthDb) : AccountDb :=
  { db with sessions := auth.sessions, refreshTokens := auth.refreshTokens }

end AccountDb

/-- A call of the token service. -/
def onTokens {α : Type} (call : AuthDb → Outcome α) : AccountM α := fun db =>
  match call db.auth with
  | (.ok a, auth) => .ok a (db.withAuth auth)
  | (.error e, auth) => .error (.ofAuth e) (db.withAuth auth)

/-- What a function outside the database returns or raises. -/
def answer {α : Type} (result : Except AccountError α) : AccountM α :=
  match result with
  | .ok a => pure a
  | .error e => throw e

/-! ## Repositories -/

/-- `scalar_one_or_none`, with the id of the row. -/
def scalarOneOrNone {Row : Type} (rows : List Row) (passes : Row → Bool) :
    Except AccountError (Option (Row × Id)) :=
  match rows.zipIdx.filter fun r => passes r.1 with
  | [] => .ok none
  | [found] => .ok (some found)
  | _ => .error .multipleResults

namespace AccountDb

variable (db : AccountDb) (env : AuthEnv)

/-- `UserRepository.get_by_email` -/
def userByEmail (email : String) : Except AccountError (Option (Account × Id)) :=
  scalarOneOrNone db.users fun u => env.sqlLower u.email = env.lower email ∧ u.deletedAt = none

/-- `UserRepository.get_by_username` -/
def userByUsername (username : String) : Except AccountError (Option (Account × Id)) :=
  scalarOneOrNone db.users fun u =>
    env.sqlLower u.username = env.lower username ∧ u.deletedAt = none

/-- `EmailVerificationTokenRepository.get_by_hash` -/
def emailTokenByHash (token : String) : Except AccountError (Option (OneTimeToken × Id)) :=
  scalarOneOrNone db.emailTokens fun t => t.tokenHash = env.security.hashToken token

/-- `PasswordResetTokenRepository.get_by_hash` -/
def resetTokenByHash (token : String) : Except AccountError (Option (OneTimeToken × Id)) :=
  scalarOneOrNone db.resetTokens fun t => t.tokenHash = env.security.hashToken token

/-- `RefreshTokenRepository.get_by_hash` -/
def refreshTokenByHash (raw : String) : Except AccountError (Option (RefreshToken × Id)) :=
  scalarOneOrNone db.refreshTokens fun t => t.tokenHash = env.security.hashToken raw

/-- `OAuthAccountRepository.get_by_provider` -/
def linkByProvider (profile : OAuthProfile) :
    Except AccountError (Option (OAuthAccount × Id)) :=
  scalarOneOrNone db.oauthAccounts fun l =>
    l.provider = profile.provider.value ∧ l.providerAccountId = profile.accountId

/-- The user whose email the provider gives. -/
def userByProfile (profile : OAuthProfile) : Except AccountError (Option (Account × Id)) :=
  match given profile.email with
  | none => .ok none
  | some email => db.userByEmail env email

end AccountDb

namespace AuthService

section

variable (env : AuthEnv)

/-- A change to the row of a user. -/
def updateUser (userId : Id) (change : Account → Account) : AccountM Unit :=
  modify fun db => { db with users := db.users.modify userId change }

/-- `UserRepository.add`.  The email and the username are unique columns. -/
def addUser (user : Account) : AccountM Id := do
  let db ← get
  if db.users.any fun u => u.email = user.email ∨ u.username = user.username then
    throw .integrity
  else
    set { db with users := db.users ++ [user] }
    pure db.users.length

/-- The row of an action. -/
def entry (action : AuditAction) (actorId : Id) (targetType targetId ipAddress : Option String) :
    AuditLog :=
  { action := action.value, actorId := some actorId, targetType, targetId, ipAddress }

/-- `AuditService.record`.  The actor is a foreign key. -/
def record (action : AuditAction) (actorId : Id) (targetType targetId ipAddress : Option String) :
    AccountM Unit := do
  let db ← get
  if actorId < db.users.length then
    set { db with
      auditLog := db.auditLog ++ [entry action actorId targetType targetId ipAddress] }
  else throw .integrity

/-- The row of a one-time token. -/
def oneTimeToken (userId : Id) (raw : String) (hours : Int) (now : DateTime) : OneTimeToken where
  userId
  tokenHash := env.security.hashToken raw
  expiresAt := now + hours * 3600
  usedAt := none

/-! ## Registration -/

/-- `_send_verification` -/
def sendVerification (userId : Id) (raw : String) (now : DateTime)
    (mailer : Except AccountError Unit) : AccountM Unit := do
  let db ← get
  let token := oneTimeToken env userId raw env.emailVerificationExpireHours now
  if db.emailTokens.any fun t => t.tokenHash = token.tokenHash then throw .integrity
  else
    set { db with emailTokens := db.emailTokens ++ [token] }
    answer mailer

/-- `register` -/
def register (email username password : String) (displayName : Option String) (raw : String)
    (now : DateTime) (mailer : Except AccountError Unit) : AccountM Id := do
  if (← answer ((← get).userByEmail env email)).isSome then
    throw (.conflict "An account with this email already exists.")
  else if (← answer ((← get).userByUsername env username)).isSome then
    throw (.conflict "This username is already taken.")
  else
    let passwordHash ← answer (env.hashPassword password)
    let user : Account :=
      { email := env.lower email, username, displayName, passwordHash := some passwordHash
        avatarUrl := none, isActive := true, isVerified := false, lastLogin := none
        deletedAt := none }
    let userId ← addUser user
    sendVerification env userId raw now mailer
    record .userRegistered userId none none none
    pure userId

/-- `verify_email` -/
def verifyEmail (token : String) (now : DateTime) : AccountM Unit := do
  let found ← answer ((← get).emailTokenByHash env token)
  match found.filter fun t => t.1.usedAt = none with
  | none => throw (.validation "Invalid or already-used verification token.")
  | some (row, tokenId) =>
      if row.expiresAt < now then throw (.validation "Verification token has expired.")
      else
        match (← get).users[row.userId]? with
        | none => throw (.validation "Invalid verification token.")
        | some _ =>
            updateUser row.userId fun u => { u with isVerified := true }
            modify fun db => { db with
              emailTokens := db.emailTokens.modify tokenId fun t => { t with usedAt := some now } }
            record .emailVerified row.userId none none none

/-! ## Login and logout -/

/-- `_issue_login` -/
def issueLogin (userId : Id) (context : RequestContext) (action : AuditAction) (fresh : String)
    (now later : DateTime) : AccountM IssuedTokens := do
  updateUser userId fun u => { u with lastLogin := some now }
  let sessionId ← onTokens fun auth =>
    ((.ok (auth.createSession userId context now).1 : Except AuthError Id),
      (auth.createSession userId context now).2)
  let issued ← onTokens fun auth => auth.issueTokens env.security userId sessionId fresh later
  record action userId (some "session") (some (toString sessionId)) context.ipAddress
  pure issued

/-- The transparent upgrade of a hash. -/
def upgradeHash (userId : Id) (password passwordHash : String) : AccountM Unit :=
  if env.needsRehash passwordHash then do
    let rehashed ← answer (env.hashPassword password)
    updateUser userId fun u => { u with passwordHash := some rehashed }
  else pure ()

/-- `login`.  `lockedOut` is what the login guard says; its counter is not in the database. -/
def login (email password : String) (context : RequestContext) (lockedOut : Bool)
    (fresh : String) (now later : DateTime) : AccountM IssuedTokens := do
  if lockedOut then
    throw (.unauthorized "Too many failed login attempts. Try again later.")
  else
    let user ← answer ((← get).userByEmail env email)
    let candidate := ((user.bind fun u => given u.1.passwordHash).getD env.dummyHash)
    let valid := env.verifyPassword password candidate
    match user with
    | none => throw (.unauthorized "Invalid email or password.")
    | some (u, userId) =>
        match given u.passwordHash, valid with
        | some passwordHash, true =>
            if u.isActive = false then throw (.unauthorized "This account is disabled.")
            else
              upgradeHash env userId password passwordHash
              issueLogin env userId context .userLogin fresh now later
        | _, _ =>
            -- The row is written, and then the call raises.
            record .userLoginFailed userId none none context.ipAddress
            throw (.unauthorized "Invalid email or password.")

/-- The session of the token that a logout presents is revoked. -/
def revokePresented (refreshToken : Option String) (now later : DateTime) : AccountM Unit := do
  match given refreshToken with
  | none => pure ()
  | some raw =>
      match ← answer ((← get).refreshTokenByHash env raw) with
      | none => pure ()
      | some (row, _) =>
          modify fun db => db.withAuth (db.auth.revokeSession row.sessionId now later)

/-- `logout` of a user that is signed in. -/
def logout (userId : Id) (refreshToken : Option String) (allDevices : Bool)
    (now later : DateTime) : AccountM Unit := do
  if allDevices then
    modify fun db => db.withAuth (db.auth.revokeAllForUser userId now later)
    record .sessionsRevokedAll userId none none none
  else
    revokePresented env refreshToken now later
    record .userLogout userId none none none

/-- `refresh` -/
def refresh (rawRefresh fresh : String) (now later : DateTime) : AccountM IssuedTokens :=
  onTokens fun auth => auth.rotate env.security rawRefresh fresh now later

/-! ## Passwords -/

/-- `forgot_password` -/
def forgotPassword (email raw : String) (now : DateTime) (mailer : Except AccountError Unit) :
    AccountM Unit := do
  match ← answer ((← get).userByEmail env email) with
  | none => pure ()
  | some (_, userId) =>
      let db ← get
      let token := oneTimeToken env userId raw env.passwordResetExpireHours now
      if db.resetTokens.any fun t => t.tokenHash = token.tokenHash then throw .integrity
      else
        set { db with resetTokens := db.resetTokens ++ [token] }
        answer mailer
        record .passwordResetRequested userId none none none

/-- `reset_password` -/
def resetPassword (token newPassword : String) (now later : DateTime) : AccountM Unit := do
  let found ← answer ((← get).resetTokenByHash env token)
  match found.filter fun t => t.1.usedAt = none with
  | none => throw (.validation "Invalid or already-used reset token.")
  | some (row, tokenId) =>
      if row.expiresAt < now then throw (.validation "Reset token has expired.")
      else
        match (← get).users[row.userId]? with
        | none => throw (.validation "Invalid reset token.")
        | some _ =>
            let passwordHash ← answer (env.hashPassword newPassword)
            updateUser row.userId fun u => { u with passwordHash := some passwordHash }
            modify fun db => { db with
              resetTokens := db.resetTokens.modify tokenId fun t => { t with usedAt := some now } }
            modify fun db => db.withAuth (db.auth.revokeAllForUser row.userId now later)
            record .passwordReset row.userId none none none

/-- `change_password` of a user that is signed in. -/
def changePassword (userId : Id) (currentPassword newPassword : String) : AccountM Unit := do
  match ((← get).users[userId]?.bind fun u => given u.passwordHash).filter
      (env.verifyPassword currentPassword) with
  | none => throw (.unauthorized "Current password is incorrect.")
  | some _ =>
      let passwordHash ← answer (env.hashPassword newPassword)
      updateUser userId fun u => { u with passwordHash := some passwordHash }
      record .passwordChanged userId none none none

/-! ## OAuth -/

/-- `_sync_profile` -/
def syncProfile (profile : OAuthProfile) (u : Account) : Account :=
  { u with
    avatarUrl :=
      if (given profile.avatarUrl).isSome ∧ (given u.avatarUrl).isNone then profile.avatarUrl
      else u.avatarUrl
    displayName :=
      if (given profile.name).isSome ∧ (given u.displayName).isNone then profile.name
      else u.displayName }

/-- The row of a user provisioned from a profile. -/
def provisioned (profile : OAuthProfile) (username : String) : Account where
  email := (given profile.email).getD s!"{profile.accountId}@{profile.provider.value}.oauth"
  username
  displayName := profile.name
  passwordHash := none
  avatarUrl := profile.avatarUrl
  isActive := true
  isVerified := (given profile.email).isSome
  lastLogin := none
  deletedAt := none

/-- The username that is tried first. -/
def proposedUsername (profile : OAuthProfile) : String :=
  Content.slugify ((given profile.name).getD
    ((((given profile.email).getD "user").splitOn "@").headD ""))

/-- The user that `_link_or_create` links: the one of the profile's email, or a new one.
`suffix` is what `unique_suffix` gives. -/
def userToLink (profile : OAuthProfile) (suffix : String) : AccountM Id := do
  match ← answer ((← get).userByProfile env profile) with
  | some (_, userId) =>
      updateUser userId (syncProfile profile)
      pure userId
  | none =>
      let username := proposedUsername profile
      let taken := (← answer ((← get).userByUsername env username)).isSome
      addUser (provisioned profile (if taken then s!"{username}-{suffix}" else username))

/-- The new link of a user.  A provider's account is linked once. -/
def addLink (userId : Id) (profile : OAuthProfile) : AccountM Unit := do
  let db ← get
  let link : OAuthAccount :=
    { userId, provider := profile.provider.value, providerAccountId := profile.accountId
      email := profile.email, accessToken := some profile.accessToken }
  if db.oauthAccounts.any fun l =>
      l.provider = link.provider ∧ l.providerAccountId = link.providerAccountId then
    throw .integrity
  else set { db with oauthAccounts := db.oauthAccounts ++ [link] }

/-- `_link_or_create` -/
def linkOrCreate (profile : OAuthProfile) (suffix : String) : AccountM Id := do
  let userId ← userToLink env profile suffix
  addLink userId profile
  pure userId

/-- The user that `oauth_login` signs in. -/
def oauthUser (profile : OAuthProfile) (suffix : String) : AccountM Id := do
  match ← answer ((← get).linkByProvider profile) with
  | none => linkOrCreate env profile suffix
  | some (link, _) =>
      match (← get).users[link.userId]? with
      | none => throw (.unauthorized "Linked account no longer exists.")
      | some _ =>
          updateUser link.userId (syncProfile profile)
          pure link.userId

/-- `oauth_login` -/
def oauthLogin (profile : OAuthProfile) (context : RequestContext) (suffix fresh : String)
    (now later : DateTime) : AccountM IssuedTokens := do
  let userId ← oauthUser env profile suffix
  issueLogin env userId context .oauthLogin fresh now later

end

end AuthService

/-! ## Requests -/

/-- The requests of a history, and the changes that are made to accounts. -/
inductive AuthRequest where
  | register (email username password : String) (displayName : Option String) (raw : String)
      (now : DateTime) (mailer : Except AccountError Unit)
  | verifyEmail (token : String) (now : DateTime)
  | login (email password : String) (context : RequestContext) (lockedOut : Bool)
      (fresh : String) (now later : DateTime)
  | logout (userId : Id) (refreshToken : Option String) (allDevices : Bool) (now later : DateTime)
  | refresh (rawRefresh fresh : String) (now later : DateTime)
  | forgotPassword (email raw : String) (now : DateTime) (mailer : Except AccountError Unit)
  | resetPassword (token newPassword : String) (now later : DateTime)
  | changePassword (userId : Id) (currentPassword newPassword : String)
  | oauthLogin (profile : OAuthProfile) (context : RequestContext) (suffix fresh : String)
      (now later : DateTime)
  | setAccount (userId : Id) (isActive : Bool) (deletedAt : Option DateTime)

namespace AuthRequest

open AuthService

/-- The call a request makes, with the tokens it returns if it returns any. -/
def body (env : AuthEnv) : AuthRequest → AccountM (Option IssuedTokens)
  | register email username password displayName raw now mailer => do
      let _ ← AuthService.register env email username password displayName raw now mailer
      pure none
  | verifyEmail token now => do
      AuthService.verifyEmail env token now
      pure none
  | login email password context lockedOut fresh now later => do
      let issued ← AuthService.login env email password context lockedOut fresh now later
      pure (some issued)
  | logout userId refreshToken allDevices now later => do
      AuthService.logout env userId refreshToken allDevices now later
      pure none
  | refresh rawRefresh fresh now later => do
      let issued ← AuthService.refresh env rawRefresh fresh now later
      pure (some issued)
  | forgotPassword email raw now mailer => do
      AuthService.forgotPassword env email raw now mailer
      pure none
  | resetPassword token newPassword now later => do
      AuthService.resetPassword env token newPassword now later
      pure none
  | changePassword userId currentPassword newPassword => do
      AuthService.changePassword env userId currentPassword newPassword
      pure none
  | oauthLogin profile context suffix fresh now later => do
      let issued ← AuthService.oauthLogin env profile context suffix fresh now later
      pure (some issued)
  | setAccount userId isActive deletedAt => do
      updateUser userId fun u => { u with isActive, deletedAt }
      pure none

/-- A request in its own `session_scope`: what it answers, and the tables it leaves. -/
def serve (env : AuthEnv) (db : AccountDb) (request : AuthRequest) :
    Except AccountError (Option IssuedTokens) × AccountDb :=
  match (request.body env).run db with
  | .ok answer db' => (.ok answer, db')
  | .error e _ => (.error e, db)

def step (env : AuthEnv) (db : AccountDb) (request : AuthRequest) : AccountDb :=
  (request.serve env db).2

end AuthRequest

end YoutubeFactory.Auth
