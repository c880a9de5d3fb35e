import YoutubeFactory.Auth.Accounts
import YoutubeFactory.Auth.Replay

/-!
# What the calls of the auth service leave behind

A call that returns has found what it looked for, and has appended its row to the audit log
as the last thing it does.
-/

namespace YoutubeFactory.Auth

variable {env : AuthEnv} {db db' : AccountDb}

theorem answer_bind_eq_ok {α β : Type} {x : Except AccountError α} {f : α → AccountM β} {b : β}
    (h : (answer x >>= f).run db = .ok b db') : ∃ a, x = .ok a ∧ (f a).run db = .ok b db' := by
  cases x with
  | ok a => exact ⟨a, rfl, h⟩
  | error e => cases h

theorem run_answer_bind {α β : Type} (a : α) (f : α → AccountM β) (db : AccountDb) :
    (answer (.ok a) >>= f).run db = (f a).run db := rfl

/-- A row that is found is there, and passes. -/
theorem scalarOneOrNone_some {Row : Type} {rows : List Row} {passes : Row → Bool} {row : Row}
    {id : Id} (h : scalarOneOrNone rows passes = .ok (some (row, id))) :
    rows[id]? = some row ∧ passes row = true := by
  unfold scalarOneOrNone at h
  split at h
  · cases h
  · next found hfound =>
      cases h
      have hmem : (row, id) ∈ rows.zipIdx.filter fun r => passes r.1 := by
        rw [hfound]
        exact List.mem_singleton_self _
      rw [List.mem_filter, List.mem_zipIdx_iff_getElem?] at hmem
      exact hmem
  · cases h

/-- A row that is found is the only one that passes. -/
theorem scalarOneOrNone_unique {Row : Type} {rows : List Row} {passes : Row → Bool} {row : Row}
    {id : Id} (h : scalarOneOrNone rows passes = .ok (some (row, id))) :
    ∀ row' ∈ rows, passes row' = true → row' = row := by
  unfold scalarOneOrNone at h
  split at h
  · cases h
  · next found hfound =>
      cases h
      intro row' hrow' hpasses
      obtain ⟨id', hid'⟩ := List.mem_iff_getElem?.mp hrow'
      have hmem : (row', id') ∈ rows.zipIdx.filter fun r => passes r.1 :=
        List.mem_filter.mpr ⟨List.mem_zipIdx_iff_getElem?.mpr hid', hpasses⟩
      rw [hfound, List.mem_singleton] at hmem
      exact congrArg Prod.fst hmem
  · cases h

/-! ## Live users -/

/-- Active and not deleted. -/
def Account.Live (u : Account) : Prop := u.isActive = true ∧ u.deletedAt = none

def AccountDb.LiveUser (db : AccountDb) (userId : Id) : Prop :=
  ∃ u, db.users[userId]? = some u ∧ u.Live

/-- A change that leaves alone whether a user is live. -/
theorem liveUser_modify (change : Account → Account) (h : ∀ u, (change u).Live ↔ u.Live)
    {users : List Account} {changed userId : Id} :
    (∃ u, (users.modify changed change)[userId]? = some u ∧ u.Live) ↔
      ∃ u, users[userId]? = some u ∧ u.Live := by
  rw [List.getElem?_modify]
  cases hu : users[userId]? with
  | none => simp
  | some u =>
      by_cases hid : changed = userId
      · simp [hid, h]
      · simp [hid]

/-! ## Users that sign in -/

/-- The user that an OAuth profile signs in: the linked one, else the one of its email, else a
new one. -/
def AccountDb.profileUser (db : AccountDb) (env : AuthEnv) (profile : OAuthProfile) : Option Id :=
  match db.linkByProvider profile with
  | .ok (some (link, _)) => some link.userId
  | .ok none =>
      match db.userByProfile env profile with
      | .ok (some (_, userId)) => some userId
      | .ok none => some db.users.length
      | .error _ => none
  | .error _ => none

/-- The password is the one of the account. -/
def Account.Accepts (env : AuthEnv) (u : Account) (password : String) : Prop :=
  ∃ hash, given u.passwordHash = some hash ∧ env.verifyPassword password hash = true

/-- Where no row is found, none passes. -/
theorem scalarOneOrNone_none {Row : Type} {rows : List Row} {passes : Row → Bool}
    (h : scalarOneOrNone rows passes = .ok none) : ∀ row ∈ rows, passes row = false := by
  unfold scalarOneOrNone at h
  split at h
  · next hnone =>
      intro row hrow
      obtain ⟨id, hid⟩ := List.mem_iff_getElem?.mp hrow
      have hmem : (row, id) ∈ rows.zipIdx := List.mem_zipIdx_iff_getElem?.mpr hid
      simpa using List.filter_eq_nil_iff.mp hnone _ hmem
  · cases h
  · cases h

namespace AuthService

section

variable {userId : Id} {targetType targetId ip : Option String} {context : RequestContext}
  {now later : DateTime} {fresh : String} {issued : IssuedTokens}

theorem record_ok {action : AuditAction} {actorId : Id}
    (h : (record action actorId targetType targetId ip).run db = .ok () db') :
    actorId < db.users.length ∧
      db' = { db with
        auditLog := db.auditLog ++ [entry action actorId targetType targetId ip] } := by
  have hrun : (if actorId < db.users.length then
      set { db with auditLog := db.auditLog ++ [entry action actorId targetType targetId ip] }
      else throw .integrity : AccountM Unit).run db = .ok () db' := h
  split at hrun
  · next hlt =>
      cases hrun
      exact ⟨hlt, rfl⟩
  · cases hrun

theorem record_run (db : AccountDb) {action : AuditAction} {actorId : Id}
    (h : actorId < db.users.length) :
    (record action actorId targetType targetId ip).run db =
      .ok () { db with
        auditLog := db.auditLog ++ [entry action actorId targetType targetId ip] } := by
  have hrun : (record action actorId targetType targetId ip).run db =
      (if actorId < db.users.length then
        set { db with auditLog := db.auditLog ++ [entry action actorId targetType targetId ip] }
        else throw .integrity : AccountM Unit).run db := rfl
  rw [hrun, if_pos h]
  rfl

theorem updateUser_run (change : Account → Account) (db : AccountDb) :
    (updateUser userId change).run db =
      .ok () { db with users := db.users.modify userId change } := rfl

theorem addUser_ok {user : Account} (h : (addUser user).run db = .ok userId db') :
    userId = db.users.length ∧ db' = { db with users := db.users ++ [user] } := by
  have hrun := EStateM.get_bind_eq_ok h
  split at hrun
  · cases hrun
  · cases hrun
    exact ⟨rfl, rfl⟩

/-- A call of the token service that returns. -/
theorem onTokens_ok {α : Type} {call : AuthDb → Outcome α} {a : α}
    (h : (onTokens call).run db = .ok a db') :
    ∃ auth, call db.auth = (.ok a, auth) ∧ db' = db.withAuth auth := by
  unfold onTokens EStateM.run at h
  dsimp only at h
  cases hcall : call db.auth with
  | mk result auth =>
      rw [hcall] at h
      cases result with
      | ok a' =>
          cases h
          exact ⟨auth, rfl, rfl⟩
      | error e => cases h

theorem onTokens_run {α : Type} {call : AuthDb → Outcome α} {a : α} {auth : AuthDb}
    (h : call db.auth = (.ok a, auth)) : (onTokens call).run db = .ok a (db.withAuth auth) := by
  unfold onTokens EStateM.run
  dsimp only
  rw [h]

/-! ## Signing in -/

/-- The tables after a session is opened for a user. -/
def signedIn (env : AuthEnv) (db : AccountDb) (userId : Id) (context : RequestContext)
    (action : AuditAction) (fresh : String) (now later : DateTime) : AccountDb :=
  { db with
    users := db.users.modify userId fun u => { u with lastLogin := some now }
    sessions := db.sessions ++ [{ userId, context, lastActivity := some now, revokedAt := none }]
    refreshTokens := db.refreshTokens ++
      [env.security.refreshToken userId db.sessions.length fresh later]
    auditLog := db.auditLog ++ [entry action userId (some "session")
      (some (toString db.sessions.length)) context.ipAddress] }

theorem issueLogin_ok {action : AuditAction}
    (h : (issueLogin env userId context action fresh now later).run db = .ok issued db') :
    userId < db.users.length ∧
      (∀ t ∈ db.refreshTokens, t.tokenHash ≠ env.security.hashToken fresh) ∧
      issued.refreshToken = fresh ∧
      issued.accessToken = env.security.createAccessToken userId db.sessions.length ∧
      db' = signedIn env db userId context action fresh now later := by
  have h := EStateM.modify_bind_eq_ok h
  obtain ⟨sessionId, opened, hopen, h⟩ := EStateM.run_bind_eq_ok h
  obtain ⟨issued', written, hissue, h⟩ := EStateM.run_bind_eq_ok h
  obtain ⟨_, logged, hlog, h⟩ := EStateM.run_bind_eq_ok h
  cases h
  obtain ⟨auth, hcreate, rfl⟩ := onTokens_ok hopen
  cases hcreate
  obtain ⟨auth', htokens, rfl⟩ := onTokens_ok hissue
  obtain ⟨hactor, rfl⟩ := record_ok hlog
  obtain ⟨hnew, hissued, rfl⟩ := issueTokens_ok htokens
  have haccess : issued.accessToken =
      env.security.createAccessToken userId db.sessions.length := by
    unfold AuthDb.issueTokens at htokens
    split at htokens
    · cases htokens
    · cases htokens
      rfl
  have hlt : userId < db.users.length := by
    simpa only [AccountDb.withAuth, List.length_modify] using hactor
  exact ⟨hlt, hnew, hissued, haccess, rfl⟩

/-- The upgrade leaves the user as live as it was. -/
theorem upgradeHash_ok {password passwordHash : String}
    (h : (upgradeHash env userId password passwordHash).run db = .ok () db') :
    db'.auditLog = db.auditLog ∧ (db'.LiveUser userId ↔ db.LiveUser userId) := by
  unfold upgradeHash at h
  split at h
  · obtain ⟨hash, -, h⟩ := answer_bind_eq_ok h
    cases h
    exact ⟨rfl, liveUser_modify (fun u => { u with passwordHash := some hash })
      fun u => Iff.rfl⟩
  · cases h
    exact ⟨rfl, Iff.rfl⟩

/-- A login that returns has found the user and its password. -/
theorem login_ok {email password : String} {lockedOut : Bool}
    (h : (login env email password context lockedOut fresh now later).run db = .ok issued db') :
    lockedOut = false ∧ ∃ u userId, db.userByEmail env email = .ok (some (u, userId)) ∧
      u.Accepts env password ∧ u.isActive = true ∧
      ∃ upgraded, upgraded.auditLog = db.auditLog ∧
        (upgraded.LiveUser userId ↔ db.LiveUser userId) ∧
        (issueLogin env userId context .userLogin fresh now later).run upgraded =
          .ok issued db' := by
  unfold login at h
  split at h
  · cases h
  · next hopen =>
      have h := EStateM.get_bind_eq_ok h
      obtain ⟨found, hfound, h⟩ := answer_bind_eq_ok h
      cases found with
      | none => cases h
      | some found =>
          obtain ⟨u, userId⟩ := found
          dsimp only at h
          split at h
          · next _ _ hash hhash hvalid =>
              split at h
              · cases h
              · next hactive =>
                  obtain ⟨_, upgraded, hupgrade, h⟩ := EStateM.run_bind_eq_ok h
                  have haccepts : u.Accepts env password := by
                    refine ⟨hash, hhash, ?_⟩
                    simpa [hhash] using hvalid
                  exact ⟨Bool.eq_false_iff.mpr hopen, u, userId, hfound, haccepts,
                    by simpa using hactive, upgraded, (upgradeHash_ok hupgrade).1,
                    (upgradeHash_ok hupgrade).2, h⟩
          · obtain ⟨_, _, _, h⟩ := EStateM.run_bind_eq_ok h
            cases h

theorem syncProfile_live (profile : OAuthProfile) (u : Account) :
    (syncProfile profile u).Live ↔ u.Live := Iff.rfl

/-- What a profile's user is when the call returns: an existing one, as live as it was, or a
new one, which is live. -/
def Signs (db db' : AccountDb) (userId : Id) : Prop :=
  (userId < db.users.length ∧ (db'.LiveUser userId ↔ db.LiveUser userId)) ∨
    (userId = db.users.length ∧ db'.LiveUser userId)

theorem userToLink_ok {profile : OAuthProfile} {suffix : String}
    (h : (userToLink env profile suffix).run db = .ok userId db') :
    db'.auditLog = db.auditLog ∧ Signs db db' userId ∧
      ((∃ u, db.userByProfile env profile = .ok (some (u, userId))) ∨
        db.userByProfile env profile = .ok none ∧ userId = db.users.length) := by
  have h := EStateM.get_bind_eq_ok h
  obtain ⟨found, hfound, h⟩ := answer_bind_eq_ok h
  split at h
  · next u id =>
      cases h
      have hlt : userId < db.users.length := by
        unfold AccountDb.userByProfile at hfound
        split at hfound
        · cases hfound
        · exact (List.getElem?_eq_some_iff.mp (scalarOneOrNone_some hfound).1).1
      exact ⟨rfl, .inl ⟨hlt, liveUser_modify _ (syncProfile_live profile)⟩, .inl ⟨u, hfound⟩⟩
  · have h := EStateM.get_bind_eq_ok h
    obtain ⟨taken, -, h⟩ := answer_bind_eq_ok h
    obtain ⟨hid, rfl⟩ := addUser_ok h
    refine ⟨rfl, .inr ⟨hid, ?_⟩, .inr ⟨hfound, hid⟩⟩
    rw [hid]
    exact ⟨_, List.getElem?_concat_length, rfl, rfl⟩

theorem addLink_ok {profile : OAuthProfile}
    (h : (addLink userId profile).run db = .ok () db') :
    db'.auditLog = db.auditLog ∧ db'.users = db.users := by
  have h := EStateM.get_bind_eq_ok h
  dsimp only at h
  split at h
  · cases h
  · cases h
    exact ⟨rfl, rfl⟩

/-- The user that is signed in is the profile's. -/
theorem oauthUser_ok {profile : OAuthProfile} {suffix : String}
    (h : (oauthUser env profile suffix).run db = .ok userId db') :
    db'.auditLog = db.auditLog ∧ db.profileUser env profile = some userId ∧
      Signs db db' userId := by
  have h := EStateM.get_bind_eq_ok h
  obtain ⟨found, hfound, h⟩ := answer_bind_eq_ok h
  unfold AccountDb.profileUser
  rw [hfound]
  split at h
  · obtain ⟨id, linked, huser, h⟩ := EStateM.run_bind_eq_ok h
    obtain ⟨_, added, hlink, h⟩ := EStateM.run_bind_eq_ok h
    cases h
    obtain ⟨hlog, hsigns, hid⟩ := userToLink_ok huser
    obtain ⟨hlog', husers⟩ := addLink_ok hlink
    refine ⟨hlog'.trans hlog, ?_, ?_⟩
    · rcases hid with ⟨u, hu⟩ | ⟨hnone, rfl⟩
      · simp only [hu]
      · simp only [hnone]
    · unfold Signs AccountDb.LiveUser
      rw [husers]
      exact hsigns
  · have h := EStateM.get_bind_eq_ok h
    split at h
    · cases h
    · next u hu =>
        cases h
        exact ⟨rfl, rfl, .inl ⟨(List.getElem?_eq_some_iff.mp hu).1,
          liveUser_modify _ (syncProfile_live profile)⟩⟩

end

end AuthService

/-! ## Requests -/

namespace AuthRequest

variable {request : AuthRequest} {issued : Option IssuedTokens}

theorem serve_ok (h : (request.serve env db).1 = .ok issued) :
    (request.body env).run db = .ok issued (request.step env db) := by
  unfold step
  unfold serve at h ⊢
  cases hrun : (request.body env).run db with
  | ok answer db' =>
      rw [hrun] at h
      cases h
      rfl
  | error e db' =>
      rw [hrun] at h
      cases h

theorem serve_run {db' : AccountDb} (h : (request.body env).run db = .ok issued db') :
    (request.serve env db).1 = .ok issued ∧ request.step env db = db' := by
  unfold step serve
  rw [h]
  exact ⟨rfl, rfl⟩

/-- A request that raises leaves the tables as they were. -/
theorem step_of_error {e : AccountError} (h : (request.serve env db).1 = .error e) :
    request.step env db = db := by
  unfold step
  unfold serve at h ⊢
  cases hrun : (request.body env).run db with
  | ok answer db' =>
      rw [hrun] at h
      cases h
  | error e db' => rfl

end AuthRequest

/-! ## Samples -/

/-- Hashes that can be read. -/
def plainEnv : AuthEnv where
  security := sampleSecurity
  emailVerificationExpireHours := 24
  passwordResetExpireHours := 1
  hashPassword password := .ok ("argon2:" ++ password)
  verifyPassword password hash := hash = "argon2:" ++ password
  needsRehash _ := false
  dummyHash := "argon2:Timing-Guard-Passw0rd!"
  lower text := String.ofList (text.toList.map Char.toLower)
  sqlLower text := String.ofList (text.toList.map Char.toLower)

def liveAccount : Account where
  email := "ada@example.com"
  username := "ada"
  displayName := none
  passwordHash := some "argon2:Correct-Horse-7"
  avatarUrl := none
  isActive := true
  isVerified := true
  lastLogin := none
  deletedAt := none

def oneAccount : AccountDb where
  users := [liveAccount]
  sessions := []
  refreshTokens := []
  emailTokens := []
  resetTokens := []
  oauthAccounts := []
  auditLog := []

end YoutubeFactory.Auth
