import YoutubeFactory.Auth.AccountCalls

/-!
# Who gets tokens

Three calls issue tokens.  A password login looks for a user that is not deleted and asks
whether it is active.  A rotation asks only whether the user is active, and an OAuth login asks
nothing of the user it finds.

So the users that get tokens are live in the histories in which no OAuth login finds a dead
user and no usable refresh token of a deleted user is presented, and in no others
(`tokens_for_live_iff`).
-/

namespace YoutubeFactory.Auth

variable {env : AuthEnv} {db db' : AccountDb}

/-! ## Tokens for live users -/

/-- The tokens of a user: the access token names the user and the session of the row that the
refresh token is stored in. -/
def IssuedFor (env : AuthEnv) (db : AccountDb) (issued : IssuedTokens) (userId : Id) : Prop :=
  ∃ row ∈ db.refreshTokens, row.tokenHash = env.security.hashToken issued.refreshToken ∧
    row.userId = userId ∧
    issued.accessToken = env.security.createAccessToken userId row.sessionId

/-- If the request returns tokens, they are those of a user that is live. -/
def SignsInLive (env : AuthEnv) (db : AccountDb) (request : AuthRequest) : Prop :=
  ∀ issued, (request.serve env db).1 = .ok (some issued) →
    ∃ userId, IssuedFor env (request.step env db) issued userId ∧
      (request.step env db).LiveUser userId

/-- No stored token has the hash of the generated one. -/
def AccountDb.Fresh (db : AccountDb) (env : AuthEnv) (fresh : String) : Prop :=
  ∀ t ∈ db.refreshTokens, t.tokenHash ≠ env.security.hashToken fresh

instance (fresh : String) : Decidable (db.Fresh env fresh) :=
  inferInstanceAs (Decidable (∀ t ∈ db.refreshTokens, t.tokenHash ≠ env.security.hashToken fresh))

/-- The request finds no dead user where it does not look whether it is one.  The conditions
speak of requests that get as far as issuing a token. -/
def FindsLive (env : AuthEnv) (db : AccountDb) : AuthRequest → Prop
  | .oauthLogin profile _ _ fresh _ _ =>
      db.Fresh env fresh → ∀ userId, db.profileUser env profile = some userId →
        userId < db.users.length → db.LiveUser userId
  | .refresh rawRefresh fresh now _ =>
      db.Fresh env fresh → ∀ token, db.auth.presented env.security rawRefresh = some token →
        Usable db.auth token now → ∀ u ∈ db.users[token.userId]?, u.deletedAt = none
  | _ => True

/-! ## The calls that issue tokens -/

namespace AuthService

variable {userId : Id} {context : RequestContext} {now later : DateTime} {fresh : String}
  {issued : IssuedTokens}

/-- A session is opened for the user: the tokens are the user's, and no one else's. -/
theorem issueLogin_issuedFor {action : AuditAction}
    (h : (issueLogin env userId context action fresh now later).run db = .ok issued db') :
    (∀ other, IssuedFor env db' issued other ↔ other = userId) ∧
      (db'.LiveUser userId ↔ db.LiveUser userId) := by
  obtain ⟨-, hnew, hfresh, haccess, rfl⟩ := issueLogin_ok h
  refine ⟨fun other => ⟨?_, ?_⟩, ?_⟩
  · rintro ⟨row, hrow, hhash, hother, -⟩
    rw [hfresh] at hhash
    rcases List.mem_append.mp hrow with hold | hlast
    · exact absurd hhash (hnew row hold)
    · rw [List.mem_singleton.mp hlast] at hother
      exact hother.symm
  · rintro rfl
    refine ⟨_, List.mem_append_right _ (List.mem_singleton_self _), ?_, rfl, haccess⟩
    rw [hfresh]
    rfl
  · exact liveUser_modify (fun u => { u with lastLogin := some now }) fun u => Iff.rfl

/-- A token that is new is stored. -/
theorem issueTokens_of_fresh (auth : AuthDb) (security : Security) (userId sessionId : Id)
    {fresh : String} (later : DateTime)
    (h : ∀ t ∈ auth.refreshTokens, t.tokenHash ≠ security.hashToken fresh) :
    ∃ issued, auth.issueTokens security userId sessionId fresh later =
      (.ok issued, { auth with refreshTokens := auth.refreshTokens ++
        [security.refreshToken userId sessionId fresh later] }) := by
  have hnew : ¬ (auth.refreshTokens.any fun t =>
      t.tokenHash = security.hashToken fresh) = true := by simpa using h
  unfold AuthDb.issueTokens
  rw [if_neg hnew]
  exact ⟨_, rfl⟩

/-- An existing user can be signed in, with a token that is new. -/
theorem issueLogin_of_fresh {action : AuditAction} (hid : userId < db.users.length)
    (hfresh : db.Fresh env fresh) :
    ∃ issued db', (issueLogin env userId context action fresh now later).run db =
      .ok issued db' := by
  let stamped : AccountDb :=
    { db with users := db.users.modify userId fun u => { u with lastLogin := some now } }
  let opened : AccountDb := stamped.withAuth (stamped.auth.createSession userId context now).2
  obtain ⟨issued, hissue⟩ :=
    issueTokens_of_fresh opened.auth env.security userId db.sessions.length later hfresh
  have hopen : (onTokens fun auth =>
      ((.ok (auth.createSession userId context now).1 : Except AuthError Id),
        (auth.createSession userId context now).2)).run stamped =
      .ok db.sessions.length opened := onTokens_run rfl
  have hactor : userId < stamped.users.length := by
    rw [List.length_modify]
    exact hid
  refine ⟨issued, ?_⟩
  unfold issueLogin
  rw [EStateM.run_bind_of_ok (updateUser_run _ db), EStateM.run_bind_of_ok hopen,
    EStateM.run_bind_of_ok (onTokens_run hissue),
    EStateM.run_bind_of_ok (record_run (opened.withAuth _) hactor)]
  exact ⟨_, rfl⟩

/-- An account that is not linked can be. -/
theorem addLink_run {profile : OAuthProfile} (hnolink : db.linkByProvider profile = .ok none)
    (users : List Account) :
    ∃ links, (addLink userId profile).run { db with users } =
      .ok () { db with users, oauthAccounts := links } := by
  have hnew : ¬ (db.oauthAccounts.any fun l =>
      l.provider = profile.provider.value ∧ l.providerAccountId = profile.accountId) = true := by
    rw [List.any_eq_true]
    rintro ⟨l, hl, hpasses⟩
    rw [scalarOneOrNone_none hnolink l hl] at hpasses
    cases hpasses
  unfold addLink
  rw [EStateM.run_get_bind]
  dsimp only
  rw [if_neg hnew]
  exact ⟨_, rfl⟩

/-- The user of a profile, if it exists, is signed in. -/
theorem oauthUser_run {profile : OAuthProfile} (suffix : String)
    (hprofile : db.profileUser env profile = some userId) (hid : userId < db.users.length) :
    ∃ links, (oauthUser env profile suffix).run db =
      .ok userId { db with
        users := db.users.modify userId (syncProfile profile)
        oauthAccounts := links } := by
  unfold oauthUser
  rw [EStateM.run_get_bind]
  unfold AccountDb.profileUser at hprofile
  split at hprofile
  · next link _ hlink =>
      cases hprofile
      rw [hlink, run_answer_bind]
      dsimp only
      rw [EStateM.run_get_bind, List.getElem?_eq_getElem hid]
      exact ⟨db.oauthAccounts, rfl⟩
  · next hnolink =>
      rw [hnolink, run_answer_bind]
      split at hprofile
      · next hfound =>
          cases hprofile
          have huser : (userToLink env profile suffix).run db =
              .ok userId { db with users := db.users.modify userId (syncProfile profile) } := by
            unfold userToLink
            rw [EStateM.run_get_bind, hfound, run_answer_bind]
            rfl
          obtain ⟨links, hlinks⟩ := @addLink_run db userId profile hnolink
            (db.users.modify userId (syncProfile profile))
          refine ⟨links, ?_⟩
          dsimp only
          unfold linkOrCreate
          rw [EStateM.run_bind_of_ok huser, EStateM.run_bind_of_ok hlinks]
          rfl
      · cases hprofile
        exact absurd hid (lt_irrefl _)
      · cases hprofile
  · cases hprofile

/-- The OAuth login of an existing user, with a token that is new. -/
theorem oauthLogin_run {profile : OAuthProfile} (suffix : String)
    (hprofile : db.profileUser env profile = some userId) (hid : userId < db.users.length)
    (hfresh : db.Fresh env fresh) :
    ∃ issued db', (oauthLogin env profile context suffix fresh now later).run db =
      .ok issued db' := by
  obtain ⟨links, hlinked⟩ := oauthUser_run suffix hprofile hid
  unfold oauthLogin
  rw [EStateM.run_bind_of_ok hlinked]
  refine issueLogin_of_fresh ?_ hfresh
  rw [List.length_modify]
  exact hid

/-- The user of an OAuth login that returns. -/
theorem oauthLogin_ok {profile : OAuthProfile} {suffix : String}
    (h : (oauthLogin env profile context suffix fresh now later).run db = .ok issued db') :
    ∃ userId, db.profileUser env profile = some userId ∧
      (∀ other, IssuedFor env db' issued other ↔ other = userId) ∧
      ((userId < db.users.length ∧ db.Fresh env fresh ∧
          (db'.LiveUser userId ↔ db.LiveUser userId)) ∨
        (userId = db.users.length ∧ db'.LiveUser userId)) := by
  obtain ⟨userId, linked, hlinked, h⟩ := EStateM.run_bind_eq_ok h
  obtain ⟨-, hprofile, hsigns⟩ := oauthUser_ok hlinked
  obtain ⟨hissued, hlive⟩ := issueLogin_issuedFor h
  refine ⟨userId, hprofile, hissued, ?_⟩
  rcases hsigns with ⟨hid, hsame⟩ | ⟨hid, hnew⟩
  · obtain ⟨links, hrun⟩ := oauthUser_run suffix hprofile hid
    rw [hlinked] at hrun
    cases hrun
    exact .inl ⟨hid, (issueLogin_ok h).2.1, hlive.trans hsame⟩
  · exact .inr ⟨hid, hlive.mpr hnew⟩

/-- The tokens of a rotation. -/
theorem rotate_issued {auth auth' : AuthDb} {security : Security} {raw : String}
    {token : RefreshToken} (hpresented : auth.presented security raw = some token)
    (h : auth.rotate security raw fresh now later = (.ok issued, auth')) :
    issued.refreshToken = fresh ∧
      issued.accessToken = security.createAccessToken token.userId token.sessionId := by
  obtain ⟨tokenId, hfound, hrow⟩ := Option.bind_eq_some_iff.mp hpresented
  unfold AuthDb.rotate at h
  rw [hfound] at h
  dsimp only at h
  rw [hrow] at h
  dsimp only at h
  split at h
  · cases h
  · split at h
    · cases h
    · unfold AuthDb.issueTokens at h
      split at h
      · cases h
      · next hissue =>
          split at hissue
          · cases hissue
          · cases hissue
            cases h
            exact ⟨rfl, rfl⟩

/-- The user of a refresh that returns is the token's. -/
theorem refresh_ok {raw : String}
    (h : (refresh env raw fresh now later).run db = .ok issued db') :
    ∃ token, db.auth.presented env.security raw = some token ∧ Usable db.auth token now ∧
      db.Fresh env fresh ∧ db'.users = db.users ∧
      ∀ other, IssuedFor env db' issued other ↔ other = token.userId := by
  obtain ⟨auth, hrotate, rfl⟩ := onTokens_ok h
  obtain ⟨tokenId, token, hpresented, -, husable, hfresh, hwritten⟩ := rotate_ok hrotate
  obtain ⟨hraw, haccess⟩ := rotate_issued hpresented hrotate
  -- What is asked of the row is in columns that the old token keeps.
  have hcolumns : auth.refreshTokens.map (fun t => (t.tokenHash, t.userId, t.sessionId)) =
      (db.refreshTokens ++ [env.security.refreshToken token.userId token.sessionId fresh
        later]).map fun t => (t.tokenHash, t.userId, t.sessionId) := by
    rw [hwritten, AuthDb.consume, Table.map_modify]
    · rfl
    · exact fun _ => rfl
  refine ⟨token, hpresented, husable, hfresh, rfl, fun other => ⟨?_, ?_⟩⟩
  · rintro ⟨row, hrow, hhash, hother, -⟩
    rw [hraw] at hhash
    have hmem : (row.tokenHash, row.userId, row.sessionId) ∈
        auth.refreshTokens.map fun t => (t.tokenHash, t.userId, t.sessionId) :=
      List.mem_map_of_mem hrow
    rw [hcolumns] at hmem
    obtain ⟨t, ht, hsame⟩ := List.mem_map.mp hmem
    rw [Prod.mk.injEq, Prod.mk.injEq] at hsame
    rcases List.mem_append.mp ht with hold | hlast
    · exact absurd (hsame.1.trans hhash) (hfresh t hold)
    · rw [List.mem_singleton.mp hlast] at hsame
      exact hother.symm.trans hsame.2.1.symm
  · rintro rfl
    have hmem : (env.security.hashToken fresh, token.userId, token.sessionId) ∈
        auth.refreshTokens.map fun t => (t.tokenHash, t.userId, t.sessionId) := by
      rw [hcolumns]
      exact List.mem_map_of_mem (List.mem_append_right _ (List.mem_singleton_self _))
    obtain ⟨row, hrow, hsame⟩ := List.mem_map.mp hmem
    rw [Prod.mk.injEq, Prod.mk.injEq] at hsame
    refine ⟨row, hrow, ?_, hsame.2.1, ?_⟩
    · rw [hraw]
      exact hsame.1
    · rw [haccess, hsame.2.2]

/-- The refresh of a usable token, with a token that is new. -/
theorem refresh_run {raw : String} {token : RefreshToken}
    (hpresented : db.auth.presented env.security raw = some token)
    (husable : Usable db.auth token now) (hfresh : db.Fresh env fresh) :
    ∃ issued db', (refresh env raw fresh now later).run db = .ok issued db' := by
  obtain ⟨issued, hissued⟩ :
      ∃ issued, (db.auth.rotate env.security raw fresh now later).1 = .ok issued :=
    rotate_of_usable hpresented husable hfresh
  exact ⟨issued, _, onTokens_run (Prod.ext hissued rfl)⟩

end AuthService

/-! ## Requests -/

/-- A request whose tokens are of one user. -/
theorem signsInLive_of_run {request : AuthRequest} {issued : IssuedTokens} {userId : Id}
    (h : (request.body env).run db = .ok (some issued) db')
    (hissued : ∀ other, IssuedFor env db' issued other ↔ other = userId) :
    SignsInLive env db request ↔ db'.LiveUser userId := by
  obtain ⟨hserve, hstep⟩ := AuthRequest.serve_run h
  unfold SignsInLive
  rw [hstep]
  constructor
  · intro hsigns
    obtain ⟨other, hother, hlive⟩ := hsigns issued hserve
    rwa [(hissued other).mp hother] at hlive
  · intro hlive issued' hserve'
    rw [hserve] at hserve'
    cases hserve'
    exact ⟨userId, (hissued userId).mpr rfl, hlive⟩

/-- A password login that returns has found a live user. -/
theorem login_signsInLive (env : AuthEnv) (db : AccountDb) (email password : String)
    (context : RequestContext) (lockedOut : Bool) (fresh : String) (now later : DateTime) :
    SignsInLive env db (.login email password context lockedOut fresh now later) := by
  intro issued hserve
  obtain ⟨_, written, hlogin, h⟩ := EStateM.run_bind_eq_ok (AuthRequest.serve_ok hserve)
  cases h
  obtain ⟨-, u, userId, hfound, -, hactive, upgraded, -, hupgraded, hissue⟩ :=
    AuthService.login_ok hlogin
  obtain ⟨hissued, hlive⟩ := AuthService.issueLogin_issuedFor hissue
  obtain ⟨hrow, hpasses⟩ := scalarOneOrNone_some hfound
  have hnotDeleted : u.deletedAt = none := (of_decide_eq_true hpasses).2
  exact ⟨userId, (hissued userId).mpr rfl,
    hlive.mpr (hupgraded.mpr ⟨u, hrow, hactive, hnotDeleted⟩)⟩

/-- A refresh asks whether the user is active, and not whether it is deleted. -/
theorem refresh_signsInLive_iff (env : AuthEnv) (db : AccountDb) (raw fresh : String)
    (now later : DateTime) :
    SignsInLive env db (.refresh raw fresh now later) ↔
      FindsLive env db (.refresh raw fresh now later) := by
  constructor
  · intro hsigns hfresh token hpresented husable u hu
    obtain ⟨issued, db', hrun⟩ :
        ∃ issued db', (AuthService.refresh env raw fresh now later).run db = .ok issued db' :=
      AuthService.refresh_run hpresented husable hfresh
    obtain ⟨token', hpresented', -, -, husers, hissued⟩ := AuthService.refresh_ok hrun
    rw [hpresented, Option.some.injEq] at hpresented'
    subst hpresented'
    have hbody : (AuthRequest.body env (.refresh raw fresh now later)).run db =
        .ok (some issued) db' := EStateM.run_bind_of_ok hrun
    obtain ⟨u', hu', -, hnotDeleted⟩ := (signsInLive_of_run hbody hissued).mp hsigns
    rw [husers, Option.mem_def.mp hu, Option.some.injEq] at hu'
    exact hu' ▸ hnotDeleted
  · intro hfinds issued hserve
    have hbody := AuthRequest.serve_ok hserve
    obtain ⟨_, written, hrefresh, h⟩ := EStateM.run_bind_eq_ok hbody
    cases h
    obtain ⟨token, hpresented, husable, hfresh, husers, hissued⟩ :=
      AuthService.refresh_ok hrefresh
    refine (signsInLive_of_run hbody hissued).mpr ?_ issued hserve
    obtain ⟨user, huser, hactive⟩ := husable.user
    unfold AccountDb.auth at huser
    rw [List.getElem?_map, Option.map_eq_some_iff] at huser
    obtain ⟨u, hu, rfl⟩ := huser
    refine ⟨u, ?_, hactive, hfinds hfresh token hpresented husable u hu⟩
    rw [husers, hu]

/-- An OAuth login asks nothing of the user that it finds. -/
theorem oauthLogin_signsInLive_iff (env : AuthEnv) (db : AccountDb) (profile : OAuthProfile)
    (context : RequestContext) (suffix fresh : String) (now later : DateTime) :
    SignsInLive env db (.oauthLogin profile context suffix fresh now later) ↔
      FindsLive env db (.oauthLogin profile context suffix fresh now later) := by
  constructor
  · intro hsigns hfresh userId hprofile hid
    obtain ⟨issued, db', hrun⟩ :
        ∃ issued db', (AuthService.oauthLogin env profile context suffix fresh now later).run
          db = .ok issued db' :=
      AuthService.oauthLogin_run suffix hprofile hid hfresh
    obtain ⟨userId', hprofile', hissued, hlive⟩ := AuthService.oauthLogin_ok hrun
    rw [hprofile, Option.some.injEq] at hprofile'
    subst hprofile'
    have hbody : (AuthRequest.body env
        (.oauthLogin profile context suffix fresh now later)).run db =
        .ok (some issued) db' := EStateM.run_bind_of_ok hrun
    have hsigned := (signsInLive_of_run hbody hissued).mp hsigns
    rcases hlive with ⟨-, -, hsame⟩ | ⟨hnew, -⟩
    · exact hsame.mp hsigned
    · exact absurd hid hnew.not_lt
  · intro hfinds issued hserve
    have hbody := AuthRequest.serve_ok hserve
    obtain ⟨_, written, hlogin, h⟩ := EStateM.run_bind_eq_ok hbody
    cases h
    obtain ⟨userId, hprofile, hissued, hlive⟩ := AuthService.oauthLogin_ok hlogin
    refine (signsInLive_of_run hbody hissued).mpr ?_ issued hserve
    rcases hlive with ⟨hid, hfresh, hsame⟩ | ⟨-, hlive⟩
    · exact hsame.mpr (hfinds hfresh userId hprofile hid)
    · exact hlive

/-- One request signs in the live only, if and only if it finds no dead user. -/
theorem signsInLive_iff (env : AuthEnv) (db : AccountDb) (request : AuthRequest) :
    SignsInLive env db request ↔ FindsLive env db request := by
  cases request with
  | register | verifyEmail | logout | forgotPassword | resetPassword | changePassword
    | setAccount =>
      refine iff_of_true (fun issued hserve => ?_) trivial
      obtain ⟨_, _, _, h⟩ := EStateM.run_bind_eq_ok (AuthRequest.serve_ok hserve)
      cases h
  | login email password context lockedOut fresh now later =>
      exact iff_of_true
        (login_signsInLive env db email password context lockedOut fresh now later) trivial
  | refresh raw fresh now later => exact refresh_signsInLive_iff env db raw fresh now later
  | oauthLogin profile context suffix fresh now later =>
      exact oauthLogin_signsInLive_iff env db profile context suffix fresh now later

/-- Every token of a history is for a live user, if and only if no OAuth login of the history
finds a dead user and no refresh presents a usable token of a deleted one. -/
theorem tokens_for_live_iff (env : AuthEnv) (db : AccountDb) (history : List AuthRequest) :
    Run.EveryStep (fun db request => request.step env db) (SignsInLive env) db history ↔
      Run.EveryStep (fun db request => request.step env db) (FindsLive env) db history :=
  Run.everyStep_congr (signsInLive_iff env)

/-! ## Dead users with tokens -/

def sampleProfile : OAuthProfile where
  provider := .google
  accountId := "1001"
  email := some "ada@example.com"
  name := none
  avatarUrl := none
  accessToken := "ya29"

/-- An account with a link to a provider. -/
def linkedAccount : AccountDb where
  users := [liveAccount]
  sessions := []
  refreshTokens := []
  emailTokens := []
  resetTokens := []
  oauthAccounts := [⟨0, "google", "1001", some "ada@example.com", none⟩]
  auditLog := []

/-- The account is disabled between two OAuth logins. -/
def disabledLogin : List AuthRequest :=
  [.oauthLogin sampleProfile sampleContext "aa" "t1" 0 0, .setAccount 0 false none,
    .oauthLogin sampleProfile sampleContext "bb" "t2" 20 20]

/-- The account is deleted while its refresh token is valid. -/
def deletedRefresh : List AuthRequest :=
  [.oauthLogin sampleProfile sampleContext "aa" "t1" 0 0, .setAccount 0 true (some 10),
    .refresh "t1" "t2" 20 20]

/-- Both get tokens. -/
theorem dead_users_get_tokens :
    (¬ Run.EveryStep (AuthRequest.step plainEnv) (SignsInLive plainEnv) linkedAccount
      disabledLogin) ∧
    ¬ Run.EveryStep (AuthRequest.step plainEnv) (SignsInLive plainEnv) linkedAccount
      deletedRefresh := by
  constructor
  · rintro ⟨-, -, hlast, -⟩
    obtain ⟨u, hu, hactive, -⟩ := (signsInLive_iff _ _ _).mp hlast (by decide) 0 rfl (by decide)
    cases hu
    cases hactive
  · rintro ⟨-, -, hlast, -⟩
    have hlive := (signsInLive_iff _ _ _).mp hlast (by decide) _ rfl
      ⟨rfl, rfl, by decide, ⟨_, rfl, rfl⟩, ⟨_, rfl, rfl⟩⟩ _ rfl
    cases hlive

end YoutubeFactory.Auth
