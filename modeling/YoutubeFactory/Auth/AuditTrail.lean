import YoutubeFactory.Auth.AccountCalls

/-!
# The audit log

The log only grows, and a request that returns leaves one row.  A login that fails on the
password writes its row and raises, so `session_scope` rolls the row back: the log is complete
in the runs without such a login, and in no others (`audit_complete_iff`).
-/

namespace YoutubeFactory.Auth

variable {env : AuthEnv} {db db' : AccountDb}

/-! ## Requests that are audited -/

/-- The action of a request, of the six that are audited. -/
def AuthRequest.action : AuthRequest → Option AuditAction
  | .login .. => some .userLogin
  | .oauthLogin .. => some .oauthLogin
  | .logout _ _ allDevices _ _ => some (if allDevices then .sessionsRevokedAll else .userLogout)
  | .verifyEmail .. => some .emailVerified
  | .resetPassword .. => some .passwordReset
  | .changePassword .. => some .passwordChanged
  | _ => none

/-- The user a request is about. -/
def AuthRequest.subject (env : AuthEnv) (db : AccountDb) : AuthRequest → Option Id
  | .login email .. => ((db.userByEmail env email).toOption.join).map Prod.snd
  | .oauthLogin profile .. => db.profileUser env profile
  | .logout userId .. => some userId
  | .verifyEmail token _ => ((db.emailTokenByHash env token).toOption.join).map (·.1.userId)
  | .resetPassword token .. => ((db.resetTokenByHash env token).toOption.join).map (·.1.userId)
  | .changePassword userId .. => some userId
  | _ => none

/-- A login that the guard lets through, of an existing user, with a password that is not the
account's. -/
def FailsOnPassword (env : AuthEnv) (db : AccountDb) : AuthRequest → Id → Prop
  | .login email password _ lockedOut _ _ _, userId =>
      lockedOut = false ∧ ∃ u, db.userByEmail env email = .ok (some (u, userId)) ∧
        ¬ u.Accepts env password
  | _, _ => False

/-- The request leaves the one row of an action and a user. -/
def Leaves (env : AuthEnv) (db : AccountDb) (request : AuthRequest) (action : AuditAction)
    (userId : Id) : Prop :=
  ∃ row, (request.step env db).auditLog = db.auditLog ++ [row] ∧ row.action = action.value ∧
    row.actorId = some userId

/-- What the log owes a request. -/
structure AuditComplete (env : AuthEnv) (db : AccountDb) (request : AuthRequest) : Prop where
  grows : db.auditLog <+: (request.step env db).auditLog
  returned : ∀ action issued, request.action = some action →
    (request.serve env db).1 = .ok issued →
    ∃ userId, request.subject env db = some userId ∧ Leaves env db request action userId
  failed : ∀ userId, FailsOnPassword env db request userId →
    Leaves env db request .userLoginFailed userId

/-! ## What the calls append -/

namespace AuthService

variable {userId : Id} {context : RequestContext} {now later : DateTime} {fresh : String}
  {issued : IssuedTokens}

/-- The call has appended a row of the action and the user. -/
def Appended (db db' : AccountDb) (action : AuditAction) (userId : Id) : Prop :=
  ∃ targetType targetId ip,
    db'.auditLog = db.auditLog ++ [entry action userId targetType targetId ip]

theorem verifyEmail_appended {token : String}
    (h : (verifyEmail env token now).run db = .ok () db') :
    ∃ row tokenId, db.emailTokenByHash env token = .ok (some (row, tokenId)) ∧
      Appended db db' .emailVerified row.userId := by
  have h := EStateM.get_bind_eq_ok h
  obtain ⟨found, hfound, h⟩ := answer_bind_eq_ok h
  split at h
  · cases h
  · next row tokenId hunused =>
      split at h
      · cases h
      · have h := EStateM.get_bind_eq_ok h
        split at h
        · cases h
        · have h := EStateM.modify_bind_eq_ok (EStateM.modify_bind_eq_ok h)
          obtain ⟨-, rfl⟩ := record_ok h
          rw [Option.filter_eq_some_iff] at hunused
          exact ⟨row, tokenId, hunused.1 ▸ hfound, _, _, _, rfl⟩

theorem resetPassword_appended {token newPassword : String}
    (h : (resetPassword env token newPassword now later).run db = .ok () db') :
    ∃ row tokenId, db.resetTokenByHash env token = .ok (some (row, tokenId)) ∧
      Appended db db' .passwordReset row.userId := by
  have h := EStateM.get_bind_eq_ok h
  obtain ⟨found, hfound, h⟩ := answer_bind_eq_ok h
  split at h
  · cases h
  · next row tokenId hunused =>
      split at h
      · cases h
      · have h := EStateM.get_bind_eq_ok h
        split at h
        · cases h
        · obtain ⟨hash, -, h⟩ := answer_bind_eq_ok h
          have h := EStateM.modify_bind_eq_ok (EStateM.modify_bind_eq_ok
            (EStateM.modify_bind_eq_ok h))
          obtain ⟨-, rfl⟩ := record_ok h
          rw [Option.filter_eq_some_iff] at hunused
          exact ⟨row, tokenId, hunused.1 ▸ hfound, _, _, _, rfl⟩

theorem changePassword_appended {current new : String}
    (h : (changePassword env userId current new).run db = .ok () db') :
    Appended db db' .passwordChanged userId := by
  have h := EStateM.get_bind_eq_ok h
  split at h
  · cases h
  · obtain ⟨hash, -, h⟩ := answer_bind_eq_ok h
    have h := EStateM.modify_bind_eq_ok h
    obtain ⟨-, rfl⟩ := record_ok h
    exact ⟨_, _, _, rfl⟩

theorem revokePresented_ok {refreshToken : Option String}
    (h : (revokePresented env refreshToken now later).run db = .ok () db') :
    db'.auditLog = db.auditLog := by
  unfold revokePresented at h
  split at h
  · cases h
    rfl
  · have h := EStateM.get_bind_eq_ok h
    obtain ⟨found, -, h⟩ := answer_bind_eq_ok h
    split at h
    · cases h
      rfl
    · cases h
      rfl

theorem logout_appended {refreshToken : Option String} {allDevices : Bool}
    (h : (logout env userId refreshToken allDevices now later).run db = .ok () db') :
    Appended db db' (if allDevices then .sessionsRevokedAll else .userLogout) userId := by
  cases allDevices with
  | true =>
      have h := EStateM.modify_bind_eq_ok h
      obtain ⟨-, rfl⟩ := record_ok h
      exact ⟨_, _, _, rfl⟩
  | false =>
      obtain ⟨_, revoked, hrevoke, h⟩ := EStateM.run_bind_eq_ok h
      obtain ⟨-, rfl⟩ := record_ok h
      exact ⟨_, _, _, by rw [revokePresented_ok hrevoke]; rfl⟩

theorem issueLogin_appended {action : AuditAction}
    (h : (issueLogin env userId context action fresh now later).run db = .ok issued db') :
    Appended db db' action userId := by
  obtain ⟨-, -, -, -, rfl⟩ := issueLogin_ok h
  exact ⟨_, _, _, rfl⟩

theorem oauthLogin_appended {profile : OAuthProfile} {suffix : String}
    (h : (oauthLogin env profile context suffix fresh now later).run db = .ok issued db') :
    ∃ userId, db.profileUser env profile = some userId ∧
      Appended db db' .oauthLogin userId := by
  obtain ⟨userId, found, huser, h⟩ := EStateM.run_bind_eq_ok h
  obtain ⟨hlog, hprofile, -⟩ := oauthUser_ok huser
  obtain ⟨targetType, targetId, ip, hrow⟩ := issueLogin_appended h
  exact ⟨userId, hprofile, targetType, targetId, ip, hlog ▸ hrow⟩

theorem sendVerification_ok {raw : String} {mailer : Except AccountError Unit}
    (h : (sendVerification env userId raw now mailer).run db = .ok () db') :
    db'.auditLog = db.auditLog := by
  have h := EStateM.get_bind_eq_ok h
  dsimp only at h
  split at h
  · cases h
  · cases mailer with
    | ok _ =>
        cases h
        rfl
    | error e => cases h

theorem register_appended {email username password raw : String} {displayName : Option String}
    {mailer : Except AccountError Unit}
    (h : (register env email username password displayName raw now mailer).run db =
      .ok userId db') : Appended db db' .userRegistered userId := by
  have h := EStateM.get_bind_eq_ok h
  obtain ⟨byEmail, -, h⟩ := answer_bind_eq_ok h
  split at h
  · cases h
  · have h := EStateM.get_bind_eq_ok h
    obtain ⟨byUsername, -, h⟩ := answer_bind_eq_ok h
    split at h
    · cases h
    · obtain ⟨hash, -, h⟩ := answer_bind_eq_ok h
      obtain ⟨id, added, hadd, h⟩ := EStateM.run_bind_eq_ok h
      obtain ⟨_, sent, hsend, h⟩ := EStateM.run_bind_eq_ok h
      obtain ⟨_, logged, hlog, h⟩ := EStateM.run_bind_eq_ok h
      cases h
      obtain ⟨-, rfl⟩ := addUser_ok hadd
      obtain ⟨-, rfl⟩ := record_ok hlog
      have hsent := sendVerification_ok hsend
      exact ⟨_, _, _, by rw [hsent]⟩

theorem forgotPassword_grows {email raw : String} {mailer : Except AccountError Unit}
    (h : (forgotPassword env email raw now mailer).run db = .ok () db') :
    db.auditLog <+: db'.auditLog := by
  have h := EStateM.get_bind_eq_ok h
  obtain ⟨found, -, h⟩ := answer_bind_eq_ok h
  split at h
  · cases h
    exact List.prefix_rfl
  · have h := EStateM.get_bind_eq_ok h
    dsimp only at h
    split at h
    · cases h
    · cases mailer with
      | ok _ =>
          have h := EStateM.modify_bind_eq_ok h
          obtain ⟨-, rfl⟩ := record_ok h
          exact List.prefix_append _ _
      | error e => cases h

theorem Appended.grows {action : AuditAction} (h : Appended db db' action userId) :
    db.auditLog <+: db'.auditLog := by
  obtain ⟨_, _, _, hrow⟩ := h
  rw [hrow]
  exact List.prefix_append _ _

end AuthService

/-! ## Requests -/

namespace AuthRequest

open AuthService

variable {request : AuthRequest} {issued : Option IssuedTokens}

/-- A request that is audited and returns leaves the row of its action and its user. -/
theorem leaves_of_ok {action : AuditAction} (haction : request.action = some action)
    (h : (request.serve env db).1 = .ok issued) :
    ∃ userId, request.subject env db = some userId ∧ Leaves env db request action userId := by
  have hrun := serve_ok h
  have leaves : ∀ userId, Appended db (request.step env db) action userId →
      Leaves env db request action userId := by
    rintro userId ⟨_, _, _, hrow⟩
    exact ⟨_, hrow, rfl, rfl⟩
  cases request with
  | register email username password displayName raw now mailer => cases haction
  | refresh rawRefresh fresh now later => cases haction
  | forgotPassword email raw now mailer => cases haction
  | setAccount userId isActive deletedAt => cases haction
  | verifyEmail token now =>
      cases haction
      obtain ⟨_, _, hcall, hrun⟩ := EStateM.run_bind_eq_ok hrun
      cases hrun
      obtain ⟨row, tokenId, hrow, happended⟩ := verifyEmail_appended hcall
      exact ⟨row.userId, by simp [subject, hrow, Except.toOption], leaves _ happended⟩
  | login email password context lockedOut fresh now later =>
      cases haction
      obtain ⟨_, _, hcall, hrun⟩ := EStateM.run_bind_eq_ok hrun
      cases hrun
      obtain ⟨-, u, userId, hfound, -, -, upgraded, hlog, -, hissue⟩ := login_ok hcall
      obtain ⟨targetType, targetId, ip, hrow⟩ := issueLogin_appended hissue
      exact ⟨userId, by simp [subject, hfound, Except.toOption],
        leaves _ ⟨targetType, targetId, ip, hlog ▸ hrow⟩⟩
  | logout userId refreshToken allDevices now later =>
      cases haction
      obtain ⟨_, _, hcall, hrun⟩ := EStateM.run_bind_eq_ok hrun
      cases hrun
      exact ⟨userId, rfl, leaves _ (logout_appended hcall)⟩
  | resetPassword token newPassword now later =>
      cases haction
      obtain ⟨_, _, hcall, hrun⟩ := EStateM.run_bind_eq_ok hrun
      cases hrun
      obtain ⟨row, tokenId, hrow, happended⟩ := resetPassword_appended hcall
      exact ⟨row.userId, by simp [subject, hrow, Except.toOption], leaves _ happended⟩
  | changePassword userId currentPassword newPassword =>
      cases haction
      obtain ⟨_, _, hcall, hrun⟩ := EStateM.run_bind_eq_ok hrun
      cases hrun
      exact ⟨userId, rfl, leaves _ (changePassword_appended hcall)⟩
  | oauthLogin profile context suffix fresh now later =>
      cases haction
      obtain ⟨_, _, hcall, hrun⟩ := EStateM.run_bind_eq_ok hrun
      cases hrun
      obtain ⟨userId, hprofile, happended⟩ := oauthLogin_appended hcall
      exact ⟨userId, hprofile, leaves _ happended⟩

/-- No request changes or removes a row. -/
theorem log_grows (env : AuthEnv) (db : AccountDb) (request : AuthRequest) :
    db.auditLog <+: (request.step env db).auditLog := by
  cases hserve : (request.serve env db).1 with
  | error e =>
      rw [step_of_error hserve]
  | ok issued =>
      have hrun := serve_ok hserve
      cases haction : request.action with
      | some action =>
          obtain ⟨_, -, row, hrow, -, -⟩ := leaves_of_ok haction hserve
          rw [hrow]
          exact List.prefix_append _ _
      | none =>
          cases request with
          | register email username password displayName raw now mailer =>
              obtain ⟨_, _, hcall, hrun⟩ := EStateM.run_bind_eq_ok hrun
              obtain ⟨_, hstep⟩ := EStateM.Result.ok.inj hrun
              rw [← hstep]
              exact (register_appended hcall).grows
          | refresh rawRefresh fresh now later =>
              obtain ⟨_, _, hcall, hrun⟩ := EStateM.run_bind_eq_ok hrun
              obtain ⟨_, hstep⟩ := EStateM.Result.ok.inj hrun
              obtain ⟨auth, -, hauth⟩ := onTokens_ok hcall
              rw [← hstep, hauth]
              exact List.prefix_rfl
          | forgotPassword email raw now mailer =>
              obtain ⟨_, _, hcall, hrun⟩ := EStateM.run_bind_eq_ok hrun
              obtain ⟨_, hstep⟩ := EStateM.Result.ok.inj hrun
              rw [← hstep]
              exact forgotPassword_grows hcall
          | setAccount userId isActive deletedAt => exact List.prefix_rfl
          | verifyEmail token now => cases haction
          | login email password context lockedOut fresh now later => cases haction
          | logout userId refreshToken allDevices now later => cases haction
          | resetPassword token newPassword now later => cases haction
          | changePassword userId currentPassword newPassword => cases haction
          | oauthLogin profile context suffix fresh now later => cases haction

/-- A login that fails on the password raises. -/
theorem error_of_failsOnPassword {userId : Id} (h : FailsOnPassword env db request userId) :
    ∃ e, (request.serve env db).1 = .error e := by
  cases hserve : (request.serve env db).1 with
  | error e => exact ⟨e, rfl⟩
  | ok issued =>
      cases request with
      | login email password context lockedOut fresh now later =>
          obtain ⟨-, u, hfound, hwrong⟩ := h
          obtain ⟨_, _, hcall, -⟩ := EStateM.run_bind_eq_ok (serve_ok hserve)
          obtain ⟨-, u', userId', hfound', haccepts, -⟩ := login_ok hcall
          rw [hfound] at hfound'
          cases hfound'
          exact absurd haccepts hwrong
      | _ => exact h.elim

/-- The log is complete for a request that is not such a login, and not for one that is. -/
theorem auditComplete_iff (env : AuthEnv) (db : AccountDb) (request : AuthRequest) :
    AuditComplete env db request ↔ ∀ userId, ¬ FailsOnPassword env db request userId := by
  constructor
  · intro hcomplete userId hfails
    obtain ⟨row, hrow, -, -⟩ := hcomplete.failed userId hfails
    obtain ⟨e, herror⟩ := error_of_failsOnPassword hfails
    rw [step_of_error herror] at hrow
    exact absurd hrow (by simp)
  · intro hnone
    exact ⟨log_grows env db request, fun _ _ haction hserve => leaves_of_ok haction hserve,
      fun userId hfails => absurd hfails (hnone userId)⟩

end AuthRequest

/-- The log is complete all along the histories without a login that fails on the password of
an existing user, and along no others. -/
theorem audit_complete_iff (env : AuthEnv) (db : AccountDb) (history : List AuthRequest) :
    Run.EveryStep (AuthRequest.step env) (AuditComplete env) db history ↔
      Run.EveryStep (AuthRequest.step env)
        (fun db request => ∀ userId, ¬ FailsOnPassword env db request userId) db history :=
  Run.everyStep_congr fun db request => AuthRequest.auditComplete_iff env db request

def wrongPassword : AuthRequest :=
  .login "ada@example.com" "Wrong-Horse-7" sampleContext false "t1" 0 0

/-- A wrong password leaves no row. -/
theorem failed_login_not_logged :
    FailsOnPassword plainEnv oneAccount wrongPassword 0 ∧
      (wrongPassword.step plainEnv oneAccount).auditLog = [] ∧
      ¬ Run.EveryStep (AuthRequest.step plainEnv) (AuditComplete plainEnv) oneAccount
        [wrongPassword] := by
  have hfails : FailsOnPassword plainEnv oneAccount wrongPassword 0 := by
    have hfound : scalarOneOrNone [liveAccount] (fun u => plainEnv.sqlLower u.email =
        plainEnv.lower "ada@example.com" ∧ u.deletedAt = none) = .ok (some (liveAccount, 0)) := by
      simp [scalarOneOrNone, plainEnv, liveAccount]
    refine ⟨rfl, liveAccount, hfound, ?_⟩
    rintro ⟨hash, hhash, hverify⟩
    cases hhash
    revert hverify
    decide
  obtain ⟨e, herror⟩ := AuthRequest.error_of_failsOnPassword hfails
  refine ⟨hfails, ?_, fun hevery => ?_⟩
  · rw [AuthRequest.step_of_error herror]
    rfl
  · exact (AuthRequest.auditComplete_iff plainEnv oneAccount wrongPassword).mp hevery.1 0 hfails

end YoutubeFactory.Auth
