import YoutubeFactory.Auth.SessionRequests

/-!
# Revocation against requests in flight

No request clears `revoked_at` of a session, and the column is written alone, so a revoked
session stays revoked whatever else is committed (`Onward`).  A request that revokes all sessions
of a user lists the active ones after it has begun and marks each, so when it has returned the
sessions that were there when it began are revoked: those it did not list were revoked before.

What an access token or a refresh token is good for is decided by its session alone: a request
that has not yet looked at the session of its token is refused, also if the token was written by
a rotation that was under way (`revocation_total_and_permanent`).
-/

namespace YoutubeFactory.Auth

open Transactions

/-! ## What any commit keeps -/

/-- The session exists and is revoked. -/
def SharedDb.Revoked (db : SharedDb) (id : Id) : Prop :=
  ∃ row, db.session id = some row ∧ row.revokedAt ≠ none

/-- The session exists and is the user's. -/
def SharedDb.Owned (db : SharedDb) (id userId : Id) : Prop :=
  ∃ row, db.session id = some row ∧ row.userId = userId

/-- Sessions stay, with their user, and stay revoked.  Tokens stay with their hash and session,
and reset tokens with their hash and user. -/
structure Onward (db db' : SharedDb) : Prop where
  sessions : ∀ id row, db.session id = some row → ∃ row', db'.session id = some row' ∧
    row'.userId = row.userId ∧ (row.revokedAt ≠ none → row'.revokedAt ≠ none)
  tokens : ∀ row ∈ db.refreshTokens, ∃ row' ∈ db'.refreshTokens,
    row'.tokenHash = row.tokenHash ∧ row'.sessionId = row.sessionId
  resetTokens : db'.resetTokens.map (fun t => (t.tokenHash, t.userId)) =
    db.resetTokens.map fun t => (t.tokenHash, t.userId)

namespace Onward

variable {db db' db'' : SharedDb} {id userId : Id}

theorem refl (db : SharedDb) : Onward db db :=
  ⟨fun _ row h => ⟨row, h, rfl, fun hr => hr⟩, fun row h => ⟨row, h, rfl, rfl⟩, rfl⟩

theorem trans (h : Onward db db') (h' : Onward db' db'') : Onward db db'' where
  sessions id row hrow := by
    obtain ⟨row', hrow', huser, hrevoked⟩ := h.sessions id row hrow
    obtain ⟨row'', hrow'', huser', hrevoked'⟩ := h'.sessions id row' hrow'
    exact ⟨row'', hrow'', huser'.trans huser, fun hr => hrevoked' (hrevoked hr)⟩
  tokens row hrow := by
    obtain ⟨row', hrow', hhash, hsession⟩ := h.tokens row hrow
    obtain ⟨row'', hrow'', hhash', hsession'⟩ := h'.tokens row' hrow'
    exact ⟨row'', hrow'', hhash'.trans hhash, hsession'.trans hsession⟩
  resetTokens := h'.resetTokens.trans h.resetTokens

theorem revoked (h : Onward db db') (hrevoked : db.Revoked id) : db'.Revoked id := by
  obtain ⟨row, hrow, hmarked⟩ := hrevoked
  obtain ⟨row', hrow', -, hkept⟩ := h.sessions id row hrow
  exact ⟨row', hrow', hkept hmarked⟩

theorem owned (h : Onward db db') (howned : db.Owned id userId) : db'.Owned id userId := by
  obtain ⟨row, hrow, huser⟩ := howned
  obtain ⟨row', hrow', huser', -⟩ := h.sessions id row hrow
  exact ⟨row', hrow', huser'.trans huser⟩

end Onward

namespace SharedDb

variable {db db' : SharedDb}

theorem session_some {id : Id} {row : SessionRow} (h : db.session id = some row) :
    row ∈ db.sessions ∧ row.id = id := by
  unfold session at h
  exact ⟨List.mem_of_find?_eq_some h, by simpa using List.find?_some h⟩

/-- A change to columns of a session, found by its id. -/
theorem session_map {change : SessionRow → SessionRow} {changed id : Id}
    (hid : ∀ s, (change s).id = s.id) :
    (db.sessions.map fun s => if s.id = changed then change s else s).find?
        (fun s => s.id = id) =
      (db.session id).map fun s => if s.id = changed then change s else s := by
  have hsame : ∀ s : SessionRow, (if s.id = changed then change s else s).id = s.id := by
    intro s
    split
    · exact hid s
    · rfl
  rw [session, List.find?_map]
  congr 2
  funext s
  simp only [Function.comp_apply, hsame]

theorem within_of_sessions {c : Change SharedDb}
    (h : ∀ db db', c db = some db' → db'.sessions = db.sessions ∧
      db'.refreshTokens = db.refreshTokens ∧
      db'.resetTokens.map (fun t => (t.tokenHash, t.userId)) =
        db.resetTokens.map fun t => (t.tokenHash, t.userId)) : Within Onward c := by
  intro db db' hc
  obtain ⟨hsessions, htokens, hreset⟩ := h db db' hc
  refine ⟨fun id row hrow => ⟨row, ?_, rfl, fun hr => hr⟩, fun row hrow => ⟨row, ?_, rfl, rfl⟩,
    hreset⟩
  · rw [session, hsessions]
    exact hrow
  · rw [htokens]
    exact hrow

theorem insertSession_within (row : SessionRow) : Within Onward (insertSession row) := by
  intro db db' h
  unfold insertSession at h
  split at h
  · cases h
  · cases h
    refine ⟨fun id old hold => ⟨old, ?_, rfl, fun hr => hr⟩, (Onward.refl db).tokens, rfl⟩
    rw [session, List.find?_append]
    rw [session] at hold
    rw [hold]
    rfl

theorem insertToken_within (row : TokenRow) : Within Onward (insertToken row) := by
  intro db db' h
  unfold insertToken at h
  split at h
  · cases h
  · cases h
    refine ⟨(Onward.refl db).sessions, fun old hold => ⟨old, ?_, rfl, rfl⟩, rfl⟩
    exact List.mem_append_left _ hold

/-- A change to a session that keeps its id, its user and its revocation. -/
theorem updateSession_within {id : Id} {change : SessionRow → SessionRow}
    (hid : ∀ s, (change s).id = s.id) (huser : ∀ s, (change s).userId = s.userId)
    (hrevoked : ∀ s, s.revokedAt ≠ none → (change s).revokedAt ≠ none) :
    Within Onward (updateSession id change) := by
  intro db db' h
  cases h
  refine ⟨fun other row hrow => ?_, (Onward.refl db).tokens, rfl⟩
  refine ⟨if row.id = id then change row else row, ?_, ?_, ?_⟩
  · rw [session, session_map hid, hrow]
    rfl
  · split
    · exact huser row
    · rfl
  · split
    · exact hrevoked row
    · exact fun hr => hr

theorem markRevoked_within (id : Id) (now : DateTime) : Within Onward (markRevoked id now) :=
  updateSession_within (fun _ => rfl) (fun _ => rfl) fun _ _ h => nomatch h

theorem touch_within (id : Id) (now : DateTime) : Within Onward (touch id now) :=
  updateSession_within (fun _ => rfl) (fun _ => rfl) fun _ h => h

/-- A change to tokens that keeps hash and session. -/
theorem updateTokens_within {passes : TokenRow → Bool} {change : TokenRow → TokenRow}
    (hhash : ∀ t, (change t).tokenHash = t.tokenHash)
    (hsession : ∀ t, (change t).sessionId = t.sessionId) :
    Within Onward (updateTokens passes change) := by
  intro db db' h
  cases h
  refine ⟨(Onward.refl db).sessions, fun row hrow => ⟨_, List.mem_map_of_mem hrow, ?_, ?_⟩, rfl⟩
  · split
    · exact hhash row
    · rfl
  · split
    · exact hsession row
    · rfl

theorem revokeForSession_within (sessionId : Id) (now : DateTime) :
    Within Onward (revokeForSession sessionId now) :=
  updateTokens_within (fun _ => rfl) fun _ => rfl

theorem consume_within (id : Id) (successor : Option Id) (now : DateTime) :
    Within Onward (consume id successor now) :=
  updateTokens_within (fun _ => rfl) fun _ => rfl

theorem updateUser_within (userId : Id) (change : Account → Account) :
    Within Onward (updateUser userId change) :=
  within_of_sessions fun _ _ h => by cases h; exact ⟨rfl, rfl, rfl⟩

theorem useResetToken_within (tokenId : Id) (now : DateTime) :
    Within Onward (useResetToken tokenId now) :=
  within_of_sessions fun _ _ h => by
    cases h
    refine ⟨rfl, rfl, ?_⟩
    rw [Table.map_modify]
    exact fun _ => rfl

theorem record_within (action : AuditAction) (actorId : Id)
    (targetType targetId ipAddress : Option String) :
    Within Onward (record action actorId targetType targetId ipAddress) :=
  within_of_sessions fun _ _ h => by
    unfold record at h
    split at h
    · cases h
      exact ⟨rfl, rfl, rfl⟩
    · cases h

/-- A session that is marked is revoked. -/
theorem markRevoked_revokes {id userId : Id} {now : DateTime} (h : markRevoked id now db = some db')
    (howned : db.Owned id userId) : db'.Revoked id := by
  obtain ⟨row, hrow, -⟩ := howned
  have hid : row.id = id := (session_some hrow).2
  cases h
  refine ⟨{ row with revokedAt := some now }, ?_, nofun⟩
  have hmap := @session_map db (fun s => { s with revokedAt := some now }) id id fun _ => rfl
  rw [hrow, Option.map_some, if_pos hid] at hmap
  exact hmap

end SharedDb

/-! ## Every request goes onward -/

namespace Call

open Program SharedDb

variable {env : RequestEnv} {now later : DateTime} {loaded : List SessionRow}

theorem getSession_within (loaded : List SessionRow) (id : Id) :
    (getSession loaded id).Within Onward := by
  unfold getSession
  split
  · trivial
  · exact fun _ => trivial

theorem markIf_within (condition : Bool) (sessionId : Id) :
    (markIf condition sessionId now).Within Onward := by
  unfold markIf
  split
  · exact .change (markRevoked_within _ now)
  · trivial

theorem revokeSession_within (loaded : List SessionRow) (sessionId : Id) :
    (revokeSession loaded sessionId now later).Within Onward := by
  refine (getSession_within loaded sessionId).bind fun found => ?_
  exact (markIf_within _ sessionId).bind fun _ => .change (revokeForSession_within _ later)

theorem revokeEach_within (loaded : List SessionRow) :
    ∀ rows, (revokeEach loaded now later rows).Within Onward
  | [] => trivial
  | row :: rows => (revokeSession_within loaded row.id).bind fun _ => revokeEach_within loaded rows

theorem revokeAllForUser_within (loaded : List SessionRow) (userId : Id) :
    (revokeAllForUser loaded userId now later).Within Onward :=
  fun db => revokeEach_within _ (db.activeSessions userId)

theorem currentUser_within (accessToken : Option String) :
    (currentUser env accessToken now).Within Onward := by
  unfold currentUser
  split
  · trivial
  · split
    · trivial
    · refine Within.tables.bind fun db => ?_
      split
      · trivial
      · split
        · trivial
        · refine Within.tables.bind fun db => ?_
          split <;> trivial

theorem issueTokens_within (userId sessionId tokenId : Id) (raw : String) :
    (issueTokens env userId sessionId tokenId raw now).Within Onward :=
  (Within.change (insertToken_within _)).bind fun _ => trivial

theorem issueLogin_within (userId : Id) (context : RequestContext) (sessionId tokenId : Id)
    (fresh : String) :
    (issueLogin env userId context sessionId tokenId fresh now later).Within Onward := by
  refine (Within.change (updateUser_within _ _)).bind fun _ => ?_
  refine (Within.change (insertSession_within _)).bind fun _ => ?_
  refine (issueTokens_within _ _ _ _).bind fun issued => ?_
  exact (Within.change (record_within _ _ _ _ _)).bind fun _ => trivial

theorem login_within (email password : String) (context : RequestContext) (lockedOut : Bool)
    (sessionId tokenId : Id) (fresh : String) :
    (login env email password context lockedOut sessionId tokenId fresh now later).Within
      Onward := by
  unfold login
  split
  · trivial
  · refine Within.tables.bind fun db => (Within.ofExcept _).bind fun user => ?_
    dsimp only
    split
    · trivial
    · split
      · split
        · trivial
        · refine Within.bind ?_ fun _ => issueLogin_within _ _ _ _ _
          unfold upgradeHash
          split
          · exact (Within.ofExcept _).bind fun _ => .change (updateUser_within _ _)
          · trivial
      · exact (Within.change (record_within _ _ _ _ _)).bind fun _ => trivial

theorem rotateToken_within (token : TokenRow) (tokenId : Id) (fresh : String) :
    (rotateToken env token tokenId fresh now later).Within Onward := by
  unfold rotateToken
  split
  · refine (Within.change (revokeForSession_within _ _)).bind fun _ => ?_
    exact Within.tables.bind fun db => (markIf_within _ _).bind fun _ => trivial
  · split
    · trivial
    · refine Within.tables.bind fun db => ?_
      split
      · refine Within.tables.bind fun db => ?_
        split
        · refine (issueTokens_within _ _ _ _).bind fun issued => Within.tables.bind fun db => ?_
          refine (Within.ofExcept _).bind fun successor => ?_
          refine (Within.change (consume_within _ _ _)).bind fun _ => ?_
          exact (Within.change (touch_within _ _)).bind fun _ => trivial
        · trivial
      · trivial

theorem rotate_within (rawRefresh : String) (tokenId : Id) (fresh : String) :
    (rotate env rawRefresh tokenId fresh now later).Within Onward := by
  refine Within.tables.bind fun db => (Within.ofExcept _).bind fun found => ?_
  split
  · trivial
  · exact rotateToken_within _ tokenId fresh

theorem revokePresented_within (loaded : List SessionRow) (refreshToken : Option String) :
    (revokePresented env loaded refreshToken now later).Within Onward := by
  unfold revokePresented
  split
  · trivial
  · refine Within.tables.bind fun db => (Within.ofExcept _).bind fun found => ?_
    split
    · trivial
    · exact revokeSession_within loaded _

theorem logout_within (userId : Id) (refreshToken : Option String) (allDevices : Bool) :
    (logout env userId loaded refreshToken allDevices now later).Within Onward := by
  unfold logout
  split
  · exact (revokeAllForUser_within loaded userId).bind fun _ => .change (record_within _ _ _ _ _)
  · exact (revokePresented_within loaded refreshToken).bind fun _ =>
      .change (record_within _ _ _ _ _)

theorem terminate_within (userId sessionId : Id) :
    (terminate userId loaded sessionId now later).Within Onward := by
  refine (getSession_within loaded sessionId).bind fun found => ?_
  split
  · trivial
  · split
    · trivial
    · exact (revokeSession_within _ _).bind fun _ => .change (record_within _ _ _ _ _)

theorem terminateAll_within (userId : Id) :
    (terminateAll userId loaded now later).Within Onward :=
  (revokeAllForUser_within loaded userId).bind fun _ => .change (record_within _ _ _ _ _)

theorem resetPassword_within (token newPassword : String) :
    (resetPassword env token newPassword now later).Within Onward := by
  refine Within.tables.bind fun db => (Within.ofExcept _).bind fun found => ?_
  split
  · trivial
  · split
    · trivial
    · refine Within.tables.bind fun db => ?_
      split
      · trivial
      · refine (Within.ofExcept _).bind fun hash => ?_
        refine (Within.change (updateUser_within _ _)).bind fun _ => ?_
        refine (Within.change (useResetToken_within _ _)).bind fun _ => ?_
        exact (revokeAllForUser_within _ _).bind fun _ => .change (record_within _ _ _ _ _)

end Call

/-! ## Revoking all sessions of a user -/

namespace Call

open Program SharedDb

variable {env : RequestEnv} {now later : DateTime} {loaded : List SessionRow}
  {written : List (Change SharedDb)} {db : SharedDb} {id userId : Id}

/-- The session is the user's, and revoked or marked. -/
structure Covered (id userId : Id) (now : DateTime) (written : List (Change SharedDb))
    (db : SharedDb) : Prop where
  owned : db.Owned id userId
  marked : db.Revoked id ∨ markRevoked id now ∈ written
  within : ∀ c ∈ written, Within Onward c

/-- What covers a session when the transaction commits has revoked it. -/
theorem Covered.revoked {db' : SharedDb} (h : Covered id userId now written db)
    (hcommit : applyAll written db = some db') : db'.Revoked id := by
  rcases h.marked with hrevoked | hmarked
  · exact (applyAll_within Onward.refl Onward.trans h.within hcommit).revoked hrevoked
  · obtain ⟨before, after, rfl⟩ := List.append_of_mem hmarked
    rw [applyAll_append, Option.bind_eq_some_iff] at hcommit
    obtain ⟨first, hfirst, hrest⟩ := hcommit
    rw [applyAll_cons, Option.bind_eq_some_iff] at hrest
    obtain ⟨second, hmark, hlast⟩ := hrest
    have hbefore : Onward db first := applyAll_within Onward.refl Onward.trans
      (fun c hc => h.within c (List.mem_append_left _ hc)) hfirst
    have hafter : Onward second db' := applyAll_within Onward.refl Onward.trans
      (fun c hc => h.within c (List.mem_append_right _ (List.mem_cons_of_mem _ hc))) hlast
    exact hafter.revoked (markRevoked_revokes hmark (hbefore.owned h.owned))

/-- A session that the identity map holds as active is marked, and its tokens are revoked. -/
theorem revokeSession_of_active {found : SessionRow}
    (hfound : loaded.find? (fun s => s.id = id) = some found)
    (hactive : found.revokedAt = none) :
    revokeSession loaded id now later = (do
      change (markRevoked id now)
      change (SharedDb.revokeForSession id later)) := by
  have hcondition : (some found).any (fun s => s.revokedAt = none) = true := by
    simp [hactive]
  unfold revokeSession getSession
  rw [hfound]
  show (markIf ((some found).any fun s : SessionRow => s.revokedAt = none) id now >>=
    fun _ => change (SharedDb.revokeForSession id later)) = _
  rw [hcondition]
  rfl

/-- Each session of the loop is marked, where the identity map holds it as active. -/
theorem revokeEach_ensures (hopen : ∀ r ∈ loaded, r.revokedAt = none) :
    ∀ {rows : List SessionRow} {written : List (Change SharedDb)} {db : SharedDb},
      (∀ row ∈ rows, ∃ r ∈ loaded, r.id = row.id) →
      (revokeEach loaded now later rows).Ensures Onward
        (fun _ written' _ => written <+: written' ∧
          ∀ row ∈ rows, markRevoked row.id now ∈ written') written db
  | [], written, _, _ => fun _ _ =>
      ⟨List.prefix_refl written, fun _ hrow => absurd hrow List.not_mem_nil⟩
  | row :: rows, written, db, hloaded => by
      obtain ⟨found, hfound, hactive⟩ :
          ∃ found, loaded.find? (fun s => s.id = row.id) = some found ∧ found.revokedAt = none := by
        obtain ⟨r, hr, hid⟩ := hloaded row List.mem_cons_self
        cases hfind : loaded.find? fun s => s.id = row.id with
        | none => exact absurd (decide_eq_true hid) (List.find?_eq_none.mp hfind r hr)
        | some found => exact ⟨found, rfl, hopen found (List.mem_of_find?_eq_some hfind)⟩
      unfold revokeEach
      rw [revokeSession_of_active hfound hactive]
      refine fun db₁ _ db₂ _ => ?_
      refine (revokeEach_ensures hopen fun r hr => hloaded r (List.mem_cons_of_mem _ hr)).imp ?_
      rintro - written' db' ⟨hgrows, hmarked⟩
      refine ⟨?_, fun r hr => ?_⟩
      · exact ((List.prefix_append _ _).trans (List.prefix_append _ _)).trans hgrows
      · rcases List.mem_cons.mp hr with rfl | hr
        · have hmark : markRevoked r.id now ∈ written ++ [markRevoked r.id now] :=
            List.mem_append_right _ List.mem_cons_self
          exact hgrows.subset (List.mem_append_left _ hmark)
        · exact hmarked r hr

/-- All sessions that the user has are covered, if the transaction has not touched them. -/
theorem revokeAllForUser_ensures (hopen : ∀ r ∈ loaded, r.revokedAt = none)
    (hquiet : ∀ db db', applyAll written db = some db' → db'.sessions = db.sessions)
    (hwithin : ∀ c ∈ written, Within Onward c) (howned : db.Owned id userId) :
    (revokeAllForUser loaded userId now later).Ensures Onward
      (fun _ => Covered id userId now) written db := by
  refine fun db₁ hdb view hview => ?_
  have hopen' : ∀ r ∈ loaded ++ view.activeSessions userId, r.revokedAt = none := by
    intro r hr
    rcases List.mem_append.mp hr with hr | hr
    · exact hopen r hr
    · have hboth := of_decide_eq_true (List.mem_filter.mp hr).2
      exact hboth.2
  have hloaded : ∀ row ∈ view.activeSessions userId,
      ∃ r ∈ loaded ++ view.activeSessions userId, r.id = row.id :=
    fun row hrow => ⟨row, List.mem_append_right _ hrow, rfl⟩
  have hkeeps : (revokeEach (loaded ++ view.activeSessions userId) now later
      (view.activeSessions userId)).Within Onward := revokeEach_within _ _
  refine (((revokeEach_ensures hopen' hloaded).and
    (ensures_rel _ Onward.trans (Onward.refl db₁))).and (hkeeps.ensures hwithin)).imp ?_
  rintro - written' db' ⟨⟨⟨-, hmarked⟩, hrel⟩, hwithin'⟩
  refine ⟨hrel.owned (hdb.owned howned), ?_, hwithin'⟩
  obtain ⟨row, hrow, huser⟩ := hdb.owned howned
  by_cases hrevoked : row.revokedAt = none
  · -- The session is active now, so it is listed.
    have hmem : row ∈ view.activeSessions userId := by
      refine List.mem_filter.mpr ⟨?_, decide_eq_true ⟨huser, hrevoked⟩⟩
      rw [hquiet db₁ view hview]
      exact (session_some hrow).1
    exact .inr ((session_some hrow).2 ▸ hmarked row hmem)
  · exact .inl (hrel.revoked ⟨row, hrow, hrevoked⟩)

theorem Covered.onward {db' : SharedDb} (h : Covered id userId now written db)
    (hdb : Onward db db') : Covered id userId now written db' where
  owned := hdb.owned h.owned
  marked := h.marked.imp hdb.revoked fun hmem => hmem
  within := h.within

/-- The audit row comes last. -/
theorem record_ensures (action : AuditAction) (actorId : Id)
    (targetType targetId ipAddress : Option String) (h : Covered id userId now written db) :
    (change (record action actorId targetType targetId ipAddress) : Call Unit).Ensures Onward
      (fun _ => Covered id userId now) written db := by
  intro db₁ hdb₁ db₂ hdb₂
  refine ⟨hdb₂.owned (hdb₁.owned h.owned), ?_, fun c hc => ?_⟩
  · exact ((h.onward hdb₁).onward hdb₂).marked.imp (fun hr => hr) fun hmem =>
      List.mem_append_left _ hmem
  · rcases List.mem_append.mp hc with hold | hnew
    · exact h.within c hold
    · exact List.mem_singleton.mp hnew ▸ record_within _ _ _ _ _

/-- The access token is good for these claims. -/
def Bears (env : RequestEnv) (accessToken : Option String) (now : DateTime) (claims : Claims) :
    Prop :=
  ∃ token, given accessToken = some token ∧ env.decodeAccessToken now token = .ok claims

theorem currentUser_eq {accessToken : Option String} {claims : Claims}
    (h : Bears env accessToken now claims) :
    currentUser env accessToken now = claimedUser claims := by
  obtain ⟨token, hgiven, hdecode⟩ := h
  unfold currentUser
  rw [hgiven]
  dsimp only
  rw [hdecode]

/-- The user of an access token, with its session, which is active. -/
theorem currentUser_ensures {accessToken : Option String} {claims : Claims}
    (h : Bears env accessToken now claims) :
    (currentUser env accessToken now).Ensures Onward
      (fun user written' _ => user.1 = claims.subject ∧ user.2.revokedAt = none ∧
        written' = written) written db := by
  rw [currentUser_eq h]
  refine fun db₁ _ view _ => ?_
  dsimp only [Program.bind]
  split
  · trivial
  · next loginSession _ =>
      split
      · trivial
      · next hactive =>
          refine fun db₂ _ view₂ _ => ?_
          show Program.Ensures _ _ (if _ then _ else _) written db₂
          split
          · exact fun _ _ => ⟨rfl, by simpa using hactive, rfl⟩
          · trivial

/-- The reset token that is found is the one that was there. -/
theorem resetToken_user {db' : SharedDb} {token : String} {row : OneTimeToken} {tokenId : Id}
    (hdb : Onward db db')
    (hfound : db'.accounts.resetTokenByHash env.toAuthEnv token = .ok (some (row, tokenId)))
    {old : OneTimeToken} (hold : old ∈ db.resetTokens)
    (hhash : old.tokenHash = env.security.hashToken token) : row.userId = old.userId := by
  have hmem : (old.tokenHash, old.userId) ∈
      db'.resetTokens.map fun t => (t.tokenHash, t.userId) := by
    rw [hdb.resetTokens]
    exact List.mem_map_of_mem hold
  obtain ⟨same, hsame, hcolumns⟩ := List.mem_map.mp hmem
  rw [Prod.mk.injEq] at hcolumns
  have hrow : same = row :=
    scalarOneOrNone_unique hfound same hsame (decide_eq_true (hcolumns.1.trans hhash))
  exact hrow ▸ hcolumns.2

theorem resetPassword_ensures {token : String} (newPassword : String) {old : OneTimeToken}
    (hold : old ∈ db.resetTokens) (hhash : old.tokenHash = env.security.hashToken token)
    (howned : db.Owned id old.userId) :
    (resetPassword env token newPassword now later).Ensures Onward
      (fun _ => Covered id old.userId now) [] db := by
  refine fun db₁ hdb₁ view hview => ?_
  cases hview
  show Program.Ensures _ _ (ofExcept (db₁.accounts.resetTokenByHash env.toAuthEnv token) >>= _)
    [] db₁
  cases hfound : db₁.accounts.resetTokenByHash env.toAuthEnv token with
  | error e => trivial
  | ok found =>
      dsimp only [Program.ofExcept, Program.bind, bind]
      split
      · trivial
      · next row tokenId hopen =>
          have huser : row.userId = old.userId :=
            resetToken_user hdb₁ (hfound.trans (congrArg _ (Option.filter_eq_some_iff.mp hopen).1))
              hold hhash
          split
          · trivial
          · refine fun db₂ hdb₂ view₂ _ => ?_
            dsimp only [Program.bind]
            split
            · trivial
            · cases env.hashPassword newPassword with
              | error e => trivial
              | ok passwordHash =>
                  refine fun db₃ hdb₃ db₄ hdb₄ => ?_
                  rw [huser]
                  show Program.Ensures _ _ (revokeAllForUser [] old.userId now later >>= _) _ db₄
                  refine Ensures.bind ?_ Onward.refl
                  refine (revokeAllForUser_ensures (fun r hr => ?_) ?_ ?_ ?_).imp fun _ _ _ h =>
                    record_ensures _ _ _ _ _ h
                  · exact absurd hr List.not_mem_nil
                  · intro before after happly
                    cases happly
                    rfl
                  · intro c hc
                    simp only [List.nil_append, List.cons_append, List.mem_cons,
                      List.not_mem_nil, or_false] at hc
                    rcases hc with rfl | rfl
                    · exact updateUser_within _ _
                    · exact useResetToken_within _ _
                  · exact hdb₄.owned (hdb₃.owned (hdb₂.owned (hdb₁.owned howned)))

/-- The end of `logout` from all devices, and of `terminate_all`. -/
theorem revokeAll_record_ensures {loginSession : SessionRow} (action : AuditAction)
    (hactive : loginSession.revokedAt = none) (howned : db.Owned id userId) :
    (do
      revokeAllForUser [loginSession] userId now later
      change (record action userId none none none) : Call Unit).Ensures Onward
      (fun _ => Covered id userId now) [] db := by
  refine Ensures.bind ?_ Onward.refl
  refine (revokeAllForUser_ensures (fun r hr => ?_) ?_ (fun c hc => ?_) howned).imp
    fun _ _ _ h => record_ensures _ _ _ _ _ h
  · rwa [List.mem_singleton.mp hr]
  · intro before after happly
    cases happly
    rfl
  · exact absurd hc List.not_mem_nil

/-- What follows `get_current_user`. -/
theorem currentUser_bind_ensures {α : Type} {accessToken : Option String} {claims : Claims}
    {f : Id × SessionRow → Call α} {post : α → List (Change SharedDb) → SharedDb → Prop}
    (h : Bears env accessToken now claims)
    (hf : ∀ loginSession db', loginSession.revokedAt = none → Onward db db' →
      (f (claims.subject, loginSession)).Ensures Onward post [] db') :
    (currentUser env accessToken now >>= f).Ensures Onward post [] db := by
  refine Ensures.bind ?_ Onward.refl
  refine ((currentUser_ensures h).and (ensures_rel _ Onward.trans (Onward.refl db))).imp ?_
  rintro ⟨userId, loginSession⟩ written db' ⟨⟨huser, hactive, rfl⟩, hdb⟩
  cases huser
  exact hf loginSession db' hactive hdb

end Call

theorem SessionRequest.program_within (env : RequestEnv) (request : SessionRequest) :
    (request.program env).Within Onward := by
  cases request with
  | login => exact (Call.login_within _ _ _ _ _ _ _).bind fun _ => trivial
  | refresh => exact (Call.rotate_within _ _ _).bind fun _ => trivial
  | logout =>
      exact (Call.currentUser_within _).bind fun _ =>
        (Call.logout_within _ _ _).bind fun _ => trivial
  | terminate =>
      exact (Call.currentUser_within _).bind fun _ =>
        (Call.terminate_within _ _).bind fun _ => trivial
  | terminateAll =>
      exact (Call.currentUser_within _).bind fun _ =>
        (Call.terminateAll_within _).bind fun _ => trivial
  | resetPassword => exact (Call.resetPassword_within _ _).bind fun _ => trivial
  | authenticated => exact (Call.currentUser_within _).bind fun _ => trivial

/-- The request revokes all sessions of the user. -/
def SessionRequest.RevokesAll (env : RequestEnv) (db : SharedDb) (userId : Id) :
    SessionRequest → Prop
  | .logout accessToken _ allDevices now _ => allDevices = true ∧
      ∃ claims, Call.Bears env accessToken now claims ∧ claims.subject = userId
  | .terminateAll accessToken now _ =>
      ∃ claims, Call.Bears env accessToken now claims ∧ claims.subject = userId
  | .resetPassword token _ _ _ => ∃ row ∈ db.resetTokens,
      row.tokenHash = env.security.hashToken token ∧ row.userId = userId
  | _ => False

/-- When such a request gets to its end, each session the user had is covered. -/
theorem SessionRequest.RevokesAll.ensures {env : RequestEnv} {db : SharedDb} {id userId : Id}
    {request : SessionRequest} (h : request.RevokesAll env db userId)
    (howned : db.Owned id userId) :
    ∃ now, (request.program env).Ensures Onward (fun _ => Call.Covered id userId now) [] db := by
  cases request with
  | login | refresh | terminate | authenticated => exact h.elim
  | logout accessToken refreshToken allDevices now later =>
      obtain ⟨rfl, claims, hbears, rfl⟩ := h
      refine ⟨now, Call.currentUser_bind_ensures hbears fun loginSession db' hactive hdb => ?_⟩
      refine Program.Ensures.bind ?_ Onward.refl
      refine (Call.revokeAll_record_ensures _ hactive (hdb.owned howned)).imp fun _ _ _ h => ?_
      exact fun db' hdb' => h.onward hdb'
  | terminateAll accessToken now later =>
      obtain ⟨claims, hbears, rfl⟩ := h
      refine ⟨now, Call.currentUser_bind_ensures hbears fun loginSession db' hactive hdb => ?_⟩
      refine Program.Ensures.bind ?_ Onward.refl
      refine (Call.revokeAll_record_ensures _ hactive (hdb.owned howned)).imp fun _ _ _ h => ?_
      exact fun db' hdb' => h.onward hdb'
  | resetPassword token newPassword now later =>
      obtain ⟨row, hrow, hhash, rfl⟩ := h
      refine ⟨now, Program.Ensures.bind ?_ Onward.refl⟩
      refine (Call.resetPassword_ensures newPassword hrow hhash howned).imp fun _ _ _ h => ?_
      exact fun db' hdb' => h.onward hdb'

theorem SessionRequests.Starts.allWithin {env : RequestEnv} {s : SessionRequests}
    (h : s.Starts env) : AllWithin Onward s := by
  intro p hp
  obtain ⟨request, rfl⟩ := h p hp
  exact ⟨request.program_within env, nofun⟩

/-! ## Requests that present a token -/

/-- The refresh token is stored, in a row of the session. -/
def SharedDb.TokenOf (env : RequestEnv) (db : SharedDb) (raw : String) (sessionId : Id) : Prop :=
  ∃ row tokenId, db.tokenByHash (env.security.hashToken raw) = .ok (some (row, tokenId)) ∧
    row.sessionId = sessionId

/-- The refresh token is stored in a row of another session. -/
def SharedDb.StoredElsewhere (env : RequestEnv) (raw : String) (sessionId : Id) (db : SharedDb) :
    Prop :=
  ∃ row ∈ db.refreshTokens, row.tokenHash = env.security.hashToken raw ∧ row.sessionId ≠ sessionId

/-- The request presents a token of the session, and has not looked at the session yet.  The
refresh token may be stored after that, by a rotation that is under way: it is in the tables
`last`. -/
inductive Presents (env : RequestEnv) (last : SharedDb) (id : Id) :
    Transaction SharedDb AccountError (Option IssuedTokens) → Prop
  | access {accessToken : Option String} {now : DateTime} {claims : Claims}
      {rest : Id × SessionRow → Call (Option IssuedTokens)}
      (bears : Call.Bears env accessToken now claims) (session : claims.sessionId = id) :
      Presents env last id (.running (Call.currentUser env accessToken now >>= rest) [])
  | refresh {raw fresh : String} {tokenId : Id} {now later : DateTime}
      {rest : IssuedTokens → Call (Option IssuedTokens)} (stored : last.TokenOf env raw id) :
      Presents env last id (.running (Call.rotate env raw tokenId fresh now later >>= rest) [])
  | rotation {token : TokenRow} {fresh : String} {tokenId : Id} {now later : DateTime}
      {rest : IssuedTokens → Call (Option IssuedTokens)} (session : token.sessionId = id) :
      Presents env last id
        (.running (Call.rotateToken env token tokenId fresh now later >>= rest) [])

namespace Call

open Program

variable {env : RequestEnv} {db : SharedDb} {now later : DateTime}

/-- An access token of a revoked session is refused. -/
theorem currentUser_refused {accessToken : Option String} {claims : Claims}
    (h : Bears env accessToken now claims) (hrevoked : db.Revoked claims.sessionId) :
    (currentUser env accessToken now).Ensures Onward (fun _ _ _ => False) [] db := by
  rw [currentUser_eq h]
  refine fun db₁ hdb₁ view hview => ?_
  cases hview
  obtain ⟨row, hrow, hmarked⟩ := hdb₁.revoked hrevoked
  dsimp only [Program.bind]
  rw [hrow]
  dsimp only
  rw [if_pos (Option.isSome_iff_ne_none.mpr hmarked)]
  trivial

/-- A refresh token of a revoked session is refused. -/
theorem rotateToken_refused {token : TokenRow} (tokenId : Id) (fresh : String)
    (hrevoked : db.Revoked token.sessionId) :
    (rotateToken env token tokenId fresh now later).Ensures Onward (fun _ _ _ => False) [] db := by
  unfold rotateToken
  split
  · refine fun db₁ _ db₂ _ view _ => ?_
    show Program.Ensures _ _ (markIf _ _ _ >>= _) _ db₂
    unfold markIf
    split
    · exact fun _ _ => trivial
    · trivial
  · split
    · trivial
    · refine fun db₁ hdb₁ view hview => ?_
      cases hview
      obtain ⟨row, hrow, hmarked⟩ := hdb₁.revoked hrevoked
      show Program.Ensures _ _ (if (db₁.session token.sessionId).any _ = true then _ else _) [] db₁
      rw [hrow, if_neg (by simpa using hmarked)]
      trivial

/-- A refresh that returns in spite of a revoked session had a token of another. -/
theorem rotate_bind_ensures {α : Type} {raw fresh : String} {tokenId id : Id}
    {rest : IssuedTokens → Call α}
    (hwithin : (rotate env raw tokenId fresh now later >>= rest).Within Onward)
    (hrevoked : db.Revoked id) :
    (rotate env raw tokenId fresh now later >>= rest).Ensures Onward
      (fun _ written db' => ∀ last, applyAll written db' = some last →
        last.StoredElsewhere env raw id) [] db := by
  refine fun db₁ hdb₁ view hview => ?_
  cases hview
  have hrest := hwithin db₁
  show Program.Ensures _ _
    ((ofExcept (db₁.tokenByHash (env.security.hashToken raw)) >>= _) >>= rest) [] db₁
  change Program.Within Onward
    ((ofExcept (db₁.tokenByHash (env.security.hashToken raw)) >>= _) >>= rest) at hrest
  cases hfound : db₁.tokenByHash (env.security.hashToken raw) with
  | error e => trivial
  | ok found =>
      rw [hfound] at hrest
      cases found with
      | none => trivial
      | some found =>
          obtain ⟨token, position⟩ := found
          show (rotateToken env token tokenId fresh now later >>= rest).Ensures _ _ [] db₁
          change (rotateToken env token tokenId fresh now later >>= rest).Within Onward at hrest
          obtain ⟨hrow, hhash⟩ := scalarOneOrNone_some hfound
          by_cases hsession : token.sessionId = id
          · refine Ensures.bind ?_ Onward.refl
            refine (rotateToken_refused tokenId fresh ?_).imp fun _ _ _ h => h.elim
            rw [hsession]
            exact hdb₁.revoked hrevoked
          · refine ((hrest.ensures fun c hc => absurd hc List.not_mem_nil).and
              (ensures_rel _ Onward.trans (Onward.refl db₁))).imp ?_
            rintro a written db' ⟨hwritten, hdb'⟩ last hlast
            have hkept := hdb'.trans (applyAll_within Onward.refl Onward.trans hwritten hlast)
            obtain ⟨row, hmem, hhash', hsession'⟩ := hkept.tokens token (List.mem_of_getElem? hrow)
            refine ⟨row, hmem, hhash'.trans (of_decide_eq_true hhash), ?_⟩
            rw [hsession']
            exact hsession

end Call

/-- A token is in one session. -/
theorem SharedDb.TokenOf.not_storedElsewhere {env : RequestEnv} {db : SharedDb} {raw : String}
    {id : Id} (h : db.TokenOf env raw id) : ¬ db.StoredElsewhere env raw id := by
  obtain ⟨row, position, hfound, hsession⟩ := h
  rintro ⟨other, hother, hhash, helsewhere⟩
  have hsame : other = row := scalarOneOrNone_unique hfound other hother (decide_eq_true hhash)
  exact helsewhere (hsame ▸ hsession)

/-- A request that presents a token of a revoked session never returns. -/
theorem Presents.not_returned {env : RequestEnv} {s : SessionRequests} {id : Id} {j : Nat}
    {p : Transaction SharedDb AccountError (Option IssuedTokens)} {turns : List RequestTurn}
    (h : Presents env (Run.run SessionRequests.step s turns).store id p)
    (hp : s.procs[j]? = some p) (hwithin : AllWithin Onward s) (hrevoked : s.store.Revoked id)
    (answer : Option IssuedTokens) :
    (Run.run SessionRequests.step s turns).procs[j]? ≠ some (.ended (.ok answer)) := by
  intro hreturned
  have hprogram := hwithin p (List.mem_of_getElem? hp)
  have hensured : ∀ Q : SharedDb → Prop, (∀ {db db'}, Onward db db' → Q db → Q db') →
      p.Ensures Onward (fun _ => Q) s.store → Q (Run.run SessionRequests.step s turns).store := by
    intro Q hstable hensures
    refine ensured_run Onward.refl Onward.trans (fun _ => Q) turns (fun hdb h => hstable hdb h)
      hwithin (fun q hq => ?_) hreturned
    rw [hp, Option.some.injEq] at hq
    exact hq ▸ hensures
  cases h with
  | access bears session =>
      refine hensured (fun _ => False) (fun _ h => h) ?_
      refine Program.Ensures.bind ?_ Onward.refl
      exact (Call.currentUser_refused bears (session ▸ hrevoked)).imp fun _ _ _ h => h.elim
  | rotation session =>
      refine hensured (fun _ => False) (fun _ h => h) ?_
      refine Program.Ensures.bind ?_ Onward.refl
      exact (Call.rotateToken_refused _ _ (session ▸ hrevoked)).imp fun _ _ _ h => h.elim
  | @refresh raw fresh tokenId now later rest stored =>
      refine stored.not_storedElsewhere (hensured (SharedDb.StoredElsewhere env raw id) ?_ ?_)
      · rintro db db' hdb ⟨row, hrow, hhash, helsewhere⟩
        obtain ⟨row', hrow', hhash', hsession⟩ := hdb.tokens row hrow
        exact ⟨row', hrow', hhash'.trans hhash, hsession ▸ helsewhere⟩
      · exact Call.rotate_bind_ensures hprogram.1 hrevoked

/-! ## The law -/

/-- Once a request that revokes all sessions of a user has returned, the sessions that the user
had when it began are revoked for good, and no request that has yet to look at such a session,
for an access token or a refresh token of it, ever returns. -/
theorem revocation_total_and_permanent (env : RequestEnv) (start : SessionRequests)
    (hstart : start.Starts env) (before during after : List RequestTurn) (i : Nat)
    (request : SessionRequest) (userId id : Id) :
    let begun := Run.run SessionRequests.step start before
    let returned := Run.run SessionRequests.step begun during
    let last := Run.run SessionRequests.step returned after
    begun.procs[i]? = some (.running (request.program env) []) →
    request.RevokesAll env begun.store userId → begun.store.Owned id userId →
    (∃ answer, returned.procs[i]? = some (.ended (.ok answer))) →
      last.store.Revoked id ∧
      ∀ (j : Nat) p, returned.procs[j]? = some p → Presents env last.store id p →
        ∀ answer, last.procs[j]? ≠ some (.ended (.ok answer)) := by
  intro begun returned last hwaits hrevokes howned ⟨answer, hanswer⟩
  have hbegun : AllWithin Onward begun :=
    (rel_run Onward.refl Onward.trans before hstart.allWithin).1
  have hreturned : AllWithin Onward returned :=
    (rel_run Onward.refl Onward.trans during hbegun).1
  have hrevoked : returned.store.Revoked id := by
    obtain ⟨now, hensures⟩ := hrevokes.ensures howned
    refine ensured_run Onward.refl Onward.trans (fun _ db => db.Revoked id) during
      (fun hdb h => hdb.revoked h) hbegun (fun p hp => ?_) hanswer
    rw [hwaits, Option.some.injEq] at hp
    subst hp
    exact hensures.imp fun _ _ _ h db' hcommit => h.revoked hcommit
  refine ⟨(rel_run Onward.refl Onward.trans after hreturned).2.revoked hrevoked, ?_⟩
  intro j p hp hpresents answer
  exact hpresents.not_returned hp hreturned hrevoked answer

/-- Access tokens of one session. -/
def sampleRequestEnv : RequestEnv :=
  { plainEnv with
    decodeAccessToken := fun _ token =>
      if token = "access" then .ok ⟨0, 0⟩ else .error (.unauthorized "Could not validate token.") }

def sampleToken : TokenRow := { plainEnv.security.refreshToken 0 0 "t1" 0 with id := 0 }

/-- A logout from all devices, and two requests with tokens of the session it came from. -/
def sampleRequests : SessionRequests where
  store :=
    { users := [liveAccount]
      resetTokens := []
      sessions := [{ userId := 0, context := sampleContext, lastActivity := none,
                     revokedAt := none, id := 0 }]
      refreshTokens := [sampleToken]
      auditLog := [] }
  procs :=
    [.running ((SessionRequest.logout (some "access") none true 10 10).program sampleRequestEnv) [],
      .running ((SessionRequest.authenticated (some "access") 20).program sampleRequestEnv) [],
      .running ((SessionRequest.refresh "t1" 1 "t2" 20 20).program sampleRequestEnv) []]

/-- The refresh has found its token when the logout begins. -/
theorem signed_out_everywhere :
    let last := Run.run SessionRequests.step sampleRequests
      ([⟨2, none⟩] ++ List.replicate 7 ⟨0, none⟩ ++ [⟨1, none⟩, ⟨2, none⟩, ⟨1, none⟩, ⟨2, none⟩])
    last.store.Revoked 0 ∧ ∀ answer, last.procs[1]? ≠ some (.ended (.ok answer)) ∧
      last.procs[2]? ≠ some (.ended (.ok answer)) := by
  have hstart : sampleRequests.Starts sampleRequestEnv := by
    intro p hp
    simp only [sampleRequests, List.mem_cons, List.not_mem_nil, or_false] at hp
    rcases hp with rfl | rfl | rfl <;> exact ⟨_, rfl⟩
  have hbears : ∀ now, Call.Bears sampleRequestEnv (some "access") now ⟨0, 0⟩ :=
    fun _ => ⟨"access", rfl, rfl⟩
  have hlaw := revocation_total_and_permanent sampleRequestEnv sampleRequests hstart
    [⟨2, none⟩] (List.replicate 7 ⟨0, none⟩) [⟨1, none⟩, ⟨2, none⟩, ⟨1, none⟩, ⟨2, none⟩] 0
    (.logout (some "access") none true 10 10) 0 0 rfl ⟨rfl, ⟨0, 0⟩, hbears 10, rfl⟩
    ⟨_, rfl, rfl⟩ ⟨none, rfl⟩
  intro last
  refine ⟨hlaw.1, fun answer => ⟨?_, ?_⟩⟩
  · exact hlaw.2 1 _ rfl (.access (hbears 20) rfl) answer
  · exact hlaw.2 2 (.running (Call.rotateToken sampleRequestEnv sampleToken 1 "t2" 20 20 >>=
      fun issued => pure (some issued)) []) rfl (.rotation rfl) answer

end YoutubeFactory.Auth
