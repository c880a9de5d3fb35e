import YoutubeFactory.Lib.Run
import YoutubeFactory.Lib.Table
import YoutubeFactory.Auth.Tokens
import Mathlib.Algebra.Order.Group.Int

/-!
# Replay of a consumed refresh token

`rotate` answers a replay by revoking the session and raising.  The exception makes
`session_scope` roll the revocation back, so a replay changes nothing
(`step_replay`).  No request makes a session usable again (`hasUsable_of_step`).
Together: after a replay no token of the session can be rotated, if and only if none
could be before (`replay_defended_iff`).
-/

namespace YoutubeFactory.Auth

/-! ## Tokens that can be rotated -/

/-- The row a raw token is stored in. -/
def AuthDb.presented (db : AuthDb) (security : Security) (raw : String) : Option RefreshToken :=
  (db.tokenByHash (security.hashToken raw)).bind db.getToken

/-- What `rotate` asks of a token at a moment. -/
structure Usable (db : AuthDb) (token : RefreshToken) (moment : DateTime) : Prop where
  unrevoked : token.revokedAt = none
  unrotated : token.rotatedTo = none
  unexpired : moment ≤ token.expiresAt
  session : ∃ s, db.getSession token.sessionId = some s ∧ s.revokedAt = none
  user : ∃ u, db.users[token.userId]? = some u ∧ u.isActive = true

/-- The session has a token that can be rotated. -/
def HasUsable (db : AuthDb) (sessionId : Id) (moment : DateTime) : Prop :=
  ∃ token ∈ db.refreshTokens, token.sessionId = sessionId ∧ Usable db token moment

theorem HasUsable.earlier {db : AuthDb} {sessionId : Id} {moment earlier : DateTime}
    (h : HasUsable db sessionId moment) (hle : earlier ≤ moment) :
    HasUsable db sessionId earlier := by
  obtain ⟨token, hmem, hsession, husable⟩ := h
  exact ⟨token, hmem, hsession, { husable with unexpired := hle.trans husable.unexpired }⟩

/-! ## Rotation -/

theorem all_eq_false_iff {α : Type} {o : Option α} {p : α → Bool} :
    o.all p = false ↔ ∃ a, o = some a ∧ p a = false := by
  cases o <;> simp

/-- The checks let a token through exactly when it is usable. -/
theorem refusal_eq_none_iff {db : AuthDb} {token : RefreshToken} {now : DateTime} :
    db.refusal token now = none ↔ now ≤ token.expiresAt ∧
      (∃ s, db.getSession token.sessionId = some s ∧ s.revokedAt = none) ∧
      ∃ u, db.users[token.userId]? = some u ∧ u.isActive = true := by
  have hsession : ((db.getSession token.sessionId).all fun s => s.revokedAt.isSome) = false ↔
      ∃ s, db.getSession token.sessionId = some s ∧ s.revokedAt = none := by
    rw [all_eq_false_iff]
    simp
  have huser : ((db.users[token.userId]?).all fun u => !u.isActive) = false ↔
      ∃ u, db.users[token.userId]? = some u ∧ u.isActive = true := by
    rw [all_eq_false_iff]
    simp
  rw [← hsession, ← huser]
  unfold AuthDb.refusal
  by_cases hexpired : token.expiresAt < now
  · simp [hexpired, not_le.mpr hexpired]
  · rw [if_neg hexpired]
    simp only [not_lt.mp hexpired, true_and]
    cases (db.getSession token.sessionId).all fun s => s.revokedAt.isSome with
    | true => simp
    | false => cases (db.users[token.userId]?).all fun u => !u.isActive <;> simp

/-- A stored hash refuses a new token. -/
theorem issueTokens_ok {db db' : AuthDb} {security : Security} {userId sessionId : Id}
    {raw : String} {now : DateTime} {issued : IssuedTokens}
    (h : db.issueTokens security userId sessionId raw now = (.ok issued, db')) :
    (∀ t ∈ db.refreshTokens, t.tokenHash ≠ security.hashToken raw) ∧
      issued.refreshToken = raw ∧ db' = { db with refreshTokens :=
        db.refreshTokens ++ [security.refreshToken userId sessionId raw now] } := by
  unfold AuthDb.issueTokens at h
  split at h
  · cases h
  · next hnew =>
      cases h
      exact ⟨by simpa using hnew, rfl, rfl⟩

/-- A new row is found by its hash. -/
theorem tokenByHash_append {db : AuthDb} {token : RefreshToken}
    (hnew : ∀ t ∈ db.refreshTokens, t.tokenHash ≠ token.tokenHash) :
    AuthDb.tokenByHash { db with refreshTokens := db.refreshTokens ++ [token] } token.tokenHash =
      some db.refreshTokens.length := by
  have hnone : db.refreshTokens.findIdx? (fun t => t.tokenHash = token.tokenHash) = none :=
    List.findIdx?_eq_none_iff.mpr fun t ht => decide_eq_false (hnew t ht)
  rw [AuthDb.tokenByHash, List.findIdx?_append, hnone]
  simp

/-- What a rotation that returns has found and written. -/
theorem rotate_ok {db db' : AuthDb} {security : Security} {raw fresh : String}
    {now later : DateTime} {issued : IssuedTokens}
    (h : db.rotate security raw fresh now later = (.ok issued, db')) :
    ∃ tokenId token,
      db.presented security raw = some token ∧ db.getToken tokenId = some token ∧
      Usable db token now ∧
      (∀ t ∈ db.refreshTokens, t.tokenHash ≠ security.hashToken fresh) ∧
      db' = AuthDb.consume
        { db with refreshTokens := db.refreshTokens ++
            [security.refreshToken token.userId token.sessionId fresh later] }
        tokenId token.sessionId (some db.refreshTokens.length) now := by
  unfold AuthDb.rotate at h
  split at h
  · cases h
  · next tokenId hfound =>
      split at h
      · cases h
      · next token hrow =>
          split at h
          · cases h
          · next hopen =>
              split at h
              · cases h
              · next hchecks =>
                  obtain ⟨hunexpired, hsession, huser⟩ := refusal_eq_none_iff.mp hchecks
                  have hunused : token.revokedAt = none ∧ token.rotatedTo = none := by
                    simpa using hopen
                  split at h
                  · cases h
                  · next hissue =>
                      obtain ⟨hnew, hissued, hwritten⟩ := issueTokens_ok hissue
                      have hfound' : AuthDb.tokenByHash { db with refreshTokens :=
                          db.refreshTokens ++ [security.refreshToken token.userId token.sessionId
                            fresh later] } (security.hashToken fresh) =
                          some db.refreshTokens.length := tokenByHash_append hnew
                      subst hwritten
                      dsimp only at h
                      rw [hissued, hfound'] at h
                      cases h
                      refine ⟨tokenId, token, ?_, hrow,
                        ⟨hunused.1, hunused.2, hunexpired, hsession, huser⟩, hnew, rfl⟩
                      rw [AuthDb.presented, hfound]
                      exact hrow

/-- A usable token is rotated, if the generated token is new. -/
theorem rotate_of_usable {db : AuthDb} {security : Security} {raw fresh : String}
    {now later : DateTime} {token : RefreshToken}
    (hpresented : db.presented security raw = some token) (husable : Usable db token now)
    (hfresh : ∀ t ∈ db.refreshTokens, t.tokenHash ≠ security.hashToken fresh) :
    ∃ issued, (db.rotate security raw fresh now later).1 = .ok issued := by
  obtain ⟨tokenId, hfound, hrow⟩ := Option.bind_eq_some_iff.mp hpresented
  have hchecks := refusal_eq_none_iff.mpr
    ⟨husable.unexpired, husable.session, husable.user⟩
  have hnew : ¬ (db.refreshTokens.any fun t =>
      t.tokenHash = security.hashToken fresh) = true := by simpa using hfresh
  unfold AuthDb.rotate
  rw [hfound]
  dsimp only
  rw [hrow]
  dsimp only
  rw [husable.unrevoked, husable.unrotated, hchecks, if_neg (by simp)]
  dsimp only
  rw [AuthDb.issueTokens, if_neg hnew]
  exact ⟨_, rfl⟩

/-- A replay raises, so the request leaves no trace. -/
theorem step_replay {db : AuthDb} {security : Security} {raw fresh : String}
    {now later : DateTime} {token : RefreshToken}
    (hpresented : db.presented security raw = some token)
    (hconsumed : token.rotatedTo.isSome = true) :
    Request.step security db (.refresh raw fresh now later) = db := by
  obtain ⟨tokenId, hfound, hrow⟩ := Option.bind_eq_some_iff.mp hpresented
  have hrotate : ∃ db', db.rotate security raw fresh now later =
      (.error (.unauthorized "Refresh token has already been used."), db') := by
    unfold AuthDb.rotate
    rw [hfound]
    dsimp only
    rw [hrow]
    dsimp only
    rw [if_pos (.inr hconsumed)]
    exact ⟨_, rfl⟩
  obtain ⟨db', hrotate⟩ := hrotate
  unfold Request.step Request.body sessionScope
  dsimp only
  rw [hrotate]
  rfl

/-! ## Calls that only take away -/

/-- Nothing becomes usable, and no row changes its hash or its session. -/
structure Restricts (db db' : AuthDb) : Prop where
  users : db'.users = db.users
  sessions : ∀ id s', db'.getSession id = some s' → s'.revokedAt = none →
    ∃ s, db.getSession id = some s ∧ s.revokedAt = none
  sessionCount : db'.sessions.length = db.sessions.length
  tokens : ∀ t ∈ db'.refreshTokens, t.revokedAt = none → t ∈ db.refreshTokens
  hashes : db'.refreshTokens.map (·.tokenHash) = db.refreshTokens.map (·.tokenHash)
  sessionIds : db'.refreshTokens.map (·.sessionId) = db.refreshTokens.map (·.sessionId)

namespace Restricts

theorem refl (db : AuthDb) : Restricts db db :=
  ⟨rfl, fun _ s' h hactive => ⟨s', h, hactive⟩, rfl, fun _ h _ => h, rfl, rfl⟩

theorem trans {db₁ db₂ db₃ : AuthDb} (h₁ : Restricts db₁ db₂) (h₂ : Restricts db₂ db₃) :
    Restricts db₁ db₃ where
  users := h₂.users.trans h₁.users
  sessions id s' h hactive := by
    obtain ⟨s, hs, hsactive⟩ := h₂.sessions id s' h hactive
    exact h₁.sessions id s hs hsactive
  sessionCount := h₂.sessionCount.trans h₁.sessionCount
  tokens t h hopen := h₁.tokens t (h₂.tokens t h hopen) hopen
  hashes := h₂.hashes.trans h₁.hashes
  sessionIds := h₂.sessionIds.trans h₁.sessionIds

theorem hasUsable {db db' : AuthDb} (h : Restricts db db') {sessionId : Id}
    {moment : DateTime} (husable : HasUsable db' sessionId moment) :
    HasUsable db sessionId moment := by
  obtain ⟨token, hmem, hsession, hfields⟩ := husable
  obtain ⟨s, hs, hactive⟩ := hfields.session
  refine ⟨token, h.tokens token hmem hfields.unrevoked, hsession, ?_⟩
  exact { hfields with
    session := h.sessions token.sessionId s hs hactive
    user := h.users ▸ hfields.user }

theorem markSessionRevoked (db : AuthDb) (sessionId : Id) (now : DateTime) :
    Restricts db (db.markSessionRevoked sessionId now) where
  users := rfl
  sessions id s' h hactive := by
    rw [AuthDb.getSession, AuthDb.markSessionRevoked, List.getElem?_modify,
      Option.map_eq_map, Option.map_eq_some_iff] at h
    obtain ⟨s, hs, rfl⟩ := h
    refine ⟨s, hs, ?_⟩
    split at hactive
    · cases hactive
    · exact hactive
  sessionCount := List.length_modify _ _ _
  tokens _ h _ := h
  hashes := rfl
  sessionIds := rfl

theorem revokeForSession (db : AuthDb) (sessionId : Id) (now : DateTime) :
    Restricts db (db.revokeForSession sessionId now) where
  users := rfl
  sessions _ s' h hactive := ⟨s', h, hactive⟩
  sessionCount := rfl
  tokens t h hopen := by
    obtain ⟨t', hmem, rfl⟩ := List.mem_map.mp h
    split at hopen
    · cases hopen
    · next hother => rwa [if_neg hother]
  hashes := by
    rw [AuthDb.revokeForSession, List.map_map]
    refine List.map_congr_left fun t _ => ?_
    rw [Function.comp_apply]
    split <;> rfl
  sessionIds := by
    rw [AuthDb.revokeForSession, List.map_map]
    refine List.map_congr_left fun t _ => ?_
    rw [Function.comp_apply]
    split <;> rfl

theorem consume (db : AuthDb) (tokenId sessionId : Id) (successor : Option Id)
    (now : DateTime) : Restricts db (db.consume tokenId sessionId successor now) where
  users := rfl
  sessions id s' h hactive := by
    rw [AuthDb.getSession, AuthDb.consume, List.getElem?_modify,
      Option.map_eq_map, Option.map_eq_some_iff] at h
    obtain ⟨s, hs, rfl⟩ := h
    refine ⟨s, hs, ?_⟩
    split at hactive <;> exact hactive
  sessionCount := List.length_modify _ _ _
  tokens t h hopen := by
    obtain hold | ⟨t', -, rfl⟩ := Table.mem_modify h
    · exact hold
    · cases hopen
  hashes := by
    rw [AuthDb.consume, Table.map_modify]
    exact fun _ => rfl
  sessionIds := by
    rw [AuthDb.consume, Table.map_modify]
    exact fun _ => rfl

theorem revokeSession (db : AuthDb) (sessionId : Id) (now later : DateTime) :
    Restricts db (db.revokeSession sessionId now later) := by
  unfold AuthDb.revokeSession
  split
  · exact (markSessionRevoked db sessionId now).trans (revokeForSession _ sessionId later)
  · exact revokeForSession db sessionId later

theorem revokeAllForUser (db : AuthDb) (userId : Id) (now later : DateTime) :
    Restricts db (db.revokeAllForUser userId now later) := by
  unfold AuthDb.revokeAllForUser
  generalize db.activeSessions userId = ids
  induction ids generalizing db with
  | nil => exact refl db
  | cons id ids ih => exact (revokeSession db id now later).trans (ih _)

end Restricts

/-! ## Requests -/

/-- A new token is usable in its own session only. -/
theorem hasUsable_append {db : AuthDb} {security : Security} {userId newSession : Id}
    {raw : String} {issuedAt : DateTime} {sessionId : Id} {moment : DateTime}
    (hne : newSession ≠ sessionId)
    (h : HasUsable { db with refreshTokens := db.refreshTokens ++
        [security.refreshToken userId newSession raw issuedAt] } sessionId moment) :
    HasUsable db sessionId moment := by
  obtain ⟨token, hmem, hsession, husable⟩ := h
  rcases List.mem_append.mp hmem with hold | hnew
  · exact ⟨token, hold, hsession, { husable with }⟩
  · rw [List.mem_singleton.mp hnew] at hsession
    exact absurd hsession hne

/-- A new session changes nothing for the others. -/
theorem hasUsable_createSession {db : AuthDb} {userId : Id} {context : RequestContext}
    {now : DateTime} {sessionId : Id} {moment : DateTime}
    (hold : sessionId < db.sessions.length)
    (h : HasUsable (db.createSession userId context now).2 sessionId moment) :
    HasUsable db sessionId moment := by
  obtain ⟨token, hmem, hsession, husable⟩ := h
  refine ⟨token, hmem, hsession, { husable with session := ?_ }⟩
  obtain ⟨s, hs, hactive⟩ := husable.session
  rw [AuthDb.createSession, AuthDb.getSession, hsession, List.getElem?_append_left hold] at hs
  exact ⟨s, hsession ▸ hs, hactive⟩

/-- What a request leaves behind. -/
theorem step_cases (security : Security) (db : AuthDb) (request : Request) :
    (∃ userId context fresh now later, request = .login userId context fresh now later ∧
      (∀ t ∈ db.refreshTokens, t.tokenHash ≠ security.hashToken fresh) ∧
      request.step security db =
        { (db.createSession userId context now).2 with
          refreshTokens := db.refreshTokens ++
            [security.refreshToken userId db.sessions.length fresh later] }) ∨
    (∃ token fresh later,
      token ∈ db.refreshTokens ∧ Usable db token request.time ∧
      (∀ t ∈ db.refreshTokens, t.tokenHash ≠ security.hashToken fresh) ∧
      Restricts
        { db with refreshTokens := db.refreshTokens ++
            [security.refreshToken token.userId token.sessionId fresh later] }
        (request.step security db)) ∨
    Restricts db (request.step security db) := by
  cases request with
  | login userId context fresh now later =>
      unfold Request.step Request.body sessionScope
      dsimp only
      cases hissue : (db.createSession userId context now).2.issueTokens security userId
          (db.createSession userId context now).1 fresh later with
      | mk result db' =>
          cases result with
          | error e => exact .inr (.inr (Restricts.refl db))
          | ok issued =>
              obtain ⟨hnew, -, rfl⟩ := issueTokens_ok hissue
              exact .inl ⟨userId, context, fresh, now, later, rfl, hnew, rfl⟩
  | refresh rawRefresh fresh now later =>
      unfold Request.step Request.body sessionScope
      dsimp only
      cases hrotate : db.rotate security rawRefresh fresh now later with
      | mk result db' =>
          cases result with
          | error e => exact .inr (.inr (Restricts.refl db))
          | ok issued =>
              obtain ⟨tokenId, token, -, hrow, husable, hnew, rfl⟩ := rotate_ok hrotate
              exact .inr (.inl ⟨token, fresh, later, List.mem_of_getElem? hrow, husable, hnew,
                Restricts.consume _ tokenId token.sessionId _ now⟩)
  | revokeSession sessionId now later =>
      exact .inr (.inr (Restricts.revokeSession db sessionId now later))
  | revokeAll userId now later =>
      exact .inr (.inr (Restricts.revokeAllForUser db userId now later))

theorem sessionCount_le_step (security : Security) (db : AuthDb) (request : Request) :
    db.sessions.length ≤ (request.step security db).sessions.length := by
  obtain ⟨userId, context, fresh, now, later, -, -, hstep⟩ | ⟨_, _, _, -, -, -, hstep⟩ | hstep :=
    step_cases security db request
  · rw [hstep, AuthDb.createSession]
    simp
  · exact hstep.sessionCount.ge
  · exact hstep.sessionCount.ge

/-- No request makes a session usable that was not. -/
theorem hasUsable_of_step {security : Security} {db : AuthDb} {request : Request}
    {sessionId : Id} {moment : DateTime} (hold : sessionId < db.sessions.length)
    (hlater : request.time ≤ moment)
    (h : HasUsable (request.step security db) sessionId moment) :
    HasUsable db sessionId request.time := by
  obtain ⟨userId, context, fresh, now, later, -, -, hstep⟩ |
    ⟨token, fresh, later, hmem, husable, -, hstep⟩ | hstep := step_cases security db request
  · rw [hstep] at h
    have hne : db.sessions.length ≠ sessionId := hold.ne'
    exact (hasUsable_createSession hold (hasUsable_append hne h)).earlier hlater
  · by_cases hsession : token.sessionId = sessionId
    · exact ⟨token, hmem, hsession, husable⟩
    · exact (hasUsable_append hsession (hstep.hasUsable h)).earlier hlater
  · exact (hstep.hasUsable h).earlier hlater

/-- A session that is not usable stays so, whatever is requested. -/
theorem not_hasUsable_run {security : Security} {sessionId : Id} {final : DateTime} :
    ∀ {requests : List Request} {db : AuthDb} {now : DateTime},
      sessionId < db.sessions.length → ¬ HasUsable db sessionId now →
      List.Pairwise (· ≤ ·) (now :: (requests.map Request.time ++ [final])) →
      ¬ HasUsable (Run.run (Request.step security) db requests) sessionId final
  | [], db, now, _, hnone, htimes => by
      rw [Run.run_nil]
      intro h
      refine hnone (h.earlier ?_)
      exact List.rel_of_pairwise_cons htimes (by simp)
  | request :: requests, db, now, hold, hnone, htimes => by
      rw [Run.run_cons]
      have hnow : now ≤ request.time := List.rel_of_pairwise_cons htimes (by simp)
      refine not_hasUsable_run (hold.trans_le (sessionCount_le_step security db request))
        (fun h => ?_) (List.Pairwise.of_cons htimes)
      exact hnone ((hasUsable_of_step hold le_rfl h).earlier hnow)

/-! ## Reachable tables -/

/-- Every token belongs to a session, and is found under the hash of its raw token. -/
structure Filed (security : Security) (db : AuthDb) : Prop where
  sessions : ∀ id ∈ db.refreshTokens.map (·.sessionId), id < db.sessions.length
  hashed : ∀ hash ∈ db.refreshTokens.map (·.tokenHash), ∃ raw, security.hashToken raw = hash
  distinct : (db.refreshTokens.map (·.tokenHash)).Nodup

theorem Filed.restricts {security : Security} {db db' : AuthDb} (h : Filed security db)
    (hr : Restricts db db') : Filed security db' where
  sessions := by
    rw [hr.sessionIds, hr.sessionCount]
    exact h.sessions
  hashed := hr.hashes ▸ h.hashed
  distinct := hr.hashes ▸ h.distinct

/-- A token that is new, in a session that exists. -/
theorem Filed.append {security : Security} {db : AuthDb} (h : Filed security db)
    {sessions : List Session} (hgrow : db.sessions.length ≤ sessions.length)
    {userId sessionId : Id} (hsession : sessionId < sessions.length) {raw : String}
    {issuedAt : DateTime}
    (hnew : ∀ t ∈ db.refreshTokens, t.tokenHash ≠ security.hashToken raw) :
    Filed security
      { db with
        sessions := sessions
        refreshTokens := db.refreshTokens ++
          [security.refreshToken userId sessionId raw issuedAt] } where
  sessions := by
    intro id hid
    rw [List.map_append, List.mem_append] at hid
    rcases hid with hold | hlast
    · exact (h.sessions id hold).trans_le hgrow
    · rw [List.mem_singleton.mp hlast]
      exact hsession
  hashed := by
    intro hash hhash
    rw [List.map_append, List.mem_append] at hhash
    rcases hhash with hold | hlast
    · exact h.hashed hash hold
    · exact ⟨raw, (List.mem_singleton.mp hlast).symm⟩
  distinct := by
    rw [List.map_append, List.nodup_append]
    refine ⟨h.distinct, List.nodup_singleton _, ?_⟩
    intro hash hhash last hlast
    obtain ⟨t, ht, rfl⟩ := List.mem_map.mp hhash
    rw [List.mem_singleton.mp hlast]
    exact hnew t ht

theorem filed_step {security : Security} {db : AuthDb} (request : Request)
    (h : Filed security db) : Filed security (request.step security db) := by
  obtain ⟨userId, context, fresh, now, later, -, hnew, hstep⟩ |
    ⟨token, fresh, later, hmem, -, hnew, hstep⟩ | hstep := step_cases security db request
  · rw [hstep]
    exact h.append (by simp [AuthDb.createSession]) (by simp [AuthDb.createSession]) hnew
  · have hsession : token.sessionId < db.sessions.length :=
      h.sessions _ (List.mem_map_of_mem hmem)
    exact (h.append le_rfl hsession hnew).restricts hstep
  · exact h.restricts hstep

/-- The tables before the first request. -/
def AuthDb.initial (users : List User) : AuthDb := { users, sessions := [], refreshTokens := [] }

theorem filed_run (security : Security) (users : List User) (history : List Request) :
    Filed security (Run.run (Request.step security) (AuthDb.initial users) history) := by
  refine Run.run_invariant (fun db request h => filed_step request h) history ?_
  exact ⟨by simp [AuthDb.initial], by simp [AuthDb.initial], by simp [AuthDb.initial]⟩

/-- The row that a raw token presents is a row of the table, under its hash. -/
theorem presented_mem {db : AuthDb} {security : Security} {raw : String} {token : RefreshToken}
    (h : db.presented security raw = some token) :
    token ∈ db.refreshTokens ∧ token.tokenHash = security.hashToken raw := by
  obtain ⟨tokenId, hfound, hrow⟩ := Option.bind_eq_some_iff.mp h
  obtain ⟨hlt, hhash, -⟩ := List.findIdx?_eq_some_iff_getElem.mp hfound
  have hget : db.refreshTokens[tokenId] = token := by
    rwa [AuthDb.getToken, List.getElem?_eq_getElem hlt, Option.some.injEq] at hrow
  rw [hget] at hhash
  exact ⟨List.mem_of_getElem? hrow, by simpa using hhash⟩

/-- Every row is presented by some raw token. -/
theorem Filed.exists_presented {security : Security} {db : AuthDb} (h : Filed security db)
    {token : RefreshToken} (hmem : token ∈ db.refreshTokens) :
    ∃ raw, db.presented security raw = some token := by
  obtain ⟨raw, hraw⟩ := h.hashed token.tokenHash (List.mem_map_of_mem hmem)
  obtain ⟨first, hfirst⟩ : ∃ first, db.presented security raw = some first := by
    cases hfound : db.tokenByHash (security.hashToken raw) with
    | none =>
        have hnone := List.findIdx?_eq_none_iff.mp hfound token hmem
        simp [hraw] at hnone
    | some tokenId =>
        obtain ⟨hlt, -⟩ := List.findIdx?_eq_some_iff_getElem.mp hfound
        refine ⟨db.refreshTokens[tokenId], ?_⟩
        rw [AuthDb.presented, hfound]
        exact List.getElem?_eq_getElem hlt
  refine ⟨raw, ?_⟩
  obtain ⟨hfirstMem, hfirstHash⟩ := presented_mem hfirst
  rw [hfirst, Option.some.injEq]
  exact List.inj_on_of_nodup_map h.distinct hfirstMem hmem (hfirstHash.trans hraw)

/-! ## The defence -/

/-- No refresh token of the session is rotated, whatever is requested before. -/
def Defended (security : Security) (db : AuthDb) (sessionId : Id) (now : DateTime) : Prop :=
  ∀ (requests : List Request) (raw fresh : String) (moment later : DateTime)
    (token : RefreshToken),
    List.Pairwise (· ≤ ·) (now :: (requests.map Request.time ++ [moment])) →
    let db' := Run.run (Request.step security) db requests
    db'.presented security raw = some token → token.sessionId = sessionId →
    ∃ e, (db'.rotate security raw fresh moment later).1 = .error e

theorem defended_iff {security : Security} {db : AuthDb} (hfiled : Filed security db)
    {sessionId : Id} (hold : sessionId < db.sessions.length) {now : DateTime}
    (hfresh : ∃ fresh, ∀ t ∈ db.refreshTokens, t.tokenHash ≠ security.hashToken fresh) :
    Defended security db sessionId now ↔ ¬ HasUsable db sessionId now := by
  constructor
  · rintro hdefended ⟨token, hmem, hsession, husable⟩
    obtain ⟨raw, hraw⟩ := hfiled.exists_presented hmem
    obtain ⟨fresh, hnew⟩ := hfresh
    obtain ⟨issued, hissued⟩ : ∃ issued,
        (db.rotate security raw fresh now now).1 = .ok issued :=
      rotate_of_usable hraw husable hnew
    obtain ⟨e, he⟩ := hdefended [] raw fresh now now token (by simp) hraw hsession
    rw [Run.run_nil, hissued] at he
    cases he
  · intro hnone requests raw fresh moment later token htimes
    dsimp only
    intro hraw hsession
    cases hrotate : (Run.run (Request.step security) db requests).rotate security raw fresh
        moment later with
    | mk result db' =>
        cases result with
        | error e => exact ⟨e, rfl⟩
        | ok issued =>
            obtain ⟨tokenId, token', hraw', hrow, husable, -, -⟩ := rotate_ok hrotate
            rw [hraw, Option.some.injEq] at hraw'
            subst hraw'
            exact absurd ⟨token, List.mem_of_getElem? hrow, hsession, husable⟩
              (not_hasUsable_run hold hnone htimes)

/-- After a replay the session's tokens are refused from then on, if and only if the
replay found the session without a usable token. -/
theorem replay_defended_iff (security : Security) (users : List User) (history : List Request)
    (raw fresh : String) (now later : DateTime) (token : RefreshToken)
    (hpresented : (Run.run (Request.step security) (AuthDb.initial users) history).presented
      security raw = some token)
    (hconsumed : token.rotatedTo.isSome = true)
    (hfresh : ∃ fresh', ∀ t ∈ (Run.run (Request.step security) (AuthDb.initial users)
      history).refreshTokens, t.tokenHash ≠ security.hashToken fresh') :
    Defended security
        (Run.run (Request.step security) (AuthDb.initial users)
          (history ++ [.refresh raw fresh now later]))
        token.sessionId now ↔
      ¬ HasUsable (Run.run (Request.step security) (AuthDb.initial users) history)
        token.sessionId now := by
  have hfiled := filed_run security users history
  have hsession := hfiled.sessions _ (List.mem_map_of_mem (presented_mem hpresented).1)
  rw [Run.run_append, Run.run_cons, Run.run_nil, step_replay hpresented hconsumed]
  exact defended_iff hfiled hsession hfresh

/-- A hash that tells tokens apart. -/
def sampleSecurity : Security where
  refreshTokenExpireDays := 30
  accessTokenExpireMinutes := 15
  createAccessToken _ _ := "access"
  hashToken raw := "hash:" ++ raw

def sampleContext : RequestContext := ⟨none, none, none, none, none⟩

/-- A login, a rotation, and the session revoked before the consumed token comes back. -/
theorem replay_defended_of_revoked :
    Defended sampleSecurity
      (Run.run (Request.step sampleSecurity) (AuthDb.initial [⟨true⟩])
        ([.login 0 sampleContext "t1" 0 0, .refresh "t1" "t2" 10 10, .revokeSession 0 20 20] ++
          [.refresh "t1" "t3" 30 30])) 0 30 := by
  let consumed : RefreshToken := ⟨0, 0, "hash:t1", 2592000, some 10, some 1⟩
  refine (replay_defended_iff sampleSecurity [⟨true⟩]
    [.login 0 sampleContext "t1" 0 0, .refresh "t1" "t2" 10 10, .revokeSession 0 20 20]
    "t1" "t3" 30 30 consumed rfl rfl ⟨"t4", by decide⟩).mpr ?_
  rintro ⟨token, hmem, -, husable⟩
  obtain ⟨s, hs, hactive⟩ := husable.session
  have hsession : token.sessionId = 0 := by
    rcases hmem with _ | ⟨_, _ | ⟨_, hmem⟩⟩
    · rfl
    · rfl
    · cases hmem
  rw [hsession] at hs
  cases hs
  cases hactive

/-- The consumed token comes back while its successor is live: the replay is refused,
and the successor is then rotated all the same. -/
theorem successor_rotated_after_replay :
    let history : List Request :=
      [.login 0 sampleContext "t1" 0 0, .refresh "t1" "t2" 10 10]
    let db := Run.run (Request.step sampleSecurity) (AuthDb.initial [⟨true⟩]) history
    let replayed := Run.run (Request.step sampleSecurity) db [.refresh "t1" "t3" 20 20]
    (db.presented sampleSecurity "t1").map (·.rotatedTo) = some (some 1) ∧
      (db.rotate sampleSecurity "t1" "t3" 20 20).1.map (·.refreshToken) =
        .error (.unauthorized "Refresh token has already been used.") ∧
      (replayed.presented sampleSecurity "t2").map (·.sessionId) = some 0 ∧
      (replayed.rotate sampleSecurity "t2" "t4" 30 30).1.map (·.refreshToken) = .ok "t4" ∧
      ¬ Defended sampleSecurity replayed 0 20 := by
  refine ⟨rfl, rfl, rfl, rfl, fun hdefended => ?_⟩
  obtain ⟨e, he⟩ := hdefended [] "t2" "t4" 30 30
    ⟨0, 0, "hash:t2", 2592010, none, none⟩ (by decide) rfl rfl
  cases he

end YoutubeFactory.Auth
