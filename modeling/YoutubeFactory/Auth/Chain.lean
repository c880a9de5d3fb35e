import YoutubeFactory.Lib.LinkedPath
import YoutubeFactory.Auth.Replay

/-!
# The refresh tokens of a session

A rotation appends a token and links the one it consumes to it.  Only a token that is
neither revoked nor rotated is consumed, which is the last of its session.  So the
tokens of a session are one path along `rotated_to`, whatever is called and also when
the writes of a call that raises are kept (`tokens_form_chains`).
-/

namespace YoutubeFactory.Auth

open LinkedPath

/-! ## The invariant -/

/-- The successor of a token. -/
def AuthDb.rotatedTo (db : AuthDb) (id : Id) : Option Id := (db.getToken id).bind (·.rotatedTo)

/-- The token of that id is one of the session. -/
def AuthDb.InSession (db : AuthDb) (sessionId id : Id) : Prop :=
  ∃ token, db.getToken id = some token ∧ token.sessionId = sessionId

/-- The tokens of the session in the order of the path they form. -/
structure SessionPath (db : AuthDb) (sessionId : Id) (path : List Id) : Prop where
  isPath : IsPath db.rotatedTo path
  mem_iff : ∀ id, id ∈ path ↔ db.InSession sessionId id

/-- Every session's tokens form a path, a rotated token is revoked, and so are all tokens
of a revoked session. -/
structure Chained (db : AuthDb) : Prop where
  filed : ∀ t ∈ db.refreshTokens, t.sessionId < db.sessions.length
  path : ∀ sessionId, ∃ path, SessionPath db sessionId path
  rotated : ∀ t ∈ db.refreshTokens, t.rotatedTo.isSome = true → t.revokedAt.isSome = true
  closed : ∀ t ∈ db.refreshTokens, ∀ s, db.getSession t.sessionId = some s →
    s.revokedAt.isSome = true → t.revokedAt.isSome = true

theorem chained_initial (users : List User) : Chained (AuthDb.initial users) where
  filed t ht := by cases ht
  path sessionId := by
    refine ⟨[], isPath_nil _, fun id => iff_of_false List.not_mem_nil ?_⟩
    rintro ⟨token, htoken, -⟩
    cases htoken
  rotated t ht := by cases ht
  closed t ht := by cases ht

/-! ## Revocation -/

/-- The tokens after some of them are revoked. -/
structure Revokes (db db' : AuthDb) (f : RefreshToken → RefreshToken) : Prop where
  tokens : db'.refreshTokens = db.refreshTokens.map f
  sessionId : ∀ t, (f t).sessionId = t.sessionId
  rotatedTo : ∀ t, (f t).rotatedTo = t.rotatedTo
  revokedAt : ∀ t, t.revokedAt.isSome = true → (f t).revokedAt.isSome = true
  sessionCount : db'.sessions.length = db.sessions.length
  sessions : ∀ t s', db'.getSession t.sessionId = some s' → s'.revokedAt.isSome = true →
    (∃ s, db.getSession t.sessionId = some s ∧ s.revokedAt.isSome = true) ∨
      (f t).revokedAt.isSome = true

namespace Revokes

variable {db db' : AuthDb} {f : RefreshToken → RefreshToken}

theorem getToken (h : Revokes db db' f) (id : Id) :
    db'.getToken id = (db.getToken id).map f := by
  rw [AuthDb.getToken, h.tokens, List.getElem?_map]
  rfl

theorem rotatedTo_eq (h : Revokes db db' f) (id : Id) : db'.rotatedTo id = db.rotatedTo id := by
  rw [AuthDb.rotatedTo, AuthDb.rotatedTo, h.getToken]
  cases db.getToken id with
  | none => rfl
  | some t => exact h.rotatedTo t

theorem inSession_iff (h : Revokes db db' f) (sessionId id : Id) :
    db'.InSession sessionId id ↔ db.InSession sessionId id := by
  rw [AuthDb.InSession, AuthDb.InSession, h.getToken]
  cases db.getToken id with
  | none => simp
  | some t => simp [h.sessionId]

theorem chained (h : Revokes db db' f) (hdb : Chained db) : Chained db' where
  filed t ht := by
    rw [h.tokens] at ht
    obtain ⟨old, hold, rfl⟩ := List.mem_map.mp ht
    rw [h.sessionId, h.sessionCount]
    exact hdb.filed old hold
  path sessionId := by
    obtain ⟨path, hpath⟩ := hdb.path sessionId
    exact ⟨path, hpath.isPath.congr fun id _ => h.rotatedTo_eq id,
      fun id => (hpath.mem_iff id).trans (h.inSession_iff sessionId id).symm⟩
  rotated t ht := by
    rw [h.tokens] at ht
    obtain ⟨old, hold, rfl⟩ := List.mem_map.mp ht
    rw [h.rotatedTo]
    exact fun hrotated => h.revokedAt old (hdb.rotated old hold hrotated)
  closed t ht s' hs' hrevoked := by
    rw [h.tokens] at ht
    obtain ⟨old, hold, rfl⟩ := List.mem_map.mp ht
    rw [h.sessionId] at hs'
    rcases h.sessions old s' hs' hrevoked with ⟨s, hs, hwas⟩ | hnow
    · exact h.revokedAt old (hdb.closed old hold s hs hwas)
    · exact hnow

end Revokes

/-- What `revoke_for_session` does to a token. -/
def RefreshToken.revoke (sessionId : Id) (now : DateTime) (t : RefreshToken) : RefreshToken :=
  if t.sessionId = sessionId ∧ t.revokedAt = none then { t with revokedAt := some now } else t

namespace RefreshToken

variable {sessionId : Id} {now : DateTime} {t : RefreshToken}

@[simp] theorem revoke_sessionId : (t.revoke sessionId now).sessionId = t.sessionId := by
  unfold revoke
  split <;> rfl

@[simp] theorem revoke_rotatedTo : (t.revoke sessionId now).rotatedTo = t.rotatedTo := by
  unfold revoke
  split <;> rfl

theorem revoke_revokedAt (h : t.revokedAt.isSome = true) :
    (t.revoke sessionId now).revokedAt.isSome = true := by
  unfold revoke
  split
  · rfl
  · exact h

theorem revoke_of_session (h : t.sessionId = sessionId) :
    (t.revoke sessionId now).revokedAt.isSome = true := by
  unfold revoke
  split
  · rfl
  · next hkept =>
      rw [Option.isSome_iff_ne_none]
      exact fun hopen => hkept ⟨h, hopen⟩

end RefreshToken

/-- The sessions after one of them is marked. -/
theorem getSession_markSessionRevoked {db : AuthDb} {sessionId id : Id} {now : DateTime}
    {s' : Session} (h : (db.markSessionRevoked sessionId now).getSession id = some s') :
    id = sessionId ∨ db.getSession id = some s' := by
  rw [AuthDb.getSession, AuthDb.markSessionRevoked, List.getElem?_modify, Option.map_eq_map,
    Option.map_eq_some_iff] at h
  obtain ⟨s, hs, hs'⟩ := h
  by_cases hid : sessionId = id
  · exact .inl hid.symm
  · rw [if_neg hid] at hs'
    exact .inr (hs' ▸ hs)

/-- All tokens of a session revoked, and nothing else changed but the moment of its own
revocation. -/
theorem revokes_of_marked {db db' : AuthDb} {sessionId : Id} {later : DateTime}
    (htokens : db'.refreshTokens = db.refreshTokens.map (·.revoke sessionId later))
    (hcount : db'.sessions.length = db.sessions.length)
    (hothers : ∀ id s', db'.getSession id = some s' → id = sessionId ∨
      db.getSession id = some s') : Revokes db db' (·.revoke sessionId later) where
  tokens := htokens
  sessionId _ := RefreshToken.revoke_sessionId
  rotatedTo _ := RefreshToken.revoke_rotatedTo
  revokedAt _ := RefreshToken.revoke_revokedAt
  sessionCount := hcount
  sessions t s' hs' hrevoked := by
    rcases hothers _ s' hs' with hid | hold
    · exact .inr (RefreshToken.revoke_of_session hid)
    · exact .inl ⟨s', hold, hrevoked⟩

theorem revokeSession_chained {db : AuthDb} (h : Chained db) (sessionId : Id)
    (now later : DateTime) : Chained (db.revokeSession sessionId now later) := by
  have hrevokes : Revokes db (db.revokeSession sessionId now later)
      (·.revoke sessionId later) := by
    apply revokes_of_marked
    · unfold AuthDb.revokeSession
      split <;> rfl
    · unfold AuthDb.revokeSession
      split
      · exact List.length_modify _ _ _
      · rfl
    · intro id s' hs'
      unfold AuthDb.revokeSession at hs'
      split at hs'
      · exact getSession_markSessionRevoked hs'
      · exact .inr hs'
  exact hrevokes.chained h

theorem revokeAllForUser_chained {db : AuthDb} (h : Chained db) (userId : Id)
    (now later : DateTime) : Chained (db.revokeAllForUser userId now later) := by
  unfold AuthDb.revokeAllForUser
  generalize db.activeSessions userId = ids
  induction ids generalizing db with
  | nil => exact h
  | cons id ids ih => exact ih (revokeSession_chained h id now later)

/-- What a replay writes. -/
theorem replay_chained {db : AuthDb} (h : Chained db) (sessionId : Id) (now later : DateTime) :
    Chained ((db.revokeForSession sessionId later).markSessionRevoked sessionId now) := by
  have hrevokes : Revokes db
      ((db.revokeForSession sessionId later).markSessionRevoked sessionId now)
      (·.revoke sessionId later) :=
    revokes_of_marked rfl (List.length_modify _ _ _) fun _ _ => getSession_markSessionRevoked
  exact hrevokes.chained h

/-! ## New rows -/

theorem createSession_chained {db : AuthDb} (h : Chained db) (userId : Id)
    (context : RequestContext) (now : DateTime) :
    Chained (db.createSession userId context now).2 where
  filed t ht := by
    rw [AuthDb.createSession, List.length_append]
    exact Nat.lt_add_right 1 (h.filed t ht)
  path sessionId := by
    obtain ⟨path, hpath⟩ := h.path sessionId
    exact ⟨path, hpath.isPath, hpath.mem_iff⟩
  rotated := h.rotated
  closed t ht s hs := by
    rw [AuthDb.createSession, AuthDb.getSession,
      List.getElem?_append_left (h.filed t ht)] at hs
    exact h.closed t ht s hs

theorem getToken_lt {db : AuthDb} {id : Id} {token : RefreshToken}
    (h : db.getToken id = some token) : id < db.refreshTokens.length :=
  (List.getElem?_eq_some_iff.mp h).1

/-- The tables with one more token.  The token `prev`, if any, is now linked to it. -/
structure Grows (db db' : AuthDb) (sessionId : Id) (prev : Option Id) : Prop where
  inSession : ∀ s id, db'.InSession s id ↔
    db.InSession s id ∨ s = sessionId ∧ id = db.refreshTokens.length
  new : db'.rotatedTo db.refreshTokens.length = none
  linked : ∀ id ∈ prev, db'.rotatedTo id = some db.refreshTokens.length
  kept : ∀ id, id < db.refreshTokens.length → id ∉ prev → db'.rotatedTo id = db.rotatedTo id

namespace Grows

variable {db db' : AuthDb} {sessionId s : Id} {prev : Option Id} {path : List Id}

theorem lt_of_mem (hpath : SessionPath db s path) {id : Id} (hid : id ∈ path) :
    id < db.refreshTokens.length := by
  obtain ⟨token, htoken, -⟩ := (hpath.mem_iff id).mp hid
  exact getToken_lt htoken

/-- The paths of the other sessions stay. -/
theorem other (h : Grows db db' sessionId prev) (hpath : SessionPath db s path)
    (hs : s ≠ sessionId) (hprev : ∀ id ∈ prev, id ∉ path) : SessionPath db' s path where
  isPath := hpath.isPath.congr fun id hid =>
    h.kept id (lt_of_mem hpath hid) fun hlinked => hprev id hlinked hid
  mem_iff id := by
    rw [hpath.mem_iff id, h.inSession s id, or_iff_left fun hnew => hs hnew.1]

/-- The path of the session is one longer. -/
theorem own (h : Grows db db' sessionId prev) (hpath : SessionPath db sessionId path)
    (hlast : path.getLast? = prev) :
    SessionPath db' sessionId (path ++ [db.refreshTokens.length]) where
  isPath := by
    have hnew : db.refreshTokens.length ∉ path := fun hid => (lt_of_mem hpath hid).false
    rcases List.eq_nil_or_concat path with rfl | ⟨before, last, rfl⟩
    · exact isPath_singleton h.new
    · rw [List.concat_eq_append] at hpath hlast hnew ⊢
      rw [List.getLast?_concat] at hlast
      subst hlast
      refine hpath.isPath.extend hnew (fun id hid => ?_) (h.linked last rfl) h.new
      have hne : last ≠ id := by
        rintro rfl
        exact List.disjoint_of_nodup_append hpath.isPath.nodup hid List.mem_cons_self
      exact h.kept id (lt_of_mem hpath (List.mem_append_left _ hid))
        fun hlinked => hne (Option.mem_some_iff.mp hlinked)
  mem_iff id := by
    rw [List.mem_append, List.mem_singleton, hpath.mem_iff id, h.inSession sessionId id,
      and_iff_right rfl]

/-- The token it is linked to was the last of its session. -/
theorem exists_path (h : Grows db db' sessionId prev) (hdb : Chained db)
    (hown : ∀ id ∈ prev, db.InSession sessionId id)
    (hlast : ∀ path, SessionPath db sessionId path → path.getLast? = prev) (s : Id) :
    ∃ path, SessionPath db' s path := by
  obtain ⟨path, hpath⟩ := hdb.path s
  by_cases hs : s = sessionId
  · subst hs
    exact ⟨_, h.own hpath (hlast path hpath)⟩
  · refine ⟨path, h.other hpath hs fun id hid hmem => hs ?_⟩
    obtain ⟨token, htoken, hsession⟩ := (hpath.mem_iff id).mp hmem
    obtain ⟨token', htoken', hsession'⟩ := hown id hid
    rw [htoken] at htoken'
    cases htoken'
    exact hsession.symm.trans hsession'

end Grows

/-- The rows with one more token. -/
theorem getToken_append {db db' : AuthDb} {token : RefreshToken}
    (h : db'.refreshTokens = db.refreshTokens ++ [token]) (id : Id) :
    db'.getToken id = if id = db.refreshTokens.length then some token else db.getToken id := by
  rw [AuthDb.getToken, h]
  split
  · next hid => rw [hid, List.getElem?_concat_length]
  · next hid =>
      rcases Nat.lt_or_gt_of_ne hid with hlt | hgt
      · rw [List.getElem?_append_left hlt, AuthDb.getToken]
      · rw [AuthDb.getToken, List.getElem?_eq_none hgt.le, List.getElem?_eq_none]
        rw [List.length_append]
        exact hgt

theorem inSession_append {db db' : AuthDb} {token : RefreshToken}
    (h : db'.refreshTokens = db.refreshTokens ++ [token]) (s id : Id) :
    db'.InSession s id ↔
      db.InSession s id ∨ s = token.sessionId ∧ id = db.refreshTokens.length := by
  rw [AuthDb.InSession, getToken_append h, AuthDb.InSession]
  split
  · next hid =>
      have hnone : db.getToken id = none := by
        rw [hid]
        exact List.getElem?_eq_none le_rfl
      simp [hid ▸ hnone, hid, eq_comm]
  · next hid => simp [hid]

theorem issueTokens_error {db db' : AuthDb} {security : Security} {userId sessionId : Id}
    {raw : String} {now : DateTime} {e : AuthError}
    (h : db.issueTokens security userId sessionId raw now = (.error e, db')) : db' = db := by
  unfold AuthDb.issueTokens at h
  split at h
  · cases h
    rfl
  · cases h

/-- The token of a new session. -/
theorem issueTokens_chained {db : AuthDb} (h : Chained db) {security : Security} {userId : Id}
    {sessionId : Id} {raw : String} {now : DateTime} {s : Session}
    (hsession : db.getSession sessionId = some s) (hopen : s.revokedAt = none)
    (hnew : ∀ t ∈ db.refreshTokens, t.sessionId ≠ sessionId) :
    Chained (db.issueTokens security userId sessionId raw now).2 := by
  cases hissue : db.issueTokens security userId sessionId raw now with
  | mk result db' =>
      cases result with
      | error e =>
          rw [issueTokens_error hissue]
          exact h
      | ok issued =>
          obtain ⟨-, -, hdb'⟩ := issueTokens_ok hissue
          have htokens : db'.refreshTokens =
              db.refreshTokens ++ [security.refreshToken userId sessionId raw now] := by rw [hdb']
          have hsessions : db'.sessions = db.sessions := by rw [hdb']
          have hgrows : Grows db db' sessionId none := by
            refine ⟨inSession_append htokens, ?_, fun id hid => (nomatch hid),
              fun id hlt _ => ?_⟩
            · rw [AuthDb.rotatedTo, getToken_append htokens, if_pos rfl]
              rfl
            · rw [AuthDb.rotatedTo, getToken_append htokens, if_neg hlt.ne]
              rfl
          have hempty : ∀ path, SessionPath db sessionId path → path.getLast? = none := by
            intro path hpath
            rw [List.getLast?_eq_none_iff, List.eq_nil_iff_forall_not_mem]
            intro id hid
            obtain ⟨token, htoken, hin⟩ := (hpath.mem_iff id).mp hid
            exact hnew token (List.mem_of_getElem? htoken) hin
          refine ⟨fun t ht => ?_, hgrows.exists_path h (fun id hid => (nomatch hid)) hempty,
            fun t ht hrotated => ?_, fun t ht s' hs' hrevoked => ?_⟩
          · rw [hsessions]
            rcases List.mem_append.mp (htokens ▸ ht) with hold | hfresh
            · exact h.filed t hold
            · rw [List.mem_singleton.mp hfresh]
              exact (List.getElem?_eq_some_iff.mp hsession).1
          · rcases List.mem_append.mp (htokens ▸ ht) with hold | hfresh
            · exact h.rotated t hold hrotated
            · rw [List.mem_singleton.mp hfresh] at hrotated
              cases hrotated
          · rw [AuthDb.getSession, hsessions] at hs'
            rcases List.mem_append.mp (htokens ▸ ht) with hold | hfresh
            · exact h.closed t hold s' hs' hrevoked
            · rw [List.mem_singleton.mp hfresh] at hs'
              rw [Option.some.inj (hs'.symm.trans hsession), hopen] at hrevoked
              cases hrevoked

/-! ## Rotation -/

/-- What a rotation that raises has written. -/
theorem rotate_error {db db' : AuthDb} {security : Security} {raw fresh : String}
    {now later : DateTime} {e : AuthError}
    (h : db.rotate security raw fresh now later = (.error e, db')) :
    db' = db ∨ ∃ sessionId,
      db' = (db.revokeForSession sessionId later).markSessionRevoked sessionId now := by
  unfold AuthDb.rotate at h
  cases hfound : db.tokenByHash (security.hashToken raw) with
  | none =>
      rw [hfound] at h
      cases h
      exact .inl rfl
  | some tokenId =>
      rw [hfound] at h
      dsimp only at h
      cases hrow : db.getToken tokenId with
      | none =>
          rw [hrow] at h
          cases h
          exact .inl rfl
      | some token =>
          rw [hrow] at h
          dsimp only at h
          split at h
          · cases h
            exact .inr ⟨token.sessionId, rfl⟩
          · cases hchecks : db.refusal token now with
            | some message =>
                rw [hchecks] at h
                cases h
                exact .inl rfl
            | none =>
                rw [hchecks] at h
                dsimp only at h
                cases hissue :
                    db.issueTokens security token.userId token.sessionId fresh later with
                | mk result written =>
                    rw [hissue] at h
                    cases result with
                    | ok issued => cases h
                    | error e' =>
                        cases h
                        exact .inl (issueTokens_error hissue)

/-- The rows after the old token is linked. -/
theorem getToken_consume (db : AuthDb) (tokenId sessionId id : Id) (successor : Option Id)
    (now : DateTime) : (db.consume tokenId sessionId successor now).getToken id =
      (db.getToken id).map fun t =>
        if tokenId = id then { t with revokedAt := some now, rotatedTo := successor } else t := by
  rw [AuthDb.getToken, AuthDb.consume, List.getElem?_modify]
  rfl

theorem inSession_consume {db : AuthDb} {tokenId sessionId : Id} {successor : Option Id}
    {now : DateTime} {s id : Id} :
    (db.consume tokenId sessionId successor now).InSession s id ↔ db.InSession s id := by
  rw [AuthDb.InSession, getToken_consume, AuthDb.InSession]
  cases db.getToken id with
  | none => simp
  | some t =>
      rw [Option.map_some]
      split <;> simp

theorem rotatedTo_consume {db : AuthDb} {tokenId sessionId : Id} {successor : Option Id}
    {now : DateTime} {id : Id} (hne : tokenId ≠ id) :
    (db.consume tokenId sessionId successor now).rotatedTo id = db.rotatedTo id := by
  rw [AuthDb.rotatedTo, getToken_consume, AuthDb.rotatedTo]
  cases db.getToken id with
  | none => rfl
  | some t => simp [hne]

/-- The successor at the end, and the token it is issued for linked to it. -/
theorem consume_chained {db : AuthDb} (h : Chained db) {tokenId : Id} {token fresh : RefreshToken}
    {now : DateTime} (hrow : db.getToken tokenId = some token)
    (hunrotated : token.rotatedTo = none) (hfresh : fresh.sessionId = token.sessionId)
    (hlast : fresh.rotatedTo = none)
    (hopen : ∃ s, db.getSession token.sessionId = some s ∧ s.revokedAt = none) :
    Chained (AuthDb.consume { db with refreshTokens := db.refreshTokens ++ [fresh] }
      tokenId token.sessionId (some db.refreshTokens.length) now) := by
  let grown : AuthDb := { db with refreshTokens := db.refreshTokens ++ [fresh] }
  have hlt : tokenId < db.refreshTokens.length := getToken_lt hrow
  have happend : grown.refreshTokens = db.refreshTokens ++ [fresh] := rfl
  have hgrows : Grows db (grown.consume tokenId token.sessionId
      (some db.refreshTokens.length) now) token.sessionId (some tokenId) := by
    refine ⟨fun s id => ?_, ?_, fun id hid => ?_, fun id hid hne => ?_⟩
    · rw [inSession_consume, inSession_append happend, hfresh]
    · rw [rotatedTo_consume hlt.ne, AuthDb.rotatedTo, getToken_append happend, if_pos rfl]
      exact hlast
    · rw [← Option.mem_some_iff.mp hid, AuthDb.rotatedTo, getToken_consume,
        getToken_append happend, if_neg hlt.ne, hrow]
      simp
    · rw [rotatedTo_consume fun heq => hne (Option.mem_some_iff.mpr heq), AuthDb.rotatedTo,
        getToken_append happend, if_neg hid.ne, AuthDb.rotatedTo]
  have hend : ∀ path, SessionPath db token.sessionId path → path.getLast? = some tokenId := by
    intro path hpath
    have hmem : tokenId ∈ path := (hpath.mem_iff tokenId).mpr ⟨token, hrow, rfl⟩
    have hnext : db.rotatedTo tokenId = none := by rw [AuthDb.rotatedTo, hrow]; exact hunrotated
    obtain ⟨before, rfl⟩ := hpath.isPath.eq_append_of_next_none hmem hnext
    exact List.getLast?_concat
  -- A row is the linked one, an old one or the new one.
  have hrows : ∀ t ∈ (grown.consume tokenId token.sessionId
      (some db.refreshTokens.length) now).refreshTokens,
      t ∈ db.refreshTokens ∨ t = fresh ∨
        ∃ old ∈ db.refreshTokens ++ [fresh], t.sessionId = old.sessionId ∧
          t.revokedAt.isSome = true := by
    intro t ht
    rcases Table.mem_modify ht with hkept | ⟨old, hold, rfl⟩
    · rcases List.mem_append.mp hkept with hold | hnew
      · exact .inl hold
      · exact .inr (.inl (List.mem_singleton.mp hnew))
    · exact .inr (.inr ⟨old, hold, rfl, rfl⟩)
  have hfiled : ∀ t ∈ db.refreshTokens ++ [fresh], t.sessionId < db.sessions.length := by
    intro t ht
    rcases List.mem_append.mp ht with hold | hnew
    · exact h.filed t hold
    · rw [List.mem_singleton.mp hnew, hfresh]
      exact h.filed token (List.mem_of_getElem? hrow)
  have hrevoked : ∀ id s', (grown.consume tokenId token.sessionId
      (some db.refreshTokens.length) now).getSession id = some s' →
      ∃ s, db.getSession id = some s ∧ s.revokedAt = s'.revokedAt := by
    intro id s' hs'
    rw [AuthDb.getSession, AuthDb.consume, List.getElem?_modify, Option.map_eq_map,
      Option.map_eq_some_iff] at hs'
    obtain ⟨s, hs, rfl⟩ := hs'
    refine ⟨s, hs, ?_⟩
    split <;> rfl
  refine ⟨fun t ht => ?_, hgrows.exists_path h (fun id hid => ?_) hend,
    fun t ht hrotated => ?_, fun t ht s' hs' hwas => ?_⟩
  · rw [AuthDb.consume, List.length_modify]
    rcases hrows t ht with hold | rfl | ⟨old, hold, hsession, -⟩
    · exact h.filed t hold
    · exact hfiled _ (List.mem_append_right _ List.mem_cons_self)
    · rw [hsession]
      exact hfiled old hold
  · exact Option.mem_some_iff.mp hid ▸ ⟨token, hrow, rfl⟩
  · rcases hrows t ht with hold | rfl | ⟨-, -, -, hclosed⟩
    · exact h.rotated t hold hrotated
    · rw [hlast] at hrotated
      cases hrotated
    · exact hclosed
  · obtain ⟨s, hs, hsame⟩ := hrevoked _ s' hs'
    rcases hrows t ht with hold | rfl | ⟨-, -, -, hclosed⟩
    · exact h.closed t hold s hs (hsame ▸ hwas)
    · obtain ⟨s₀, hs₀, hopen₀⟩ := hopen
      rw [hfresh, hs₀] at hs
      cases hs
      rw [← hsame, hopen₀] at hwas
      cases hwas
    · exact hclosed

theorem rotate_chained {db : AuthDb} (h : Chained db) (security : Security) (raw fresh : String)
    (now later : DateTime) : Chained (db.rotate security raw fresh now later).2 := by
  cases hrotate : db.rotate security raw fresh now later with
  | mk result db' =>
      cases result with
      | error e =>
          rcases rotate_error hrotate with rfl | ⟨sessionId, rfl⟩
          · exact h
          · exact replay_chained h sessionId now later
      | ok issued =>
          obtain ⟨tokenId, token, -, hrow, husable, -, rfl⟩ := rotate_ok hrotate
          exact consume_chained h hrow husable.unrotated rfl rfl husable.session

/-! ## Histories -/

/-- The calls of the token service.  `raw` and `fresh` are the tokens generated in them. -/
inductive TokenCall where
  | createSession (userId : Id) (context : RequestContext) (now : DateTime)
  | issueTokens (userId sessionId : Id) (raw : String) (now : DateTime)
  | rotate (rawRefresh fresh : String) (now later : DateTime)
  | revokeSession (sessionId : Id) (now later : DateTime)
  | revokeAllForUser (userId : Id) (now later : DateTime)

namespace TokenCall

/-- The tables after a call, with what it has written before it raised. -/
def step (security : Security) (db : AuthDb) : TokenCall → AuthDb
  | .createSession userId context now => (db.createSession userId context now).2
  | .issueTokens userId sessionId raw now => (db.issueTokens security userId sessionId raw now).2
  | .rotate rawRefresh fresh now later => (db.rotate security rawRefresh fresh now later).2
  | .revokeSession sessionId now later => db.revokeSession sessionId now later
  | .revokeAllForUser userId now later => db.revokeAllForUser userId now later

/-- Tokens are issued to a new session: it has none yet and is not revoked. -/
def OnNewSession (db : AuthDb) : TokenCall → Prop
  | .issueTokens _ sessionId _ _ =>
      (∃ s, db.getSession sessionId = some s ∧ s.revokedAt = none) ∧
        ∀ t ∈ db.refreshTokens, t.sessionId ≠ sessionId
  | _ => True

theorem step_chained {security : Security} {db : AuthDb} {call : TokenCall}
    (hnew : call.OnNewSession db) (h : Chained db) : Chained (call.step security db) := by
  cases call with
  | createSession userId context now => exact createSession_chained h userId context now
  | issueTokens userId sessionId raw now =>
      obtain ⟨⟨s, hsession, hopen⟩, hempty⟩ := hnew
      exact issueTokens_chained h hsession hopen hempty
  | rotate rawRefresh fresh now later => exact rotate_chained h security rawRefresh fresh now later
  | revokeSession sessionId now later => exact revokeSession_chained h sessionId now later
  | revokeAllForUser userId now later => exact revokeAllForUser_chained h userId now later

end TokenCall

theorem run_chained {security : Security} {users : List User} {calls : List TokenCall}
    (hnew : Run.EveryStep (TokenCall.step security) (fun db call => call.OnNewSession db)
      (AuthDb.initial users) calls) :
    Chained (Run.run (TokenCall.step security) (AuthDb.initial users) calls) :=
  Run.run_invariant_of_everyStep (fun _ _ => TokenCall.step_chained) calls hnew
    (chained_initial users)

/-! ## The chain of a session -/

/-- A token of the session that is not revoked. -/
def AuthDb.Live (db : AuthDb) (sessionId id : Id) : Prop :=
  ∃ token, db.getToken id = some token ∧ token.sessionId = sessionId ∧ token.revokedAt = none

/-- A token of the session that is revoked. -/
def AuthDb.Dead (db : AuthDb) (sessionId id : Id) : Prop :=
  ∃ token, db.getToken id = some token ∧ token.sessionId = sessionId ∧
    token.revokedAt.isSome = true

/-- The tokens of a session form one path, of which the last is the only one that can be
live, and is not when the session is revoked. -/
structure FormsChain (db : AuthDb) (sessionId : Id) : Prop where
  path : ∃ path, SessionPath db sessionId path ∧ ∀ id ∈ path.dropLast, db.Dead sessionId id
  live : ∀ a b, db.Live sessionId a → db.Live sessionId b → a = b
  closed : ∀ s, db.getSession sessionId = some s → s.revokedAt.isSome = true →
    ∀ id, ¬ db.Live sessionId id

namespace Chained

variable {db : AuthDb} {sessionId id : Id}

/-- A live token has no successor. -/
theorem rotatedTo_of_live (h : Chained db) (hlive : db.Live sessionId id) :
    db.rotatedTo id = none := by
  obtain ⟨token, htoken, -, hopen⟩ := hlive
  rw [AuthDb.rotatedTo, htoken, Option.bind_some]
  by_contra hlinked
  have hdead := h.rotated token (List.mem_of_getElem? htoken)
    (Option.isSome_iff_ne_none.mpr hlinked)
  rw [hopen] at hdead
  cases hdead

theorem formsChain (h : Chained db) (sessionId : Id) : FormsChain db sessionId := by
  obtain ⟨path, hpath⟩ := h.path sessionId
  have hmem : ∀ {id}, db.Live sessionId id → id ∈ path := fun ⟨token, htoken, hin, _⟩ =>
    (hpath.mem_iff _).mpr ⟨token, htoken, hin⟩
  refine ⟨⟨path, hpath, fun id hid => ?_⟩, fun a b ha hb => ?_, fun s hs hrevoked id hlive => ?_⟩
  · obtain ⟨token, htoken, hin⟩ := (hpath.mem_iff id).mp (List.dropLast_subset path hid)
    obtain ⟨next, hnext⟩ := hpath.isPath.exists_next hid
    rw [AuthDb.rotatedTo, htoken, Option.bind_some] at hnext
    exact ⟨token, htoken, hin,
      h.rotated token (List.mem_of_getElem? htoken) (Option.isSome_of_eq_some hnext)⟩
  · exact hpath.isPath.eq_of_next_none (hmem ha) (hmem hb) (h.rotatedTo_of_live ha)
      (h.rotatedTo_of_live hb)
  · obtain ⟨token, htoken, hin, hopen⟩ := hlive
    have hdead := h.closed token (List.mem_of_getElem? htoken) s (hin ▸ hs) hrevoked
    rw [hopen] at hdead
    cases hdead

end Chained

/-- After every history of the service, every session's tokens form one chain. -/
theorem tokens_form_chains (security : Security) (users : List User) (calls : List TokenCall)
    (hnew : Run.EveryStep (TokenCall.step security) (fun db call => call.OnNewSession db)
      (AuthDb.initial users) calls) (sessionId : Id) :
    FormsChain (Run.run (TokenCall.step security) (AuthDb.initial users) calls) sessionId :=
  (run_chained hnew).formsChain sessionId

/-- A session with two rotations and a replay of its first token, and a second session. -/
theorem tokens_form_chains_sample :
    let calls : List TokenCall :=
      [.createSession 0 sampleContext 0, .issueTokens 0 0 "t1" 0, .rotate "t1" "t2" 10 10,
        .rotate "t2" "t3" 20 20, .createSession 0 sampleContext 30, .issueTokens 0 1 "u1" 30,
        .rotate "t1" "t4" 40 40]
    FormsChain (Run.run (TokenCall.step sampleSecurity) (AuthDb.initial [⟨true⟩]) calls) 0 := by
  intro calls
  refine tokens_form_chains sampleSecurity [⟨true⟩] calls
    ⟨trivial, ⟨⟨_, rfl, rfl⟩, ?_⟩, trivial, trivial, trivial, ⟨⟨_, rfl, rfl⟩, ?_⟩, trivial,
      trivial⟩ 0
  · intro t ht
    cases ht
  · decide +kernel

end YoutubeFactory.Auth
