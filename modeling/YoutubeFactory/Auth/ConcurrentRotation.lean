import YoutubeFactory.Lib.Interleaving
import YoutubeFactory.Auth.Chain

/-!
# Rotations of one refresh token at the same time

`rotate` with the places where it gives way: it reads the token, the session and the
user, inserts the successor and reads it back, writes the token and the session, and
commits.  Each request has its own transaction.  The token has no version column: the
write waits for the row, and then overwrites whatever is in it.

So one request at most returns, and no session has two live tokens, in every run in
which the token is still unused whenever it is written, and in no other run to the end
(`rotation_exclusive_iff`).
-/

namespace YoutubeFactory.Auth

open Interleaving

/-! ## The steps of a request -/

/-- What all transactions see: the committed tables, the hashes of the rows that are
inserted and not committed, and whether a transaction has written the session and not
ended. -/
structure RotationStore where
  db : AuthDb
  inserted : List String
  locked : Bool

/-- What a request has read. -/
structure Rotation where
  fresh : String
  now : DateTime
  tokenId : Id
  token : RefreshToken

/-- Where a request of `rotate` stands. -/
inductive Rotating where
  /-- Called. -/
  | requested (fresh : String)
  /-- Before the session is read. -/
  | located (r : Rotation)
  /-- Before the user is read. -/
  | active (r : Rotation)
  /-- Before the successor is inserted. -/
  | checked (r : Rotation)
  /-- Before it is read back. -/
  | issued (r : Rotation) (later : DateTime)
  /-- Before the flush. -/
  | marking (r : Rotation) (later : DateTime)
  /-- After the flush, before the commit. -/
  | marked (r : Rotation) (later : DateTime)
  /-- The token was consumed: before the session is revoked. -/
  | reused
  /-- After that, before the rollback. -/
  | revoking
  | ended (result : Except AuthError IssuedTokens)

namespace Rotation

variable (security : Security) (r : Rotation)

/-- The row of the successor. -/
def successor (later : DateTime) : RefreshToken :=
  security.refreshToken r.token.userId r.token.sessionId r.fresh later

def issued : IssuedTokens where
  accessToken := security.createAccessToken r.token.userId r.token.sessionId
  refreshToken := r.fresh
  expiresIn := security.accessTokenExpireMinutes * 60

/-- The tables after the commit. -/
def commit (later : DateTime) (db : AuthDb) : AuthDb :=
  AuthDb.consume { db with refreshTokens := db.refreshTokens ++ [r.successor security later] }
    r.tokenId r.token.sessionId (some db.refreshTokens.length) r.now

end Rotation

/-- A request goes on to its next await.  `clock` is what it reads there, if it reads
the clock. -/
def Rotating.resume (security : Security) (raw : String) (store : RotationStore)
    (clock : DateTime) : Rotating → RotationStore × Rotating
  | .requested fresh =>
      match store.db.tokenByHash (security.hashToken raw) with
      | none => (store, raises "Invalid refresh token.")
      | some tokenId =>
          match store.db.getToken tokenId with
          | none => (store, raises "Invalid refresh token.")
          | some token =>
              if token.revokedAt.isSome ∨ token.rotatedTo.isSome then (store, .reused)
              else if token.expiresAt < clock then (store, raises "Refresh token has expired.")
              else (store, .located { fresh, now := clock, tokenId, token })
  | .located r =>
      if (store.db.getSession r.token.sessionId).all fun s => s.revokedAt.isSome then
        (store, raises "Session is no longer active.")
      else (store, .active r)
  | .active r =>
      if (store.db.users[r.token.userId]?).all fun u => !u.isActive then
        (store, raises "User is no longer active.")
      else (store, .checked r)
  | .checked r =>
      let hash := security.hashToken r.fresh
      if store.db.refreshTokens.any fun t => t.tokenHash = hash then
        (store, .ended (.error .integrity))
      -- An insert waits for the transaction that has inserted the same hash.
      else if hash ∈ store.inserted then (store, .checked r)
      else ({ store with inserted := hash :: store.inserted }, .issued r clock)
  | .issued r later => (store, .marking r later)
  | .marking r later =>
      if store.locked then (store, .marking r later)
      else ({ store with locked := true }, .marked r later)
  | .marked r later =>
      ({ db := r.commit security later store.db
         inserted := store.inserted.erase (security.hashToken r.fresh)
         locked := false }, .ended (.ok (r.issued security)))
  | .reused =>
      if store.locked then (store, .reused) else ({ store with locked := true }, .revoking)
  | .revoking => ({ store with locked := false }, raises "Refresh token has already been used.")
  | .ended result => (store, .ended result)
where
  raises (message : String) : Rotating := .ended (.error (.unauthorized message))

/-- Any number of requests that present one token. -/
abbrev Rotations := System RotationStore Rotating

abbrev RotationTurn := Turn DateTime

/-- One request goes on. -/
def Rotations.step (security : Security) (raw : String) : Rotations → RotationTurn → Rotations :=
  Interleaving.step (Rotating.resume security raw)

/-! ## One request alone -/

theorem step_alone (security : Security) (raw : String) (store : RotationStore)
    (p : Rotating) (clock : DateTime) :
    Rotations.step security raw ⟨store, [p]⟩ ⟨0, clock⟩ =
      ⟨(p.resume security raw store clock).1, [(p.resume security raw store clock).2]⟩ := rfl

theorem run_ended (security : Security) (raw : String) (store : RotationStore)
    (result : Except AuthError IssuedTokens) (clocks : List DateTime) :
    Run.run (Rotations.step security raw) ⟨store, [.ended result]⟩
        (clocks.map fun clock => ⟨0, clock⟩) = ⟨store, [.ended result]⟩ := by
  induction clocks with
  | nil => rfl
  | cons clock clocks ih =>
      rw [List.map_cons, Run.run_cons, step_alone]
      exact ih

/-- The successor is inserted and committed, if its hash is new. -/
theorem checked_alone (security : Security) (db : AuthDb) (raw : String) (r : Rotation)
    (later : DateTime) :
    Run.run (Rotations.step security raw) ⟨⟨db, [], false⟩, [.checked r]⟩
        ([later, later, later, later].map fun clock => ⟨0, clock⟩) =
      match db.issueTokens security r.token.userId r.token.sessionId r.fresh later with
      | (.error e, _) => ⟨⟨db, [], false⟩, [.ended (.error e)]⟩
      | (.ok issued, _) => ⟨⟨r.commit security later db, [], false⟩, [.ended (.ok issued)]⟩ := by
  rw [List.map_cons, Run.run_cons, step_alone]
  unfold AuthDb.issueTokens
  simp only [Rotating.resume]
  by_cases hstored : (db.refreshTokens.any fun t =>
      t.tokenHash = security.hashToken r.fresh) = true
  · rw [if_pos hstored, if_pos hstored]
    exact run_ended ..
  · rw [if_neg hstored, if_neg hstored, if_neg List.not_mem_nil]
    simp [step_alone, Rotating.resume, Rotation.issued]

/-- The session and the user are read, and nothing is written. -/
theorem located_alone (security : Security) (db : AuthDb) (raw : String) (r : Rotation)
    (hunexpired : ¬ r.token.expiresAt < r.now) (clock : DateTime) (clocks : List DateTime) :
    Run.run (Rotations.step security raw) ⟨⟨db, [], false⟩, [.located r]⟩
        ((clock :: clock :: clocks).map fun clock => ⟨0, clock⟩) =
      match db.refusal r.token r.now with
      | some message => ⟨⟨db, [], false⟩, [.ended (.error (.unauthorized message))]⟩
      | none => Run.run (Rotations.step security raw) ⟨⟨db, [], false⟩, [.checked r]⟩
          (clocks.map fun clock => ⟨0, clock⟩) := by
  rw [List.map_cons, Run.run_cons, step_alone]
  unfold AuthDb.refusal
  simp only [Rotating.resume, if_neg hunexpired]
  cases hsession : (db.getSession r.token.sessionId).all fun s => s.revokedAt.isSome with
  | true => exact run_ended ..
  | false =>
      rw [if_neg Bool.false_ne_true, if_neg Bool.false_ne_true, List.map_cons, Run.run_cons,
        step_alone]
      simp only [Rotating.resume]
      cases huser : (db.users[r.token.userId]?).all fun u => !u.isActive with
      | true => exact run_ended ..
      | false => rfl

/-- A request that is alone takes seven turns at most, and does what `rotate` does in
its transaction. -/
theorem rotate_alone (security : Security) (db : AuthDb) (raw fresh : String)
    (now later : DateTime) :
    Run.run (Rotations.step security raw) ⟨⟨db, [], false⟩, [.requested fresh]⟩
        ([now, now, now, later, later, later, later].map fun clock => ⟨0, clock⟩) =
      ⟨⟨sessionScope db fun db => db.rotate security raw fresh now later, [], false⟩,
        [.ended (db.rotate security raw fresh now later).1]⟩ := by
  rw [List.map_cons, Run.run_cons, step_alone]
  unfold sessionScope AuthDb.rotate
  simp only [Rotating.resume]
  cases hfound : db.tokenByHash (security.hashToken raw) with
  | none => exact run_ended ..
  | some tokenId =>
      dsimp only
      cases hrow : db.getToken tokenId with
      | none => exact run_ended ..
      | some token =>
          dsimp only
          by_cases hconsumed : token.revokedAt.isSome = true ∨ token.rotatedTo.isSome = true
          · rw [if_pos hconsumed, if_pos hconsumed]
            rfl
          · rw [if_neg hconsumed, if_neg hconsumed]
            by_cases hexpired : token.expiresAt < now
            · rw [if_pos hexpired, AuthDb.refusal, if_pos hexpired]
              exact run_ended ..
            · rw [if_neg hexpired, located_alone security db raw _ hexpired]
              cases hrefusal : db.refusal token now with
              | some message => rfl
              | none =>
                  dsimp only
                  rw [checked_alone]
                  cases hissue :
                      db.issueTokens security token.userId token.sessionId fresh later with
                  | mk result db' =>
                      cases result with
                      | error e => rfl
                      | ok issued =>
                          obtain ⟨hnew, hissued, rfl⟩ := issueTokens_ok hissue
                          have hfound' : AuthDb.tokenByHash { db with refreshTokens :=
                              db.refreshTokens ++ [security.refreshToken token.userId
                                token.sessionId fresh later] } (security.hashToken fresh) =
                              some db.refreshTokens.length := tokenByHash_append hnew
                          dsimp only
                          rw [hissued, hfound']
                          rfl

/-! ## What a turn does -/

/-- What a request has read, once it has found the token unused and until it ends. -/
def Rotating.held : Rotating → Option Rotation
  | .located r | .active r | .checked r | .issued r _ | .marking r _ | .marked r _ => some r
  | _ => none

/-- The request has written the session and not ended. -/
def Rotating.locks : Rotating → Bool
  | .marked _ _ | .revoking => true
  | _ => false

def Rotating.returned : Rotating → Bool
  | .ended (.ok _) => true
  | _ => false

/-- The token can be rotated as far as its own row goes. -/
def RefreshToken.Unused (token : RefreshToken) : Prop :=
  token.revokedAt = none ∧ token.rotatedTo = none

/-- The steps of a request. -/
inductive Rotating.Resumed (security : Security) (raw : String) (store : RotationStore) :
    Rotating → RotationStore → Rotating → Prop
  | waits (p : Rotating) : Rotating.Resumed security raw store p store p
  | raises {p : Rotating} (hlocks : p.locks = false) (hreturned : p.returned = false)
      (e : AuthError) : Rotating.Resumed security raw store p store (.ended (.error e))
  | locates {fresh : String} {r : Rotation}
      (hfound : store.db.tokenByHash (security.hashToken raw) = some r.tokenId)
      (hrow : store.db.getToken r.tokenId = some r.token) (hunused : r.token.Unused) :
      Rotating.Resumed security raw store (.requested fresh) store (.located r)
  | detects {fresh : String} :
      Rotating.Resumed security raw store (.requested fresh) store .reused
  | advances {p p' : Rotating} {r : Rotation} (hheld : p.held = some r)
      (hheld' : p'.held = some r) (hlocks : p.locks = false) (hlocks' : p'.locks = false)
      (inserted : List String) :
      Rotating.Resumed security raw store p { store with inserted } p'
  | marks {r : Rotation} {later : DateTime} (hunlocked : store.locked = false) :
      Rotating.Resumed security raw store (.marking r later) { store with locked := true }
        (.marked r later)
  | commits {r : Rotation} {later : DateTime} (inserted : List String) :
      Rotating.Resumed security raw store (.marked r later)
        ⟨r.commit security later store.db, inserted, false⟩ (.ended (.ok (r.issued security)))
  | revokes (hunlocked : store.locked = false) :
      Rotating.Resumed security raw store .reused { store with locked := true } .revoking
  | rollsBack (e : AuthError) :
      Rotating.Resumed security raw store .revoking { store with locked := false }
        (.ended (.error e))

theorem resume_rotating (security : Security) (raw : String) (store : RotationStore)
    (clock : DateTime) (p : Rotating) :
    Rotating.Resumed security raw store p (p.resume security raw store clock).1
      (p.resume security raw store clock).2 := by
  cases p with
  | requested fresh =>
      simp only [Rotating.resume]
      cases hfound : store.db.tokenByHash (security.hashToken raw) with
      | none => exact .raises rfl rfl _
      | some tokenId =>
          cases hrow : store.db.getToken tokenId with
          | none => simpa only [hrow] using .raises rfl rfl _
          | some token =>
              simp only [hrow]
              split
              · exact .detects
              · next hopen =>
                  split
                  · exact .raises rfl rfl _
                  · exact .locates hfound hrow (by simpa [RefreshToken.Unused] using hopen)
  | located r =>
      simp only [Rotating.resume]
      split
      · exact .raises rfl rfl _
      · exact .advances rfl rfl rfl rfl store.inserted
  | active r =>
      simp only [Rotating.resume]
      split
      · exact .raises rfl rfl _
      · exact .advances rfl rfl rfl rfl store.inserted
  | checked r =>
      simp only [Rotating.resume]
      split
      · exact .raises rfl rfl _
      · split
        · exact .waits _
        · exact .advances rfl rfl rfl rfl _
  | issued r later => exact .advances rfl rfl rfl rfl store.inserted
  | marking r later =>
      simp only [Rotating.resume]
      cases hlocked : store.locked with
      | true => exact .waits _
      | false => exact .marks hlocked
  | marked r later => exact .commits _
  | reused =>
      simp only [Rotating.resume]
      cases hlocked : store.locked with
      | true => exact .waits _
      | false => exact .revokes hlocked
  | revoking => exact .rollsBack _
  | ended result => exact .waits _

/-! ## The tables after a commit -/

namespace Rotation

variable {security : Security} {r : Rotation} {db : AuthDb} {later : DateTime} {id s : Id}
  {token : RefreshToken} {hash : String}

/-- A hash is found where it was. -/
theorem tokenByHash_commit (h : db.tokenByHash hash = some id) :
    (r.commit security later db).tokenByHash hash = some id := by
  have hcolumn : ∀ rows : List RefreshToken,
      (rows.findIdx? fun t => t.tokenHash = hash) =
        (rows.map (·.tokenHash)).findIdx? fun h => h = hash :=
    fun rows => by rw [List.findIdx?_map]; rfl
  have hhashes : (r.commit security later db).refreshTokens.map (·.tokenHash) =
      db.refreshTokens.map (·.tokenHash) ++ [(r.successor security later).tokenHash] :=
    (Restricts.consume _ _ _ _ _).hashes.trans List.map_append
  rw [AuthDb.tokenByHash, hcolumn] at h ⊢
  rw [hhashes, List.findIdx?_append, h, Option.some_or]

/-- The rows: the consumed one, the new one, and the others as they were. -/
theorem getToken_commit (hid : id < db.refreshTokens.length) :
    (r.commit security later db).getToken id = (db.getToken id).map fun t =>
      if r.tokenId = id then
        { t with revokedAt := some r.now, rotatedTo := some db.refreshTokens.length }
      else t := by
  rw [commit, getToken_consume, getToken_append rfl, if_neg hid.ne]

/-- A token that is live after a commit was live before and is not the consumed one, or
is the new one. -/
theorem live_commit (hold : r.tokenId < db.refreshTokens.length)
    (h : (r.commit security later db).Live s id) :
    (id = db.refreshTokens.length ∧ s = r.token.sessionId) ∨
      (r.tokenId ≠ id ∧ db.Live s id) := by
  obtain ⟨token, htoken, hsession, hopen⟩ := h
  rw [commit, getToken_consume, getToken_append rfl] at htoken
  by_cases hid : id = db.refreshTokens.length
  · rw [if_pos hid, Option.map_some, if_neg (hid ▸ hold.ne), Option.some.injEq] at htoken
    subst htoken
    exact .inl ⟨hid, hsession.symm⟩
  · rw [if_neg hid, Option.map_eq_some_iff] at htoken
    obtain ⟨t, ht, rfl⟩ := htoken
    by_cases heq : r.tokenId = id
    · rw [if_pos heq] at hopen
      cases hopen
    · rw [if_neg heq] at hsession hopen
      exact .inr ⟨heq, t, ht, hsession, hopen⟩

end Rotation

/-! ## What holds after every run -/

/-- The request has read the token that is presented. -/
def Rotation.Reads (security : Security) (raw : String) (db : AuthDb) (r : Rotation) : Prop :=
  db.tokenByHash (security.hashToken raw) = some r.tokenId ∧
    ∃ token, db.getToken r.tokenId = some token ∧ token.sessionId = r.token.sessionId

theorem Rotation.Reads.commit {security : Security} {raw : String} {db : AuthDb}
    {r r' : Rotation} (h : r'.Reads security raw db) (later : DateTime) :
    r'.Reads security raw (r.commit security later db) := by
  obtain ⟨hfound, token, htoken, hsession⟩ := h
  refine ⟨Rotation.tokenByHash_commit hfound, ?_⟩
  rw [Rotation.getToken_commit (getToken_lt htoken), htoken]
  refine ⟨_, rfl, ?_⟩
  split <;> exact hsession

/-- Requests have read the presented token, and one at most has written the session. -/
def rotationAssertion (security : Security) (raw : String) :
    Assertion RotationStore Rotating where
  store _ := True
  proc store p :=
    (∀ r, p.held = some r → r.Reads security raw store.db) ∧
      (p.locks = true → store.locked = true)
  pair p q := ¬ (p.locks = true ∧ q.locks = true)
  symm _ _ h hboth := h hboth.symm

section

variable {security : Security} {raw : String} {store store' : RotationStore} {p p' q : Rotating}

theorem Rotating.Resumed.keepsOwn (h : Rotating.Resumed security raw store p store' p')
    (hp : (rotationAssertion security raw).proc store p) :
    KeepsOwn (rotationAssertion security raw) store' p' := by
  refine ⟨trivial, ?_⟩
  cases h with
  | waits => exact hp
  | raises => exact ⟨fun r hr => (nomatch hr), fun hlocks => (nomatch hlocks)⟩
  | locates hfound hrow =>
      refine ⟨fun r' hr' => ?_, fun hlocks => (nomatch hlocks)⟩
      cases hr'
      exact ⟨hfound, _, hrow, rfl⟩
  | detects => exact ⟨fun r hr => (nomatch hr), fun hlocks => (nomatch hlocks)⟩
  | advances hheld hheld' hlocks hlocks' =>
      refine ⟨fun r' hr' => ?_, fun h => ?_⟩
      · rw [hheld'] at hr'
        exact hp.1 r' (hheld.trans hr')
      · rw [hlocks'] at h
        cases h
  | marks => exact ⟨hp.1, fun _ => rfl⟩
  | commits => exact ⟨fun r hr => (nomatch hr), fun hlocks => (nomatch hlocks)⟩
  | revokes => exact ⟨fun r hr => (nomatch hr), fun _ => rfl⟩
  | rollsBack => exact ⟨fun r hr => (nomatch hr), fun hlocks => (nomatch hlocks)⟩

theorem Rotating.Resumed.keepsOther (h : Rotating.Resumed security raw store p store' p')
    (hq : (rotationAssertion security raw).proc store q)
    (hpair : (rotationAssertion security raw).pair p q) :
    KeepsOther (rotationAssertion security raw) store' p' q := by
  have hidle : ∀ {p : Rotating}, p.locks = false → (rotationAssertion security raw).pair p q :=
    fun hlocks hboth => by rw [hboth.1] at hlocks; cases hlocks
  -- Where the session is not locked the other has not written it.
  have hfree : store.locked = false → q.locks = false := by
    intro hunlocked
    cases hlocks : q.locks with
    | true =>
        rw [hq.2 hlocks] at hunlocked
        cases hunlocked
    | false => rfl
  cases h with
  | waits => exact ⟨hq, hpair⟩
  | raises => exact ⟨hq, hidle rfl⟩
  | locates => exact ⟨hq, hidle rfl⟩
  | detects => exact ⟨hq, hidle rfl⟩
  | advances hheld hheld' hlocks hlocks' => exact ⟨hq, hidle hlocks'⟩
  | marks hunlocked =>
      exact ⟨⟨hq.1, fun _ => rfl⟩, fun hboth => by rw [hfree hunlocked] at hboth; cases hboth.2⟩
  | @commits r later =>
      refine ⟨⟨fun r' hr' => (hq.1 r' hr').commit later, fun hlocks => ?_⟩, hidle rfl⟩
      exact absurd ⟨rfl, hlocks⟩ hpair
  | revokes hunlocked =>
      exact ⟨⟨hq.1, fun _ => rfl⟩, fun hboth => by rw [hfree hunlocked] at hboth; cases hboth.2⟩
  | rollsBack =>
      exact ⟨⟨hq.1, fun hlocks => absurd ⟨rfl, hlocks⟩ hpair⟩, hidle rfl⟩

theorem rotation_step {s : Rotations} (turn : RotationTurn)
    (h : Holds (rotationAssertion security raw) s) :
    Holds (rotationAssertion security raw) (s.step security raw turn) := by
  refine h.step (fun p _ hp => ?_) (fun p _ q _ _ _ _ hq hpair => ?_)
  · exact (resume_rotating security raw s.store turn.input p).keepsOwn hp
  · exact (resume_rotating security raw s.store turn.input p).keepsOther hq hpair

end

/-! ## Requests that write an unused token -/

/-- A token of the session that is neither revoked nor expired at the moment. -/
def AuthDb.LiveAt (db : AuthDb) (sessionId : Id) (moment : DateTime) (id : Id) : Prop :=
  ∃ token, db.getToken id = some token ∧ token.sessionId = sessionId ∧
    token.revokedAt = none ∧ moment ≤ token.expiresAt

/-- No session has two tokens that are not revoked. -/
def AuthDb.SingleLive (db : AuthDb) : Prop :=
  ∀ sessionId a b, db.Live sessionId a → db.Live sessionId b → a = b

theorem Chained.singleLive {db : AuthDb} (h : Chained db) : db.SingleLive := fun sessionId =>
  (h.formsChain sessionId).live

/-- The presented token is revoked. -/
def AuthDb.Spent (db : AuthDb) (security : Security) (raw : String) : Prop :=
  ∃ token, db.presented security raw = some token ∧ token.revokedAt.isSome = true

namespace Rotations

/-- Requests that are called with one token. -/
structure Starts (s : Rotations) : Prop where
  requested : ∀ p ∈ s.procs, ∃ fresh, p = .requested fresh
  single : s.store.db.SingleLive

/-- One request at most has returned, and no session has two live tokens. -/
structure Exclusive (s : Rotations) : Prop where
  returned : ∀ (i j : Nat) p q, s.procs[i]? = some p → s.procs[j]? = some q →
    p.returned = true → q.returned = true → i = j
  live : ∀ sessionId moment a b, s.store.db.LiveAt sessionId moment a →
    s.store.db.LiveAt sessionId moment b → a = b

/-- A request that writes the token finds it unused, as when it was read. -/
def FindsUnused (s : Rotations) (turn : RotationTurn) : Prop :=
  ∀ r later, s.procs[turn.proc]? = some (.marking r later) → s.store.locked = false →
    ∀ token, s.store.db.getToken r.tokenId = some token → token.Unused

end Rotations

/-- What a request has written is written to an unused token, and what has returned has
spent it. -/
def exclusiveAssertion (security : Security) (raw : String) :
    Assertion RotationStore Rotating where
  store store := store.db.SingleLive
  proc store p :=
    (∀ r later, p = .marked r later →
      ∀ token, store.db.getToken r.tokenId = some token → token.Unused) ∧
      (p.returned = true → store.db.Spent security raw)
  pair p q := ¬ (p.returned = true ∧ q.returned = true)
  symm _ _ h hboth := h hboth.symm

section

variable {security : Security} {raw : String} {db : AuthDb} {r : Rotation}

/-- A token that is read and unused is not spent. -/
theorem Rotation.Reads.not_spent (h : r.Reads security raw db)
    (hunused : ∀ token, db.getToken r.tokenId = some token → token.Unused) :
    ¬ db.Spent security raw := by
  rintro ⟨token, hpresented, hrevoked⟩
  rw [AuthDb.presented, h.1, Option.bind_some] at hpresented
  rw [(hunused token hpresented).1] at hrevoked
  cases hrevoked

theorem Rotation.Reads.spent_commit (h : r.Reads security raw db) (later : DateTime) :
    (r.commit security later db).Spent security raw := by
  obtain ⟨hfound, token, htoken, -⟩ := h
  refine ⟨{ token with revokedAt := some r.now, rotatedTo := some db.refreshTokens.length },
    ?_, rfl⟩
  rw [AuthDb.presented, Rotation.tokenByHash_commit hfound, Option.bind_some,
    Rotation.getToken_commit (getToken_lt htoken), htoken, Option.map_some, if_pos rfl]

/-- The consumed token was the live one of its session, and the new one is now. -/
theorem Rotation.Reads.singleLive_commit (h : r.Reads security raw db)
    (hunused : ∀ token, db.getToken r.tokenId = some token → token.Unused)
    (hsingle : db.SingleLive) (later : DateTime) : (r.commit security later db).SingleLive := by
  obtain ⟨-, token, htoken, hsession⟩ := h
  have hold : r.tokenId < db.refreshTokens.length := getToken_lt htoken
  have hlive : db.Live r.token.sessionId r.tokenId :=
    ⟨token, htoken, hsession, (hunused token htoken).1⟩
  intro sessionId a b ha hb
  rcases Rotation.live_commit hold ha with ⟨rfl, hsa⟩ | ⟨hna, ha⟩
  · rcases Rotation.live_commit hold hb with ⟨rfl, -⟩ | ⟨hnb, hb⟩
    · rfl
    · exact absurd (hsingle sessionId _ _ (hsa ▸ hlive) hb) hnb
  · rcases Rotation.live_commit hold hb with ⟨rfl, hsb⟩ | ⟨-, hb⟩
    · exact absurd (hsingle sessionId _ _ (hsb ▸ hlive) ha) hna
    · exact hsingle sessionId a b ha hb

end

section

variable {security : Security} {raw : String} {store store' : RotationStore} {p p' q : Rotating}

theorem Rotating.returned_eq_false_of_held {r : Rotation} (h : p.held = some r) :
    p.returned = false := by
  cases p <;> first | rfl | cases h

theorem Rotating.ne_marked_of_locks {r : Rotation} {later : DateTime} (h : p.locks = false) :
    p ≠ .marked r later := by
  rintro rfl
  cases h

theorem Rotating.Resumed.keepsExclusive (h : Rotating.Resumed security raw store p store' p')
    (hbase : (rotationAssertion security raw).proc store p)
    (hstore : store.db.SingleLive) (hp : (exclusiveAssertion security raw).proc store p)
    (hfinds : ∀ r later, p = .marking r later → store.locked = false →
      ∀ token, store.db.getToken r.tokenId = some token → token.Unused) :
    KeepsOwn (exclusiveAssertion security raw) store' p' := by
  have hquiet : ∀ {p' : Rotating}, p'.locks = false → p'.returned = false →
      (exclusiveAssertion security raw).proc store p' := by
    intro p' hlocks hreturned
    refine ⟨fun r later hmarked => absurd hmarked (Rotating.ne_marked_of_locks hlocks),
      fun h => ?_⟩
    rw [hreturned] at h
    cases h
  cases h with
  | waits => exact ⟨hstore, hp⟩
  | raises => exact ⟨hstore, hquiet rfl rfl⟩
  | locates => exact ⟨hstore, hquiet rfl rfl⟩
  | detects => exact ⟨hstore, hquiet rfl rfl⟩
  | advances hheld hheld' hlocks hlocks' =>
      exact ⟨hstore, hquiet hlocks' (Rotating.returned_eq_false_of_held hheld')⟩
  | @marks r later hunlocked =>
      refine ⟨hstore, fun r' later' hmarked => ?_, fun h => (nomatch h)⟩
      cases hmarked
      exact hfinds r later rfl hunlocked
  | @commits r later =>
      have hreads : r.Reads security raw store.db := hbase.1 r rfl
      refine ⟨hreads.singleLive_commit (hp.1 r later rfl) hstore later, fun r' later' h => ?_,
        fun _ => hreads.spent_commit later⟩
      cases h
  | revokes => exact ⟨hstore, fun r later h => (nomatch h), fun h => (nomatch h)⟩
  | rollsBack => exact ⟨hstore, hquiet rfl rfl⟩

theorem Rotating.Resumed.keepsOtherExclusive
    (h : Rotating.Resumed security raw store p store' p')
    (hbase : (rotationAssertion security raw).proc store p)
    (hlocks : (rotationAssertion security raw).pair p q)
    (hp : (exclusiveAssertion security raw).proc store p)
    (hq : (exclusiveAssertion security raw).proc store q)
    (hpair : (exclusiveAssertion security raw).pair p q) :
    KeepsOther (exclusiveAssertion security raw) store' p' q := by
  have hidle : ∀ {p' : Rotating}, p'.returned = false →
      (exclusiveAssertion security raw).pair p' q :=
    fun hreturned hboth => by rw [hboth.1] at hreturned; cases hreturned
  cases h with
  | waits => exact ⟨hq, hpair⟩
  | raises => exact ⟨hq, hidle rfl⟩
  | locates => exact ⟨hq, hidle rfl⟩
  | detects => exact ⟨hq, hidle rfl⟩
  | advances hheld hheld' =>
      exact ⟨hq, hidle (Rotating.returned_eq_false_of_held hheld')⟩
  | marks => exact ⟨hq, hidle rfl⟩
  | @commits r later =>
      -- The token was not spent, so the other has not returned.
      have hspent : ¬ store.db.Spent security raw :=
        (hbase.1 r rfl).not_spent (hp.1 r later rfl)
      refine ⟨⟨fun r' later' hmarked => ?_, fun h => absurd (hq.2 h) hspent⟩,
        fun hboth => hspent (hq.2 hboth.2)⟩
      subst hmarked
      exact absurd ⟨rfl, rfl⟩ hlocks
  | revokes => exact ⟨hq, hidle rfl⟩
  | rollsBack => exact ⟨hq, hidle rfl⟩

end

/-- A turn that does not commit leaves the tables, and what is held was held or is read
now. -/
theorem Rotating.Resumed.held_turn {security : Security} {raw : String}
    {store store' : RotationStore} {p p' : Rotating}
    (h : Rotating.Resumed security raw store p store' p') :
    p'.returned = true ∨ (store'.db = store.db ∧ ∀ r, p'.held = some r → p.held = some r ∨
      (store.db.getToken r.tokenId = some r.token ∧ r.token.Unused)) := by
  cases h with
  | waits => exact .inr ⟨rfl, fun r hr => .inl hr⟩
  | raises => exact .inr ⟨rfl, fun r hr => (nomatch hr)⟩
  | locates hfound hrow hunused =>
      refine .inr ⟨rfl, fun r hr => ?_⟩
      cases hr
      exact .inr ⟨hrow, hunused⟩
  | detects => exact .inr ⟨rfl, fun r hr => (nomatch hr)⟩
  | advances hheld hheld' =>
      exact .inr ⟨rfl, fun r hr => .inl (hheld.trans (hheld'.symm.trans hr))⟩
  | marks => exact .inr ⟨rfl, fun r hr => .inl hr⟩
  | commits => exact .inl rfl
  | revokes => exact .inr ⟨rfl, fun r hr => (nomatch hr)⟩
  | rollsBack => exact .inr ⟨rfl, fun r hr => (nomatch hr)⟩

namespace Rotations

variable {s : Rotations} {security : Security} {raw : String} {turn : RotationTurn}

/-- What holds in the runs whose writes find the token unused. -/
structure Guarded (security : Security) (raw : String) (s : Rotations) : Prop where
  base : Holds (rotationAssertion security raw) s
  exclusive : Holds (exclusiveAssertion security raw) s

theorem Starts.not_held (h : s.Starts) {i : Nat} {p : Rotating} (hp : s.procs[i]? = some p) :
    p.held = none ∧ p.locks = false ∧ p.returned = false := by
  obtain ⟨fresh, rfl⟩ := h.requested p (List.mem_of_getElem? hp)
  exact ⟨rfl, rfl, rfl⟩

theorem Starts.guarded (h : s.Starts) : s.Guarded security raw where
  base := by
    refine ⟨trivial, fun i p hp => ?_, fun i j p q _ hp _ hboth => ?_⟩
    · obtain ⟨hheld, hlocks, -⟩ := h.not_held hp
      refine ⟨fun r hr => ?_, fun hlocked => ?_⟩
      · rw [hheld] at hr
        cases hr
      · rw [hlocks] at hlocked
        cases hlocked
    · rw [(h.not_held hp).2.1] at hboth
      cases hboth.1
  exclusive := by
    refine ⟨h.single, fun i p hp => ?_, fun i j p q _ hp _ hboth => ?_⟩
    · obtain ⟨-, hlocks, hreturned⟩ := h.not_held hp
      refine ⟨fun r later hmarked => absurd hmarked (Rotating.ne_marked_of_locks hlocks),
        fun hret => ?_⟩
      rw [hreturned] at hret
      cases hret
    · rw [(h.not_held hp).2.2] at hboth
      cases hboth.1

theorem Guarded.step (h : s.Guarded security raw) (hfinds : s.FindsUnused turn) :
    Guarded security raw (s.step security raw turn) where
  base := rotation_step turn h.base
  exclusive := by
    refine h.exclusive.step (fun p hp hown => ?_) (fun p j q hp hown hj hq hother hpair => ?_)
    · refine (resume_rotating security raw s.store turn.input p).keepsExclusive
        (h.base.proc _ p hp) h.exclusive.store hown ?_
      rintro r later rfl
      exact hfinds r later hp
    · exact (resume_rotating security raw s.store turn.input p).keepsOtherExclusive
        (h.base.proc _ p hp) (h.base.pair _ j p q (Ne.symm hj) hp hq) hown hother hpair

theorem Guarded.isExclusive (h : s.Guarded security raw) : s.Exclusive where
  returned i j p q hp hq hpreturned hqreturned := by
    by_contra hij
    exact h.exclusive.pair i j p q hij hp hq ⟨hpreturned, hqreturned⟩
  live sessionId moment a b ha hb := by
    obtain ⟨token, htoken, hsession, hopen, -⟩ := ha
    obtain ⟨token', htoken', hsession', hopen', -⟩ := hb
    exact h.exclusive.store sessionId a b ⟨token, htoken, hsession, hopen⟩
      ⟨token', htoken', hsession', hopen'⟩

/-! ## Other runs to the end -/

def AllEnded (s : Rotations) : Prop := ∀ p ∈ s.procs, ∃ result, p = .ended result

/-- Where a request has read the token unused and it is used now, one has returned. -/
structure Traced (security : Security) (raw : String) (s : Rotations) : Prop where
  base : Holds (rotationAssertion security raw) s
  used : ∀ (i : Nat) p r token, s.procs[i]? = some p → p.held = some r →
    s.store.db.getToken r.tokenId = some token → ¬ token.Unused →
    ∃ (j : Nat) (q : Rotating), s.procs[j]? = some q ∧ q.returned = true

/-- One request has returned, and another has too or is about to. -/
def Broken (s : Rotations) : Prop :=
  ∃ (i j : Nat) (p q : Rotating), i ≠ j ∧ s.procs[i]? = some p ∧ s.procs[j]? = some q ∧
    p.returned = true ∧ (q.returned = true ∨ ∃ r later, q = .marked r later)

theorem Starts.traced (h : s.Starts) : s.Traced security raw where
  base := h.guarded.base
  used i p r token hp hheld := by
    rw [(h.not_held hp).1] at hheld
    cases hheld

/-- What has returned stays so. -/
theorem returned_step {i : Nat} {p : Rotating} (hp : s.procs[i]? = some p)
    (hreturned : p.returned = true) : (s.step security raw turn).procs[i]? = some p := by
  obtain ⟨result, rfl⟩ : ∃ result, p = .ended result := by
    cases p <;> first | exact ⟨_, rfl⟩ | cases hreturned
  by_cases hi : i = turn.proc
  · subst hi
    rw [step, step_of_some hp]
    exact List.getElem?_set_self (List.getElem?_eq_some_iff.mp hp).1
  · cases hq : s.procs[turn.proc]? with
    | none =>
        rw [step, step_of_none hq]
        exact hp
    | some q =>
        rw [step, step_of_some hq]
        exact (List.getElem?_set_ne (Ne.symm hi)).trans hp

theorem Traced.step (h : s.Traced security raw) (turn : RotationTurn) :
    Traced security raw (s.step security raw turn) where
  base := rotation_step turn h.base
  used i p r token hp hheld htoken hused := by
    have hkept : (∃ (j : Nat) (q : Rotating), s.procs[j]? = some q ∧ q.returned = true) →
        ∃ (j : Nat) (q : Rotating), (s.step security raw turn).procs[j]? = some q ∧
          q.returned = true :=
      fun ⟨j, q, hq, hreturned⟩ => ⟨j, q, returned_step hq hreturned, hreturned⟩
    cases hrun : s.procs[turn.proc]? with
    | none =>
        rw [Rotations.step, step_of_none hrun] at hp htoken
        exact hkept (h.used i p r token hp hheld htoken hused)
    | some q =>
        have hresumed := resume_rotating security raw s.store turn.input q
        rcases hresumed.held_turn with hreturned | ⟨hdb, hread⟩
        · refine ⟨turn.proc, _, ?_, hreturned⟩
          rw [Rotations.step, step_of_some hrun]
          exact List.getElem?_set_self (List.getElem?_eq_some_iff.mp hrun).1
        · rw [Rotations.step, step_of_some hrun] at hp htoken
          dsimp only at hp htoken
          rw [hdb] at htoken
          refine hkept ?_
          rcases getElem?_set_some hrun hp with ⟨rfl, rfl⟩ | ⟨-, hp⟩
          · rcases hread r hheld with hheld | ⟨hrow, hunused⟩
            · exact h.used _ q r token hrun hheld htoken hused
            · rw [hrow, Option.some.injEq] at htoken
              exact absurd (htoken ▸ hunused) hused
          · exact h.used i p r token hp hheld htoken hused

/-- A write over a used token leaves a request that is about to return beside one that
has. -/
theorem broken_of_not_finds (turn : RotationTurn) (h : s.Traced security raw)
    (hnot : ¬ s.FindsUnused turn) : (s.step security raw turn).Broken := by
  unfold FindsUnused at hnot
  push Not at hnot
  obtain ⟨r, later, hp, hunlocked, token, htoken, hused⟩ := hnot
  obtain ⟨j, q, hq, hreturned⟩ := h.used _ _ r token hp rfl htoken hused
  have hj : j ≠ turn.proc := by
    rintro rfl
    rw [hp, Option.some.injEq] at hq
    subst hq
    cases hreturned
  refine ⟨j, turn.proc, q, .marked r later, hj, returned_step hq hreturned, ?_, hreturned,
    .inr ⟨r, later, rfl⟩⟩
  rw [step, step_of_some hp]
  simp only [Rotating.resume, hunlocked, Bool.false_eq_true, if_false]
  exact List.getElem?_set_self (List.getElem?_eq_some_iff.mp hp).1

/-- What is broken stays broken. -/
theorem broken_step (turn : RotationTurn) (h : s.Broken) : (s.step security raw turn).Broken := by
  obtain ⟨i, j, p, q, hij, hp, hq, hreturned, hmarked⟩ := h
  rcases hmarked with hqreturned | ⟨r, later, rfl⟩
  · exact ⟨i, j, p, q, hij, returned_step hp hreturned, returned_step hq hqreturned, hreturned,
      .inl hqreturned⟩
  · by_cases hj : turn.proc = j
    · refine ⟨i, j, p, .ended (.ok (r.issued security)), hij, returned_step hp hreturned, ?_,
        hreturned, .inl rfl⟩
      rw [step, step_of_some (hj ▸ hq), hj]
      exact List.getElem?_set_self (List.getElem?_eq_some_iff.mp hq).1
    · refine ⟨i, j, p, _, hij, returned_step hp hreturned, ?_, hreturned, .inr ⟨r, later, rfl⟩⟩
      cases hrun : s.procs[turn.proc]? with
      | none =>
          rw [step, step_of_none hrun]
          exact hq
      | some other =>
          rw [step, step_of_some hrun]
          exact (List.getElem?_set_ne hj).trans hq

theorem Exclusive.not_broken (h : s.Exclusive) (hended : s.AllEnded) : ¬ s.Broken := by
  rintro ⟨i, j, p, q, hij, hp, hq, hreturned, hqreturned | ⟨r, later, rfl⟩⟩
  · exact hij (h.returned i j p q hp hq hreturned hqreturned)
  · obtain ⟨result, hresult⟩ := hended _ (List.mem_of_getElem? hq)
    cases hresult

end Rotations

/-! ## Runs -/

/-- In every run in which the token is unused whenever a request writes it, one request
at most returns and no session has two live tokens.  Every run to the end in which that
holds is such a run. -/
theorem rotation_exclusive_iff (security : Security) (raw : String) (start : Rotations)
    (hstart : start.Starts) (turns : List RotationTurn) :
    (Run.EveryStep (Rotations.step security raw) Rotations.FindsUnused start turns →
      Run.Always (Rotations.step security raw) Rotations.Exclusive start turns) ∧
    ((Run.run (Rotations.step security raw) start turns).AllEnded →
      Run.Always (Rotations.step security raw) Rotations.Exclusive start turns →
        Run.EveryStep (Rotations.step security raw) Rotations.FindsUnused start turns) := by
  constructor
  · intro hfinds
    have hguarded : Run.Always (Rotations.step security raw) (Rotations.Guarded security raw)
        start turns :=
      Run.always_of_everyStep (fun _ _ hfinds h => h.step hfinds) turns hfinds hstart.guarded
    exact hguarded.imp fun _ h => h.isExclusive
  · intro hended halways
    have hexclusive : (Run.run (Rotations.step security raw) start turns).Exclusive :=
      halways.last
    have hkeeps : ∀ (s : Rotations) turn, s.Traced security raw →
        (s.step security raw turn).Traced security raw := fun _ turn h => h.step turn
    have hbreaks : ∀ (s : Rotations) turn, s.Traced security raw → ¬ s.FindsUnused turn →
        (s.step security raw turn).Broken :=
      fun _ turn h hnot => Rotations.broken_of_not_finds turn h hnot
    have hstays : ∀ (s : Rotations) turn, s.Traced security raw → s.Broken →
        (s.step security raw turn).Broken := fun _ turn _ h => Rotations.broken_step turn h
    exact Run.everyStep_of_not_broken hkeeps hbreaks hstays turns hstart.traced
      (hexclusive.not_broken hended)

/-! ## Two requests -/

/-- A session with one token. -/
def oneToken : List TokenCall := [.createSession 0 sampleContext 0, .issueTokens 0 0 "t1" 0]

/-- Two requests with the same token. -/
def twoRotations : Rotations where
  store := ⟨Run.run (TokenCall.step sampleSecurity) (AuthDb.initial [⟨true⟩]) oneToken, [], false⟩
  procs := [.requested "t2", .requested "t3"]

theorem twoRotations_starts : twoRotations.Starts where
  requested := by simp [twoRotations]
  single := by
    have hnew : Run.EveryStep (TokenCall.step sampleSecurity)
        (fun db call => call.OnNewSession db) (AuthDb.initial [⟨true⟩]) oneToken := by
      refine ⟨trivial, ⟨⟨_, rfl, rfl⟩, fun t ht => ?_⟩, trivial⟩
      cases ht
    exact (run_chained hnew).singleLive

/-- One after the other: the second is refused as a replay. -/
theorem second_rotation_refused :
    Run.Always (Rotations.step sampleSecurity "t1") Rotations.Exclusive twoRotations
      (List.replicate 7 ⟨0, 10⟩ ++ List.replicate 3 ⟨1, 20⟩) := by
  refine (rotation_exclusive_iff sampleSecurity "t1" twoRotations twoRotations_starts _).1 ?_
  -- The sixth turn of the first is the only one that writes the token.
  refine ⟨?_, ?_, ?_, ?_, ?_, ?_, ?_, ?_, ?_, ?_, trivial⟩ <;>
    · intro r later hmarking _ token htoken
      cases hmarking
      try
        cases htoken
        exact ⟨rfl, rfl⟩

/-- Both read the token, and then both rotate it. -/
def bothRead : List RotationTurn :=
  [⟨0, 10⟩, ⟨1, 10⟩] ++ List.replicate 6 ⟨0, 10⟩ ++ List.replicate 6 ⟨1, 10⟩

theorem rotated_twice :
    let left := Run.run (Rotations.step sampleSecurity "t1") twoRotations bothRead
    twoRotations.Starts ∧ (left.procs.map Rotating.returned) = [true, true] ∧
      left.store.db.LiveAt 0 10 1 ∧ left.store.db.LiveAt 0 10 2 ∧
      ¬ Run.Always (Rotations.step sampleSecurity "t1") Rotations.Exclusive twoRotations
        bothRead := by
  refine ⟨twoRotations_starts, rfl, ⟨_, rfl, rfl, rfl, by decide⟩, ⟨_, rfl, rfl, rfl, by decide⟩,
    fun halways => ?_⟩
  cases halways.last.returned 0 1 _ _ rfl rfl rfl rfl

end YoutubeFactory.Auth
