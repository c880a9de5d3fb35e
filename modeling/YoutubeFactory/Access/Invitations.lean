import YoutubeFactory.Access.Membership

/-!
# How invitations end

`InvitationService` of `app/services/invitation.py` with what its calls have written when they
raise: `accept` marks an invitation that has expired before it refuses it.

`accept` looks at the status and `revoke` does not.  So an invitation that was accepted or has
expired can still be revoked, and nothing else moves an invitation out of its end
(`invitations_final_iff`).
-/

namespace YoutubeFactory.Access

/-! ## The calls -/

/-- `InvitationService.accept`, with what it has written, also when it raises. -/
def MembershipDb.acceptKeeping (db : MembershipDb) (settings : InvitationSettings) (token : String)
    (userId : Id) (now later : DateTime) : Except ApiError Id × MembershipDb :=
  match db.invitationByHash (settings.hashToken token) with
  | none => (.error (.validation "Invalid or already-processed invitation." []), db)
  | some invitationId =>
      match db.invitations[invitationId]? with
      | none => (.error (.validation "Invalid or already-processed invitation." []), db)
      | some invitation =>
          if invitation.status ≠ .pending then
            (.error (.validation "Invalid or already-processed invitation." []), db)
          else if invitation.expiresAt < now then
            let expired := { invitation with status := .expired }
            (.error (.validation "Invitation has expired." []),
              { db with invitations := db.invitations.set invitationId expired })
          else
            match db.access.roles[invitation.roleId]? with
            | none => (.error (.notFound "Invitation role no longer exists." []), db)
            | some role =>
                match join db.access invitation.organizationId userId role.slug with
                | .error e => (.error e, db)
                | .ok access =>
                    let accepted :=
                      { invitation with status := .accepted, acceptedAt := some later }
                    (.ok invitationId,
                      { db with access, invitations := db.invitations.set invitationId accepted })

/-- In a transaction, what it has written is kept if it returns. -/
theorem MembershipDb.accept_eq (db : MembershipDb) (settings : InvitationSettings) (token : String)
    (userId : Id) (now later : DateTime) :
    db.accept settings token userId now later =
      match db.acceptKeeping settings token userId now later with
      | (.ok id, db) => .ok (id, db)
      | (.error e, _) => .error e := by
  unfold MembershipDb.accept MembershipDb.acceptKeeping
  cases db.invitationByHash (settings.hashToken token) with
  | none => rfl
  | some id =>
      dsimp only
      cases db.invitations[id]? with
      | none => rfl
      | some i =>
          dsimp only
          by_cases hpending : i.status ≠ .pending
          · rw [if_pos hpending, if_pos hpending]
          · rw [if_neg hpending, if_neg hpending]
            by_cases hexpired : i.expiresAt < now
            · rw [if_pos hexpired, if_pos hexpired]
            · rw [if_neg hexpired, if_neg hexpired]
              cases db.access.roles[i.roleId]? with
              | none => rfl
              | some role =>
                  dsimp only
                  cases join db.access i.organizationId userId role.slug with
                  | error e => rfl
                  | ok access => rfl

inductive InvitationCall where
  | invite (organizationId invitedById : Id) (roleSlug token : String) (now : DateTime)
  | accept (token : String) (userId : Id) (now later : DateTime)
  | revoke (invitationId : Id)

/-- The tables, and the invitations of the calls of `accept` that returned. -/
structure InvitationLog where
  db : MembershipDb
  accepted : List Id

namespace InvitationLog

/-- No invitation has been made. -/
def start (access : AccessDb) (organizations : List Organization) : InvitationLog where
  db := { access, organizations, invitations := [] }
  accepted := []

/-- A call, with its writes. -/
def step (settings : InvitationSettings) (s : InvitationLog) : InvitationCall → InvitationLog
  | .invite organizationId invitedById roleSlug token now =>
      match s.db.invite settings organizationId invitedById roleSlug token now with
      | .ok (_, db) => { s with db }
      | .error _ => s
  | .accept token userId now later =>
      match s.db.acceptKeeping settings token userId now later with
      | (.ok id, db) => { db, accepted := s.accepted ++ [id] }
      | (.error _, db) => { s with db }
  | .revoke invitationId =>
      match s.db.revoke invitationId with
      | .ok ((), db) => { s with db }
      | .error _ => s

end InvitationLog

/-! ## What accepting does -/

/-- How a call of `accept` ends, and what it leaves. -/
inductive Accepting (db : MembershipDb) (userId : Id) :
    Except ApiError Id → MembershipDb → Prop where
  | refused {e : ApiError} : Accepting db userId (.error e) db
  | expired {e : ApiError} {id : Id} {i : Invitation} : db.invitations[id]? = some i →
      i.status = .pending →
      Accepting db userId (.error e)
        { db with invitations := db.invitations.set id { i with status := .expired } }
  | accepted {id : Id} {i : Invitation} {roleSlug : String} {access : AccessDb} {later : DateTime} :
      db.invitations[id]? = some i → i.status = .pending →
      MembershipDb.join db.access i.organizationId userId roleSlug = .ok access →
      Accepting db userId (.ok id)
        { db with
          access
          invitations :=
            db.invitations.set id { i with status := .accepted, acceptedAt := some later } }

section

variable {settings : InvitationSettings} {db : MembershipDb} {userId : Id} {token : String}
  {now later : DateTime}

theorem accepting :
    Accepting db userId (db.acceptKeeping settings token userId now later).1
      (db.acceptKeeping settings token userId now later).2 := by
  unfold MembershipDb.acceptKeeping
  cases db.invitationByHash (settings.hashToken token) with
  | none => exact .refused
  | some id =>
      dsimp only
      cases hrow : db.invitations[id]? with
      | none => exact .refused
      | some i =>
          dsimp only
          by_cases hpending : i.status = .pending
          · rw [if_neg (not_not.mpr hpending)]
            by_cases hexpired : i.expiresAt < now
            · rw [if_pos hexpired]
              exact .expired hrow hpending
            · rw [if_neg hexpired]
              cases db.access.roles[i.roleId]? with
              | none => exact .refused
              | some role =>
                  dsimp only
                  cases hjoin : MembershipDb.join db.access i.organizationId userId role.slug with
                  | error e => exact .refused
                  | ok access => exact .accepted hrow hpending hjoin
          · rw [if_pos hpending]
            exact .refused

/-- An invitation that has ended is refused. -/
theorem acceptKeeping_ended {id : Id} {i : Invitation}
    (hfound : db.invitationByHash (settings.hashToken token) = some id)
    (hrow : db.invitations[id]? = some i) (hended : i.status ≠ .pending) :
    db.acceptKeeping settings token userId now later =
      (.error (.validation "Invalid or already-processed invitation." []), db) := by
  unfold MembershipDb.acceptKeeping
  rw [hfound]
  dsimp only
  rw [hrow]
  exact if_pos hended

theorem getMembership_addRow (access : AccessDb) (organizationId userId roleId : Id) :
    ∃ memberId,
      (access.addRow organizationId userId roleId).getMembership organizationId userId =
        some memberId := by
  refine Option.ne_none_iff_exists'.mp fun hnone => ?_
  have hnot := List.findIdx?_eq_none_iff.mp hnone ⟨organizationId, userId, roleId, none⟩
    (List.mem_append_right _ (List.mem_singleton_self _))
  simp at hnot

/-- Who has joined is a member. -/
theorem getMembership_of_join {access access' : AccessDb} {organizationId : Id} {roleSlug : String}
    (h : MembershipDb.join access organizationId userId roleSlug = .ok access') :
    ∃ memberId, access'.getMembership organizationId userId = some memberId := by
  unfold MembershipDb.join AccessDb.addMember at h
  cases hmember : access.getMembership organizationId userId with
  | some memberId =>
      rw [hmember] at h
      cases h
      exact ⟨memberId, hmember⟩
  | none =>
      rw [hmember] at h
      dsimp only at h
      cases hrole : access.getOrgRole organizationId roleSlug with
      | none =>
          rw [hrole] at h
          cases h
      | some roleId =>
          rw [hrole] at h
          dsimp only at h
          by_cases hthere : (access.members.any fun m =>
              m.organizationId = organizationId ∧ m.userId = userId) = true
          · rw [if_pos hthere] at h
            cases h
          · rw [if_neg hthere] at h
            cases h
            exact getMembership_addRow access organizationId userId roleId

end

/-! ## How invitations end -/

namespace InvitationLog

/-- An invitation that has ended stays as it has ended. -/
def Final (s s' : InvitationLog) : Prop :=
  ∀ (id : Id) (i : Invitation), s.db.invitations[id]? = some i → i.status ≠ .pending →
    ∃ i', s'.db.invitations[id]? = some i' ∧ i'.status = i.status

/-- A call of `accept` refuses an invitation that has ended, and makes the user a member if it
returns. -/
def Answers (settings : InvitationSettings) (s : InvitationLog) : InvitationCall → Prop
  | .accept token userId now later =>
      let answer := s.db.acceptKeeping settings token userId now later
      (∀ id i, s.db.invitationByHash (settings.hashToken token) = some id →
        s.db.invitations[id]? = some i → i.status ≠ .pending →
        answer = (.error (.validation "Invalid or already-processed invitation." []), s.db)) ∧
      ∀ id, answer.1 = .ok id → ∃ i memberId, s.db.invitations[id]? = some i ∧
        answer.2.access.getMembership i.organizationId userId = some memberId
  | _ => True

/-- No invitation is accepted twice, one that has the status was accepted, and one that is pending
or has expired was not. -/
structure GrantedOnce (rows : List Invitation) (granted : List Id) : Prop where
  once : ∀ id, granted.count id ≤ 1
  accepted : ∀ (id : Id) (i : Invitation), rows[id]? = some i → i.status = .accepted →
    granted.count id = 1
  ungranted : ∀ id, (∀ i : Invitation, rows[id]? = some i →
    i.status = .pending ∨ i.status = .expired) → granted.count id = 0

/-- The call does not revoke an invitation that was accepted or has expired. -/
def Spares (s : InvitationLog) : InvitationCall → Prop
  | .revoke id => ∀ i, s.db.invitations[id]? = some i → i.deletedAt = none →
      i.status = .pending ∨ i.status = .revoked
  | _ => True

/-! ## One call -/

/-- What a call does to the invitations that does not revoke one, and the one it has accepted. -/
inductive Moves (rows : List Invitation) : List Invitation → Option Id → Prop where
  | none : Moves rows rows none
  | invited {i : Invitation} : i.status = .pending → Moves rows (rows ++ [i]) none
  | expired {id : Id} {i : Invitation} : rows[id]? = some i → i.status = .pending →
      Moves rows (rows.set id { i with status := .expired }) none
  | accepted {id : Id} {i : Invitation} {later : DateTime} : rows[id]? = some i →
      i.status = .pending →
      Moves rows (rows.set id { i with status := .accepted, acceptedAt := some later }) (some id)

variable {settings : InvitationSettings} {s : InvitationLog}

theorem moves_invite (settings : InvitationSettings) (s : InvitationLog)
    (organizationId invitedById : Id) (roleSlug token : String) (now : DateTime) :
    let s' := s.step settings (.invite organizationId invitedById roleSlug token now)
    Moves s.db.invitations s'.db.invitations none ∧ s'.accepted = s.accepted := by
  unfold step MembershipDb.invite
  dsimp only
  cases s.db.access.getOrgRole organizationId roleSlug with
  | none => exact ⟨.none, rfl⟩
  | some roleId =>
      dsimp only
      by_cases hused : (s.db.invitations.any fun i =>
          i.tokenHash = settings.hashToken token) = true
      · rw [if_pos hused]
        exact ⟨.none, rfl⟩
      · rw [if_neg hused]
        exact ⟨.invited rfl, rfl⟩

theorem moves_accept (settings : InvitationSettings) (s : InvitationLog) (token : String)
    (userId : Id) (now later : DateTime) :
    let s' := s.step settings (.accept token userId now later)
    ∃ found, Moves s.db.invitations s'.db.invitations found ∧
      s'.accepted = s.accepted ++ found.toList := by
  have haccepting := @accepting settings s.db userId token now later
  unfold step
  dsimp only
  cases hkeeps : s.db.acceptKeeping settings token userId now later with
  | mk result db =>
      rw [hkeeps] at haccepting
      cases haccepting with
      | refused => exact ⟨none, .none, (List.append_nil _).symm⟩
      | expired hrow hpending => exact ⟨none, .expired hrow hpending, (List.append_nil _).symm⟩
      | accepted hrow hpending hjoin => exact ⟨some _, .accepted hrow hpending, rfl⟩

/-- An invitation that is revoked, whatever its status was. -/
theorem step_revoke {id : Id} {i : Invitation} (hrow : s.db.invitations[id]? = some i)
    (hlive : i.deletedAt = none) : s.step settings (.revoke id) =
      { s with db := { s.db with
          invitations := s.db.invitations.set id { i with status := .revoked } } } := by
  unfold step MembershipDb.revoke
  dsimp only
  rw [hrow]
  dsimp only
  rw [hlive]
  rfl

/-- There is nothing to revoke. -/
theorem step_revoke_none {id : Id}
    (h : ∀ i, s.db.invitations[id]? = some i → i.deletedAt ≠ none) :
    s.step settings (.revoke id) = s := by
  unfold step MembershipDb.revoke
  dsimp only
  cases hrow : s.db.invitations[id]? with
  | none => rfl
  | some i =>
      dsimp only
      rw [if_pos (Option.isSome_iff_ne_none.mpr (h i hrow))]

/-- What is not pending is not moved. -/
theorem Moves.ended {rows rows' : List Invitation} {found : Option Id} (h : Moves rows rows' found)
    {id : Id} {i : Invitation} (hrow : rows[id]? = some i) (hended : i.status ≠ .pending) :
    rows'[id]? = some i := by
  cases h with
  | none => exact hrow
  | invited _ =>
      obtain ⟨hlt, -⟩ := List.getElem?_eq_some_iff.mp hrow
      rw [List.getElem?_append_left hlt]
      exact hrow
  | expired hfound hpending =>
      rw [List.getElem?_set_ne]
      · exact hrow
      · rintro rfl
        cases hrow.symm.trans hfound
        exact hended hpending
  | accepted hfound hpending =>
      rw [List.getElem?_set_ne]
      · exact hrow
      · rintro rfl
        cases hrow.symm.trans hfound
        exact hended hpending

/-- A call keeps what has ended as it is if and only if it spares it. -/
theorem final_step_iff (settings : InvitationSettings) (s : InvitationLog)
    (call : InvitationCall) : s.Final (s.step settings call) ↔ s.Spares call := by
  cases call with
  | invite organizationId invitedById roleSlug token now =>
      obtain ⟨hmoves, -⟩ :=
        moves_invite settings s organizationId invitedById roleSlug token now
      exact iff_of_true (fun id i hrow hended => ⟨i, hmoves.ended hrow hended, rfl⟩) trivial
  | accept token userId now later =>
      obtain ⟨found, hmoves, -⟩ := moves_accept settings s token userId now later
      exact iff_of_true (fun id i hrow hended => ⟨i, hmoves.ended hrow hended, rfl⟩) trivial
  | revoke id =>
      constructor
      · intro h i hrow hlive
        by_contra hspares
        obtain ⟨hpending, hrevoked⟩ := not_or.mp hspares
        obtain ⟨i', hrow', hstatus⟩ := h id i hrow hpending
        rw [step_revoke hrow hlive] at hrow'
        obtain ⟨hlt, -⟩ := List.getElem?_eq_some_iff.mp hrow
        rw [List.getElem?_set_self hlt] at hrow'
        cases hrow'
        exact hrevoked hstatus.symm
      · intro hspares id' i' hrow' hended
        by_cases hlive : ∃ i, s.db.invitations[id]? = some i ∧ i.deletedAt = none
        · obtain ⟨i, hrow, hlive⟩ := hlive
          rw [step_revoke hrow hlive]
          by_cases hid : id = id'
          · subst hid
            cases hrow.symm.trans hrow'
            obtain ⟨hlt, -⟩ := List.getElem?_eq_some_iff.mp hrow
            exact ⟨_, List.getElem?_set_self hlt,
              ((hspares _ hrow hlive).resolve_left hended).symm⟩
          · exact ⟨i', (List.getElem?_set_ne hid).trans hrow', rfl⟩
        · rw [step_revoke_none fun i hrow hnone => hlive ⟨i, hrow, hnone⟩]
          exact ⟨i', hrow', rfl⟩

theorem Final.trans {s t u : InvitationLog} (hst : s.Final t) (htu : t.Final u) : s.Final u := by
  intro id i hrow hended
  obtain ⟨i', hrow', hstatus⟩ := hst id i hrow hended
  obtain ⟨i'', hrow'', hstatus'⟩ := htu id i' hrow' (hstatus.trans_ne hended)
  exact ⟨i'', hrow'', hstatus'.trans hstatus⟩

/-- A run keeps what has ended as it is if and only if each of its calls spares it. -/
theorem evolves_final_iff {calls : List InvitationCall} :
    Run.Evolves (step settings) Final s calls ↔ Run.EveryStep (step settings) Spares s calls := by
  have hrefl : ∀ t : InvitationLog, t.Final t := fun t id i hrow _ => ⟨i, hrow, rfl⟩
  have htrans : ∀ t u v : InvitationLog, t.Final u → u.Final v → t.Final v :=
    fun _ _ _ => Final.trans
  rw [Run.evolves_iff_everyStep hrefl htrans]
  exact Run.everyStep_congr (final_step_iff settings)

theorem answers (settings : InvitationSettings) (s : InvitationLog) (call : InvitationCall) :
    s.Answers settings call := by
  cases call with
  | invite | revoke => trivial
  | accept token userId now later =>
      refine ⟨fun id i hfound hrow hended => acceptKeeping_ended hfound hrow hended,
        fun id hid => ?_⟩
      have haccepting := @accepting settings s.db userId token now later
      generalize s.db.acceptKeeping settings token userId now later = answer at hid haccepting ⊢
      obtain ⟨result, db⟩ := answer
      cases haccepting with
      | refused => cases hid
      | expired => cases hid
      | accepted hrow _ hjoin =>
          cases hid
          obtain ⟨memberId, hmember⟩ := getMembership_of_join hjoin
          exact ⟨_, memberId, hrow, hmember⟩

/-! ## Accepted once -/

section

variable {rows rows' : List Invitation} {granted granted' : List Id} {id : Id} {i i' : Invitation}

/-- One invitation is moved. -/
theorem GrantedOnce.set (h : GrantedOnce rows granted) (hrow : rows[id]? = some i)
    (hothers : ∀ id', id' ≠ id → granted'.count id' = granted.count id')
    (honce : granted'.count id ≤ 1) (haccepted : i'.status = .accepted → granted'.count id = 1)
    (hungranted : i'.status = .pending ∨ i'.status = .expired → granted'.count id = 0) :
    GrantedOnce (rows.set id i') granted' := by
  obtain ⟨hlt, -⟩ := List.getElem?_eq_some_iff.mp hrow
  refine ⟨fun id' => ?_, fun id' j hj hstatus => ?_, fun id' hopen => ?_⟩
  · by_cases hid : id' = id
    · rw [hid]
      exact honce
    · rw [hothers id' hid]
      exact h.once id'
  · by_cases hid : id' = id
    · subst hid
      rw [List.getElem?_set_self hlt] at hj
      cases hj
      exact haccepted hstatus
    · rw [List.getElem?_set_ne (Ne.symm hid)] at hj
      rw [hothers id' hid]
      exact h.accepted id' j hj hstatus
  · by_cases hid : id' = id
    · subst hid
      exact hungranted (hopen i' (List.getElem?_set_self hlt))
    · rw [hothers id' hid]
      refine h.ungranted id' fun j hj => hopen j ?_
      rw [List.getElem?_set_ne (Ne.symm hid)]
      exact hj

/-- A pending invitation was not accepted. -/
theorem GrantedOnce.count_pending (h : GrantedOnce rows granted) (hrow : rows[id]? = some i)
    (hpending : i.status = .pending) : granted.count id = 0 := by
  refine h.ungranted id fun j hj => ?_
  cases hrow.symm.trans hj
  exact .inl hpending

/-- A call that does not revoke. -/
theorem Moves.grantedOnce {found : Option Id} (hmoves : Moves rows rows' found)
    (h : GrantedOnce rows granted) : GrantedOnce rows' (granted ++ found.toList) := by
  cases hmoves with
  | none =>
      rw [Option.toList_none, List.append_nil]
      exact h
  | @invited i hpending =>
      rw [Option.toList_none, List.append_nil]
      refine ⟨h.once, fun id j hj hstatus => ?_, fun id hopen => h.ungranted id fun j hj => ?_⟩
      · rcases List.mem_append.mp (List.mem_of_getElem? hj) with _ | hnew
        · by_cases hlt : id < rows.length
          · rw [List.getElem?_append_left hlt] at hj
            exact h.accepted id j hj hstatus
          · rw [List.getElem?_append_right (Nat.not_lt.mp hlt)] at hj
            rw [List.mem_singleton.mp (List.mem_of_getElem? hj), hpending] at hstatus
            cases hstatus
        · rw [List.mem_singleton.mp hnew, hpending] at hstatus
          cases hstatus
      · obtain ⟨hlt, -⟩ := List.getElem?_eq_some_iff.mp hj
        exact hopen j ((List.getElem?_append_left hlt).trans hj)
  | expired hrow hpending =>
      rw [Option.toList_none, List.append_nil]
      exact h.set hrow (fun _ _ => rfl) (h.once _) nofun fun _ => h.count_pending hrow hpending
  | @accepted id i later hrow hpending =>
      have hcount : (granted ++ [id]).count id = 1 := by
        rw [List.count_append, h.count_pending hrow hpending, List.count_singleton_self]
      refine h.set hrow (fun id' hne => ?_) (Nat.le_of_eq hcount) (fun _ => hcount) ?_
      · rw [Option.toList_some, List.count_append, List.count_singleton, beq_eq_false_iff_ne.mpr]
        · rfl
        · exact Ne.symm hne
      · rintro (hstatus | hstatus)
        · cases hstatus
        · cases hstatus

end

theorem grantedOnce_step (settings : InvitationSettings) (s : InvitationLog)
    (call : InvitationCall) (hs : GrantedOnce s.db.invitations s.accepted) :
    GrantedOnce (s.step settings call).db.invitations (s.step settings call).accepted := by
  cases call with
  | invite organizationId invitedById roleSlug token now =>
      obtain ⟨hmoves, haccepted⟩ :=
        moves_invite settings s organizationId invitedById roleSlug token now
      rw [haccepted, ← List.append_nil s.accepted]
      exact hmoves.grantedOnce hs
  | accept token userId now later =>
      obtain ⟨found, hmoves, haccepted⟩ := moves_accept settings s token userId now later
      rw [haccepted]
      exact hmoves.grantedOnce hs
  | revoke id =>
      by_cases hlive : ∃ i, s.db.invitations[id]? = some i ∧ i.deletedAt = none
      · obtain ⟨i, hrow, hlive⟩ := hlive
        rw [step_revoke hrow hlive]
        refine hs.set hrow (fun _ _ => rfl) (hs.once id) nofun ?_
        rintro (hstatus | hstatus)
        · cases hstatus
        · cases hstatus
      · rw [step_revoke_none fun i hrow hnone => hlive ⟨i, hrow, hnone⟩]
        exact hs

/-- Invitations end once and for all, in a run whose calls revoke none that was accepted or has
expired, and in no other.  In any run, an invitation is accepted at most once. -/
theorem invitations_final_iff (settings : InvitationSettings) (access : AccessDb)
    (organizations : List Organization) (calls : List InvitationCall) :
    (Run.Evolves (step settings) Final (start access organizations) calls ∧
      Run.EveryStep (step settings) (Answers settings) (start access organizations) calls ∧
      Run.Always (step settings) (fun s => GrantedOnce s.db.invitations s.accepted)
        (start access organizations) calls) ↔
    Run.EveryStep (step settings) Spares (start access organizations) calls := by
  have hstart : GrantedOnce (start access organizations).db.invitations
      (start access organizations).accepted :=
    ⟨fun id => Nat.zero_le 1, nofun, fun _ _ => rfl⟩
  rw [evolves_final_iff]
  refine and_iff_left ⟨Run.everyStep_iff.mpr fun _ call _ _ => answers settings _ call, ?_⟩
  exact Run.always_of_invariant (grantedOnce_step settings) calls hstart

/-- The outsider accepts an invitation, and tries again. -/
def acceptedTwice : List InvitationCall :=
  [.invite 0 0 "admin" "token" 0, .accept "token" 2 60 60, .accept "token" 2 120 120]

theorem invitations_final_twice :
    Run.EveryStep (step plainSettings) Spares
        (start ownerAndAdmin.access ownerAndAdmin.organizations) acceptedTwice ∧
      Run.Evolves (step plainSettings) Final
        (start ownerAndAdmin.access ownerAndAdmin.organizations) acceptedTwice := by
  have hspares : Run.EveryStep (step plainSettings) Spares
      (start ownerAndAdmin.access ownerAndAdmin.organizations) acceptedTwice :=
    ⟨trivial, trivial, trivial, trivial⟩
  exact ⟨hspares, ((invitations_final_iff plainSettings ownerAndAdmin.access
    ownerAndAdmin.organizations acceptedTwice).mpr hspares).1⟩

/-- An invitation that was accepted is revoked, and the member stays. -/
theorem accepted_then_revoked :
    let s := Run.run (step plainSettings)
      (start ownerAndAdmin.access ownerAndAdmin.organizations)
      [.invite 0 0 "admin" "token" 0, .accept "token" 2 60 60]
    s.db.invitations.map Invitation.status = [.accepted] ∧
      (s.step plainSettings (.revoke 0)).db.invitations.map Invitation.status = [.revoked] ∧
      (s.step plainSettings (.revoke 0)).db.access.getMembership 0 2 = some 2 ∧
      ¬ Run.Evolves (step plainSettings) Final
        (start ownerAndAdmin.access ownerAndAdmin.organizations)
        [.invite 0 0 "admin" "token" 0, .accept "token" 2 60 60, .revoke 0] := by
  refine ⟨by decide, by decide, by decide, fun hevolves => ?_⟩
  obtain ⟨-, -, hspares, -⟩ := evolves_final_iff.mp hevolves
  rcases hspares _ rfl rfl with hpending | hrevoked
  · cases hpending
  · cases hrevoked

end InvitationLog

end YoutubeFactory.Access
