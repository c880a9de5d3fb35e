import YoutubeFactory.Webhooks.Deliveries
import Mathlib.Data.List.Induction
import Mathlib.Order.Nat

/-!
# The schedule of a delivery

The law of a delivery: a delivered one stays delivered, an exhausted one is not scheduled again, a
retry is set while it is failed, the k-th failure waits the k-th delay, and the failure that uses up
the schedule exhausts it.

A failure is counted before its delay is looked up, and it is recorded whatever the status is.
-/

namespace YoutubeFactory.Webhooks

open DeliveryCall

section

variable {Payload : Type}

/-! ## The law -/

/-- The deliveries that are delivered stay so. -/
def StaysDelivered (db db' : WebhookDb Payload) : Prop :=
  ∀ (id : Id) d, db.deliveries[id]? = some d → d.status = .delivered →
    ∃ d', db'.deliveries[id]? = some d' ∧ d'.status = .delivered

/-- The deliveries that are exhausted are not scheduled. -/
def NotScheduled (db db' : WebhookDb Payload) : Prop :=
  ∀ (id : Id) d, db.deliveries[id]? = some d → d.status = .exhausted →
    ∃ d', db'.deliveries[id]? = some d' ∧ d'.nextRetryAt = none

def RetrySet (db : WebhookDb Payload) : Prop :=
  ∀ (id : Id) d, db.deliveries[id]? = some d →
    (d.nextRetryAt.isSome = true ↔ d.status = .failed)

/-- The `k`-th failure of a delivery waits the `k`-th delay, for `k` less than the length of the
schedule, and the one that brings the attempts to that length exhausts it. -/
def Waits (schedule : List Int) (db : WebhookDb Payload) (calls : List DeliveryCall) : Prop :=
  ∀ earlier later id error responseStatus now after,
    calls = earlier ++ .recordFailure id error responseStatus now after :: later →
    ∀ d, (Run.run (DeliveryCall.step schedule) db
        (earlier ++ [.recordFailure id error responseStatus now after])).deliveries[id]? =
          some d →
      let k := earlier.countP (fails id) + 1
      (k < schedule.length → d.nextRetryAt = schedule[k - 1]?.map (now + ·)) ∧
        (d.attempt = schedule.length → d.status = .exhausted)

structure FollowsSchedule (schedule : List Int) (db : WebhookDb Payload)
    (calls : List DeliveryCall) : Prop where
  delivered : Run.Evolves (DeliveryCall.step schedule) StaysDelivered db calls
  exhausted : Run.Evolves (DeliveryCall.step schedule) NotScheduled db calls
  retrySet : Run.Always (DeliveryCall.step schedule) RetrySet db calls
  waits : Waits schedule db calls

/-- A failure is reported of a delivery that is not delivered. -/
def FindsOpen (db : WebhookDb Payload) : DeliveryCall → Prop
  | .recordSuccess .. => True
  | .recordFailure id .. => ∀ d ∈ db.deliveries[id]?, d.status ≠ .delivered

/-- Besides, the delay that is looked up is the one before it in the schedule. -/
def InStep (schedule : List Int) (db : WebhookDb Payload) (call : DeliveryCall) : Prop :=
  FindsOpen db call ∧ ∀ id, call.fails id = true → ∀ d ∈ db.deliveries[id]?,
    d.attempt + 1 < schedule.length → schedule[d.attempt + 1]? = schedule[d.attempt]?

/-! ## What every call keeps -/

/-- The status, the attempts and the retry of a row agree. -/
structure WebhookDelivery.Sound (schedule : List Int) (d : WebhookDelivery Payload) : Prop where
  retry : d.nextRetryAt.isSome = true ↔ d.status = .failed
  failed : d.status = .failed → d.attempt < schedule.length
  exhausted : d.status = .exhausted → schedule.length ≤ d.attempt

variable {schedule : List Int} {db : WebhookDb Payload} {id : Id} {d : WebhookDelivery Payload}

theorem fail_attempt (error : String) (responseStatus : Option Int) (now : DateTime) :
    (d.fail schedule error responseStatus now).attempt = d.attempt + 1 := by
  unfold WebhookDelivery.fail
  dsimp only
  split <;> rfl

theorem fail_of_lt {error : String} {responseStatus : Option Int} {now : DateTime}
    (h : d.attempt + 1 < schedule.length) :
    (d.fail schedule error responseStatus now).status = .failed ∧
      (d.fail schedule error responseStatus now).nextRetryAt =
        some (now + schedule[d.attempt + 1]) := by
  unfold WebhookDelivery.fail
  dsimp only
  rw [dif_pos h]
  exact ⟨rfl, rfl⟩

theorem fail_of_le {error : String} {responseStatus : Option Int} {now : DateTime}
    (h : schedule.length ≤ d.attempt + 1) :
    (d.fail schedule error responseStatus now).status = .exhausted ∧
      (d.fail schedule error responseStatus now).nextRetryAt = none := by
  unfold WebhookDelivery.fail
  dsimp only
  rw [dif_neg (Nat.not_lt.mpr h)]
  exact ⟨rfl, rfl⟩

theorem fail_status_ne (error : String) (responseStatus : Option Int) (now : DateTime) :
    (d.fail schedule error responseStatus now).status ≠ .delivered := by
  intro hdelivered
  rcases Nat.lt_or_ge (d.attempt + 1) schedule.length with hlt | hle
  · rw [(fail_of_lt hlt).1] at hdelivered
    cases hdelivered
  · rw [(fail_of_le hle).1] at hdelivered
    cases hdelivered

theorem WebhookDelivery.sound_enqueued (webhookId : Id) (eventType : String)
    (payload : Payload) :
    (WebhookDelivery.enqueued webhookId eventType payload).Sound schedule where
  retry := iff_of_false nofun nofun
  failed := nofun
  exhausted := nofun

theorem WebhookDelivery.Sound.effect (h : d.Sound schedule) (call : DeliveryCall) :
    (call.effect schedule id d).Sound schedule := by
  cases call with
  | recordSuccess id' responseStatus body now =>
      rw [DeliveryCall.effect]
      split
      · exact ⟨iff_of_false nofun nofun, nofun, nofun⟩
      · exact h
  | recordFailure id' error responseStatus now after =>
      rw [DeliveryCall.effect]
      split
      · rcases Nat.lt_or_ge (d.attempt + 1) schedule.length with hlt | hle
        · obtain ⟨hstatus, hretry⟩ := @fail_of_lt _ _ d error responseStatus now hlt
          refine ⟨?_, fun _ => ?_, fun hexhausted => ?_⟩
          · rw [hstatus, hretry]
            exact iff_of_true rfl rfl
          · rw [fail_attempt]
            exact hlt
          · rw [hstatus] at hexhausted
            cases hexhausted
        · obtain ⟨hstatus, hretry⟩ := @fail_of_le _ _ d error responseStatus now hle
          refine ⟨?_, fun hfailed => ?_, fun _ => ?_⟩
          · rw [hstatus, hretry]
            exact iff_of_false nofun nofun
          · rw [hstatus] at hfailed
            cases hfailed
          · rw [fail_attempt]
            exact hle
      · exact h

/-- No call takes an attempt back. -/
theorem attempt_le_effect (call : DeliveryCall) :
    d.attempt ≤ (call.effect schedule id d).attempt := by
  cases call with
  | recordSuccess =>
      rw [DeliveryCall.effect]
      split
      · exact Nat.le_succ _
      · exact le_rfl
  | recordFailure =>
      rw [DeliveryCall.effect]
      split
      · rw [fail_attempt]
        exact Nat.le_succ _
      · exact le_rfl

def SoundDb (schedule : List Int) (db : WebhookDb Payload) : Prop :=
  ∀ (id : Id) d, db.deliveries[id]? = some d → d.Sound schedule

theorem SoundDb.step (h : SoundDb schedule db) (call : DeliveryCall) :
    SoundDb schedule (call.step schedule db) := by
  intro id d hd
  obtain ⟨before, hbefore, rfl⟩ := of_step_getElem? call hd
  exact (h id before hbefore).effect call

theorem soundDb_afterEvents (webhooks : List Webhook) (events : List (Id × String × Payload)) :
    SoundDb schedule (WebhookDb.afterEvents webhooks events) := by
  intro id d hd
  obtain ⟨webhookId, eventType, payload, rfl⟩ := mem_afterEvents (List.mem_of_getElem? hd)
  exact WebhookDelivery.sound_enqueued webhookId eventType payload

/-! ## The parts of the law that every run keeps -/

theorem retrySet_of_sound (calls : List DeliveryCall) (h : SoundDb schedule db) :
    Run.Always (DeliveryCall.step schedule) RetrySet db calls :=
  have hsound : Run.Always (DeliveryCall.step schedule) (SoundDb schedule) db calls :=
    Run.always_of_invariant (fun _ call h => h.step call) calls h
  hsound.imp fun _ h id d hd => (h id d hd).retry

/-- The attempts of a delivery have used up the schedule. -/
def UsedUp (schedule : List Int) (id : Id) (db : WebhookDb Payload) : Prop :=
  ∃ d, db.deliveries[id]? = some d ∧ schedule.length ≤ d.attempt

theorem UsedUp.step (h : UsedUp schedule id db) (call : DeliveryCall) :
    UsedUp schedule id (call.step schedule db) := by
  obtain ⟨d, hd, hle⟩ := h
  exact ⟨_, step_getElem? call hd, hle.trans (attempt_le_effect call)⟩

theorem exhausted_of_sound (calls : List DeliveryCall) (h : SoundDb schedule db) :
    Run.Evolves (DeliveryCall.step schedule) NotScheduled db calls := by
  rintro earlier between later rfl id d hd hexhausted
  have hsound : ∀ calls, SoundDb schedule (Run.run (DeliveryCall.step schedule) db calls) :=
    fun calls => @Run.run_invariant _ _ _ (SoundDb schedule) (fun _ call h => h.step call) calls _ h
  have hused : UsedUp schedule id (Run.run (DeliveryCall.step schedule) db earlier) :=
    ⟨d, hd, (hsound earlier id d hd).exhausted hexhausted⟩
  obtain ⟨d', hd', hle⟩ : UsedUp schedule id
      (Run.run (DeliveryCall.step schedule) db (earlier ++ between)) := by
    rw [Run.run_append]
    exact @Run.run_invariant _ _ _ (UsedUp schedule id) (fun _ call h => h.step call) between _
      hused
  have hsound' := hsound _ id d' hd'
  refine ⟨d', hd', Option.not_isSome_iff_eq_none.mp fun hsome => ?_⟩
  exact absurd (hsound'.failed (hsound'.retry.mp hsome)) (Nat.not_lt.mpr hle)

/-! ## The parts that depend on the calls -/

theorem staysDelivered_step_iff (call : DeliveryCall) :
    StaysDelivered db (call.step schedule db) ↔ FindsOpen db call := by
  constructor
  · intro h
    cases call with
    | recordSuccess => exact trivial
    | recordFailure id error responseStatus now after =>
        intro d hd hdelivered
        obtain ⟨d', hd', hdelivered'⟩ := h id d hd hdelivered
        rw [step_getElem? _ hd, effect, if_pos rfl, Option.some.injEq] at hd'
        subst hd'
        exact fail_status_ne error responseStatus now hdelivered'
  · intro h id d hd hdelivered
    refine ⟨_, step_getElem? call hd, ?_⟩
    cases call with
    | recordSuccess =>
        rw [effect]
        split
        · rfl
        · exact hdelivered
    | recordFailure id' error responseStatus now after =>
        have hother : id' ≠ id := by
          rintro rfl
          exact h d hd hdelivered
        rw [effect, if_neg hother]
        exact hdelivered

theorem StaysDelivered.trans {db' db'' : WebhookDb Payload} (h : StaysDelivered db db')
    (h' : StaysDelivered db' db'') : StaysDelivered db db'' := by
  intro id d hd hdelivered
  obtain ⟨d', hd', hdelivered'⟩ := h id d hd hdelivered
  exact h' id d' hd' hdelivered'

theorem delivered_iff (calls : List DeliveryCall) :
    Run.Evolves (DeliveryCall.step schedule) StaysDelivered db calls ↔
      Run.EveryStep (DeliveryCall.step schedule) FindsOpen db calls :=
  (@Run.evolves_iff_everyStep _ _ _ StaysDelivered
    (fun _ _ d hd hdelivered => ⟨d, hd, hdelivered⟩) (fun _ _ _ => StaysDelivered.trans) _ _).trans
      (Run.everyStep_congr fun _ call => staysDelivered_step_iff call)

/-- As long as no failure is reported of a delivered one, the attempts are the failures. -/
theorem attempt_eq_countP {webhooks : List Webhook} {events : List (Id × String × Payload)}
    (calls : List DeliveryCall) :
    Run.EveryStep (DeliveryCall.step schedule) FindsOpen
      (WebhookDb.afterEvents webhooks events) calls →
    ∀ d, (Run.run (DeliveryCall.step schedule) (WebhookDb.afterEvents webhooks events)
        calls).deliveries[id]? = some d →
      d.status ≠ .delivered → d.attempt = calls.countP (fails id) := by
  induction calls using List.reverseRecOn with
  | nil =>
      intro _ d hd _
      obtain ⟨webhookId, eventType, payload, rfl⟩ := mem_afterEvents (List.mem_of_getElem? hd)
      rfl
  | append_singleton calls call ih =>
      intro hopen d hd hstatus
      obtain ⟨hcalls, hcall, -⟩ := Run.everyStep_append.mp hopen
      rw [Run.run_append] at hd
      obtain ⟨before, hbefore, rfl⟩ := of_step_getElem? call hd
      rw [List.countP_append, List.countP_singleton]
      cases call with
      | recordSuccess id' responseStatus body now =>
          rw [effect] at hstatus ⊢
          split at hstatus
          · exact absurd rfl hstatus
          · next hother =>
              rw [if_neg hother]
              exact ih hcalls before hbefore hstatus
      | recordFailure id' error responseStatus now after =>
          by_cases hid : id' = id
          · subst hid
            have hcount := ih hcalls before hbefore (hcall before hbefore)
            rw [effect, if_pos rfl, fail_attempt, hcount]
            simp [fails]
          · rw [effect, if_neg hid] at hstatus ⊢
            simpa [fails, hid] using ih hcalls before hbefore hstatus

/-- With the attempts counted, a failure waits as it should if the schedule repeats the delay. -/
theorem waits_iff {webhooks : List Webhook} {events : List (Id × String × Payload)}
    {calls : List DeliveryCall}
    (hopen : Run.EveryStep (DeliveryCall.step schedule) FindsOpen
      (WebhookDb.afterEvents webhooks events) calls) :
    Waits schedule (WebhookDb.afterEvents webhooks events) calls ↔
      Run.EveryStep (DeliveryCall.step schedule) (InStep schedule)
        (WebhookDb.afterEvents webhooks events) calls := by
  have hcounted : ∀ earlier id error responseStatus now after later,
      calls = earlier ++ .recordFailure id error responseStatus now after :: later →
      ∀ d, (Run.run (DeliveryCall.step schedule) (WebhookDb.afterEvents webhooks events)
        earlier).deliveries[id]? = some d → d.attempt = earlier.countP (fails id) := by
    rintro earlier id error responseStatus now after later rfl d hd
    obtain ⟨hearlier, hcall, -⟩ := Run.everyStep_append.mp hopen
    exact attempt_eq_countP earlier hearlier d hd (hcall d hd)
  rw [Run.everyStep_iff]
  constructor
  · intro hwaits earlier call later hsplit
    refine ⟨Run.everyStep_iff.mp hopen earlier call later hsplit, ?_⟩
    cases call with
    | recordSuccess => exact nofun
    | recordFailure id error responseStatus now after =>
        intro id' hid' d hd hlt
        obtain rfl : id = id' := of_decide_eq_true hid'
        have hcount := hcounted earlier id error responseStatus now after later hsplit d hd
        have hrow : (Run.run (DeliveryCall.step schedule) (WebhookDb.afterEvents webhooks events)
            (earlier ++ [.recordFailure id error responseStatus now after])).deliveries[id]? =
              some (d.fail schedule error responseStatus now) := by
          rw [Run.run_append]
          exact (step_getElem? _ hd).trans (congrArg some (if_pos rfl))
        have hdelay := (hwaits earlier later id error responseStatus now after hsplit _ hrow).1
        rw [← hcount, Nat.add_sub_cancel,
          List.getElem?_eq_getElem (Nat.lt_of_succ_lt hlt), Option.map_some] at hdelay
        have hsame := (fail_of_lt hlt).2.symm.trans (hdelay hlt)
        rw [List.getElem?_eq_getElem hlt, List.getElem?_eq_getElem (Nat.lt_of_succ_lt hlt)]
        exact congrArg some (Int.add_left_cancel (Option.some.inj hsame))
  · rintro hin earlier later id error responseStatus now after hsplit d' hd'
    rw [Run.run_append] at hd'
    obtain ⟨d, hd, rfl⟩ := of_step_getElem? _ hd'
    have hcount := hcounted earlier id error responseStatus now after later hsplit d hd
    rw [effect, if_pos rfl, ← hcount]
    refine ⟨fun hlt => ?_, fun hfull => ?_⟩
    · have hsame := (hin earlier _ later hsplit).2 id (decide_eq_true rfl) d hd hlt
      rw [Nat.add_sub_cancel, ← hsame, List.getElem?_eq_getElem hlt, (fail_of_lt hlt).2]
      rfl
    · rw [fail_attempt] at hfull
      exact (fail_of_le hfull.ge).1

/-- The deliveries of some events follow the schedule in the runs in which no failure is reported
of a delivered one, and each failure finds a delay that is the same as the one before it, and in
no others. -/
theorem follows_schedule_iff (schedule : List Int) (webhooks : List Webhook)
    (events : List (Id × String × Payload)) (calls : List DeliveryCall) :
    FollowsSchedule schedule (WebhookDb.afterEvents webhooks events) calls ↔
      Run.EveryStep (DeliveryCall.step schedule) (InStep schedule)
        (WebhookDb.afterEvents webhooks events) calls := by
  have hsound : SoundDb schedule (WebhookDb.afterEvents webhooks events) :=
    soundDb_afterEvents webhooks events
  constructor
  · intro h
    exact (waits_iff ((delivered_iff calls).mp h.delivered)).mp h.waits
  · intro hin
    have hopen : Run.EveryStep (DeliveryCall.step schedule) FindsOpen
        (WebhookDb.afterEvents webhooks events) calls :=
      Run.everyStep_iff.mpr fun earlier call later hsplit =>
        (Run.everyStep_iff.mp hin earlier call later hsplit).1
    exact
      { delivered := (delivered_iff calls).mpr hopen
        exhausted := exhausted_of_sound calls hsound
        retrySet := retrySet_of_sound calls hsound
        waits := (waits_iff hopen).mpr hin }

end

/-- The first failure waits 300 seconds, and the schedule begins with 60. -/
theorem first_delay_skipped :
    ¬ FollowsSchedule RETRY_BACKOFF_SECONDS
      (WebhookDb.afterEvents [⟨0, ["*"], true, 0, none, none, none⟩] [(0, "video.ready", "{}")])
      [.recordFailure 0 "timeout" none 1000 1000] := by
  intro h
  have hwaits := (h.waits [] [] 0 "timeout" none 1000 1000 rfl _ rfl).1
    (by decide : 1 < RETRY_BACKOFF_SECONDS.length)
  revert hwaits
  decide

end YoutubeFactory.Webhooks
