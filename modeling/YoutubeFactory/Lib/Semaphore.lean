import Mathlib.Data.List.Nodup
import Mathlib.Data.List.Perm.Basic

/-!
# A semaphore with a queue

`asyncio.Semaphore`.  A slot that is given back is granted to the first task in the queue that has
neither been granted one nor been cancelled.  The task only takes it once it is resumed, and may be
cancelled before, so that it leaves the slot to another one.

A slot is free, granted, or held by a task, and none of them gets lost: each operation says what
becomes of the number of slots that nobody holds (`Semaphore.spare`).  As long as a task waits, there
is a slot that somebody holds or was granted (`Sound.busy_of_pending`).
-/

/-- What has happened to the future of a task in the queue. -/
inductive Wait where
  | pending
  | granted
  | cancelled
deriving DecidableEq

/-- The queue has tickets in place of futures. -/
structure Semaphore where
  value : Nat
  waiters : List (Nat × Wait)
  nextTicket : Nat

namespace Semaphore

/-- `Semaphore(value)` -/
def init (value : Nat) : Semaphore := ⟨value, [], 0⟩

variable (s : Semaphore)

/-- `locked` -/
def locked : Bool := s.value = 0 || s.waiters.any fun w => w.2 ≠ .cancelled

/-- The first future that is not done is given a result. -/
def grantFirst : List (Nat × Wait) → Option (List (Nat × Wait))
  | [] => none
  | (ticket, .pending) :: ws => some ((ticket, .granted) :: ws)
  | w :: ws => (grantFirst ws).map (w :: ·)

/-- `_wake_up_next`, if there is anyone to wake up. -/
def wakeUpNext : Option Semaphore :=
  (grantFirst s.waiters).map fun waiters => { s with value := s.value - 1, waiters }

/-- `release` -/
def release : Semaphore :=
  let s := { s with value := s.value + 1 }
  s.wakeUpNext.getD s

/-- The loop that wakes up as many as there are slots. -/
def wakeUp : Nat → Semaphore → Semaphore
  | 0, s => s
  | n + 1, s =>
      match s.wakeUpNext with
      | none => s
      | some s => wakeUp n s

/-- `acquire`, up to where it waits.  It gives a ticket if it has to. -/
def acquire : Option Nat × Semaphore :=
  if s.locked then
    (some s.nextTicket,
      { s with
        waiters := s.waiters ++ [(s.nextTicket, .pending)]
        nextTicket := s.nextTicket + 1 })
  else (none, { s with value := s.value - 1 })

/-- How it goes on for a task in the queue. -/
inductive Woken where
  | asleep
  | acquired
  | cancelled
deriving DecidableEq

/-- The queue without a ticket. -/
def without (ticket : Nat) : Semaphore :=
  { s with waiters := s.waiters.filter fun w => w.1 ≠ ticket }

/-- A future that is not done is cancelled. -/
def cancel (ticket : Nat) : Semaphore :=
  { s with
    waiters := s.waiters.map fun w => if w = (ticket, .pending) then (ticket, .cancelled) else w }

/-- The rest of `acquire`, for a task that may have been cancelled. -/
def resume (ticket : Nat) (cancelled : Bool) : Woken × Semaphore :=
  match s.waiters.lookup ticket with
  | none => (.asleep, s)
  | some .pending => (.asleep, if cancelled then s.cancel ticket else s)
  | some .granted =>
      let s := s.without ticket
      if cancelled then (.cancelled, wakeUp (s.value + 1) { s with value := s.value + 1 })
      else (.acquired, wakeUp s.value s)
  | some .cancelled => (.cancelled, wakeUp s.value (s.without ticket))

/-! ## Slots -/

/-- How many in the queue have been granted a slot. -/
def granted : Nat := s.waiters.countP fun w => w.2 = .granted

/-- The slots that no task holds. -/
def spare : Nat := s.value + s.granted

def tickets : List Nat := s.waiters.map Prod.fst

/-- The tickets are apart, and as long as there is a free slot, whoever waits for one is preceded
by someone who will wake it up. -/
structure Sound (s : Semaphore) : Prop where
  nodup : s.tickets.Nodup
  lt : ∀ ticket ∈ s.tickets, ticket < s.nextTicket
  fair : 0 < s.value → (∃ w ∈ s.waiters, w.2 = .pending) → 0 < s.granted

variable {s : Semaphore}

theorem sound_init (value : Nat) : (init value).Sound where
  nodup := List.nodup_nil
  lt := by simp [init, tickets]
  fair := by simp [init]

/-! ## Waking up -/

theorem grantFirst_eq_none {ws : List (Nat × Wait)} (h : grantFirst ws = none) :
    ∀ w ∈ ws, w.2 ≠ .pending := by
  induction ws with
  | nil => simp
  | cons w ws ih =>
      obtain ⟨ticket, _ | _ | _⟩ := w
      · cases h
      · exact List.forall_mem_cons.mpr ⟨by simp, ih (Option.map_eq_none_iff.mp h)⟩
      · exact List.forall_mem_cons.mpr ⟨by simp, ih (Option.map_eq_none_iff.mp h)⟩

/-- One more has been granted a slot, and the tickets are the same. -/
theorem grantFirst_eq_some {ws ws' : List (Nat × Wait)} (h : grantFirst ws = some ws') :
    ws'.map Prod.fst = ws.map Prod.fst ∧
      ws'.countP (fun w => w.2 = .granted) = ws.countP (fun w => w.2 = .granted) + 1 := by
  induction ws generalizing ws' with
  | nil => cases h
  | cons w ws ih =>
      obtain ⟨ticket, _ | _ | _⟩ := w
      · cases h
        simp
      · obtain ⟨more, hmore, rfl⟩ := Option.map_eq_some_iff.mp h
        obtain ⟨htickets, hcount⟩ := ih hmore
        simp [htickets, hcount]
      · obtain ⟨more, hmore, rfl⟩ := Option.map_eq_some_iff.mp h
        obtain ⟨htickets, hcount⟩ := ih hmore
        simp [htickets, hcount]

/-- A slot goes to someone in the queue. -/
structure Grants (s s' : Semaphore) : Prop where
  spare : s'.spare = s.spare
  tickets : s'.tickets = s.tickets
  nextTicket : s'.nextTicket = s.nextTicket

theorem wakeUpNext_grants {s' : Semaphore} (hvalue : 0 < s.value) (h : s.wakeUpNext = some s') :
    Grants s s' ∧ s'.value = s.value - 1 ∧ 0 < s'.granted := by
  obtain ⟨waiters, hgrant, rfl⟩ := Option.map_eq_some_iff.mp h
  obtain ⟨htickets, hcount⟩ := grantFirst_eq_some hgrant
  refine ⟨⟨?_, htickets, rfl⟩, rfl, ?_⟩
  · show s.value - 1 + waiters.countP _ = s.value + s.waiters.countP _
    rw [hcount]
    omega
  · show 0 < waiters.countP _
    rw [hcount]
    exact Nat.succ_pos _

/-- After the loop, nobody waits in spite of a free slot. -/
theorem wakeUp_grants (n : Nat) (h : n = s.value) :
    Grants s (wakeUp n s) ∧
      (0 < (wakeUp n s).value → ∀ w ∈ (wakeUp n s).waiters, w.2 ≠ .pending) := by
  induction n generalizing s with
  | zero => exact ⟨⟨rfl, rfl, rfl⟩, fun hvalue =>
      absurd hvalue (Nat.not_lt.mpr (Nat.le_of_eq h.symm))⟩
  | succ n ih =>
      rw [wakeUp]
      cases hnext : s.wakeUpNext with
      | none => exact ⟨⟨rfl, rfl, rfl⟩, fun _ => grantFirst_eq_none (Option.map_eq_none_iff.mp hnext)⟩
      | some s' =>
          obtain ⟨hgrants, hvalue, -⟩ := wakeUpNext_grants (h ▸ Nat.succ_pos n) hnext
          obtain ⟨hrest, hfair⟩ := @ih s' (by omega)
          exact ⟨⟨hrest.spare.trans hgrants.spare, hrest.tickets.trans hgrants.tickets,
            hrest.nextTicket.trans hgrants.nextTicket⟩, hfair⟩

theorem Grants.sound {s' : Semaphore} (h : Grants s s') (hnodup : s.tickets.Nodup)
    (hlt : ∀ ticket ∈ s.tickets, ticket < s.nextTicket)
    (hfair : 0 < s'.value → (∃ w ∈ s'.waiters, w.2 = .pending) → 0 < s'.granted) : s'.Sound where
  nodup := h.tickets ▸ hnodup
  lt := by rwa [h.tickets, h.nextTicket]
  fair := hfair

/-! ## Operations -/

/-- A slot is given back. -/
theorem Sound.release (h : s.Sound) :
    s.release.Sound ∧ s.release.spare = s.spare + 1 ∧ s.release.tickets = s.tickets := by
  have hspare : Semaphore.spare { s with value := s.value + 1 } = s.spare + 1 :=
    Nat.add_right_comm ..
  rw [Semaphore.release]
  cases hnext : Semaphore.wakeUpNext { s with value := s.value + 1 } with
  | none =>
      have hnobody := grantFirst_eq_none (Option.map_eq_none_iff.mp hnext)
      refine ⟨⟨h.nodup, h.lt, fun _ hpending => ?_⟩, hspare, rfl⟩
      obtain ⟨w, hw, hpending⟩ := hpending
      exact absurd hpending (hnobody w hw)
  | some s' =>
      obtain ⟨hgrants, -, hgranted⟩ := wakeUpNext_grants (Nat.succ_pos s.value) hnext
      exact ⟨hgrants.sound h.nodup h.lt fun _ _ => hgranted, hgrants.spare.trans hspare,
        hgrants.tickets⟩

/-- A slot is taken at once. -/
theorem Sound.acquire_none {s' : Semaphore} (h : s.Sound) (hacquire : s.acquire = (none, s')) :
    s'.Sound ∧ s'.spare + 1 = s.spare ∧ s'.tickets = s.tickets := by
  rw [acquire] at hacquire
  split at hacquire
  · cases hacquire
  · next hfree =>
      cases hacquire
      rw [locked, Bool.or_eq_true, not_or, decide_eq_true_eq, List.any_eq_true] at hfree
      refine ⟨⟨h.nodup, h.lt, fun _ hpending => ?_⟩, ?_, rfl⟩
      · obtain ⟨w, hw, hpending⟩ := hpending
        exact absurd ⟨w, hw, by simp [hpending]⟩ hfree.2
      · show s.value - 1 + s.granted + 1 = s.value + s.granted
        omega

/-- A ticket is given out. -/
theorem Sound.acquire_some {s' : Semaphore} {ticket : Nat} (h : s.Sound)
    (hacquire : s.acquire = (some ticket, s')) :
    s'.Sound ∧ s'.spare = s.spare ∧ s'.tickets = s.tickets ++ [ticket] := by
  rw [acquire] at hacquire
  split at hacquire
  · next hlocked =>
      cases hacquire
      have hfresh : s.nextTicket ∉ s.tickets := fun hmem => Nat.lt_irrefl _ (h.lt _ hmem)
      have htickets : (s.waiters ++ [(s.nextTicket, Wait.pending)]).map Prod.fst =
          s.tickets ++ [s.nextTicket] := List.map_append
      have hgranted : (s.waiters ++ [(s.nextTicket, Wait.pending)]).countP
          (fun w => w.2 = .granted) = s.granted := by simp [granted]
      refine ⟨⟨?_, ?_, fun hvalue _ => ?_⟩, ?_, htickets⟩
      · rw [tickets, htickets, List.nodup_append]
        refine ⟨h.nodup, List.nodup_singleton _, fun ticket hmem other hother => ?_⟩
        rw [List.mem_singleton.mp hother]
        exact fun heq => hfresh (heq ▸ hmem)
      · intro ticket hmem
        rw [tickets, htickets, List.mem_append, List.mem_singleton] at hmem
        obtain hmem | rfl := hmem
        · exact Nat.lt_succ_of_lt (h.lt ticket hmem)
        · exact Nat.lt_succ_self _
      · -- The queue was not empty before, so that somebody in it has been granted a slot.
        have hvalue : 0 < s.value := hvalue
        rw [locked, Bool.or_eq_true, decide_eq_true_eq, List.any_eq_true] at hlocked
        obtain ⟨w, hw, hwait⟩ := hlocked.resolve_left (Nat.ne_of_gt hvalue)
        show 0 < List.countP _ _
        rw [hgranted]
        obtain ⟨t, _ | _ | _⟩ := w
        · exact h.fair hvalue ⟨_, hw, rfl⟩
        · exact List.countP_pos_iff.mpr ⟨_, hw, rfl⟩
        · simp at hwait
      · show s.value + List.countP _ _ = _
        rw [hgranted, spare]
  · cases hacquire

/-! ## Tasks in the queue -/

/-- The queue is one task and the others. -/
theorem perm_of_lookup {ws : List (Nat × Wait)} {ticket : Nat} {wait : Wait}
    (hnodup : (ws.map Prod.fst).Nodup) (h : ws.lookup ticket = some wait) :
    ws.Perm ((ticket, wait) :: ws.filter fun w => w.1 ≠ ticket) := by
  induction ws with
  | nil => cases h
  | cons w ws ih =>
      obtain ⟨t, found⟩ := w
      rw [List.map_cons, List.nodup_cons] at hnodup
      by_cases ht : t = ticket
      · subst ht
        rw [List.lookup_cons_self] at h
        cases h
        have hothers : ws.filter (fun w => w.1 ≠ t) = ws := by
          rw [List.filter_eq_self]
          intro w hw
          exact decide_eq_true fun heq => hnodup.1 (List.mem_map.mpr ⟨w, hw, heq⟩)
        rw [List.filter_cons_of_neg (by simp), hothers]
      · have hlookup : ws.lookup ticket = some wait := by
          rwa [List.lookup_cons, beq_false_of_ne (Ne.symm ht)] at h
        rw [List.filter_cons_of_pos (by simpa using ht)]
        exact ((ih hnodup.2 hlookup).cons _).trans (List.Perm.swap ..)

/-- The queue without a task. -/
theorem Sound.without (h : s.Sound) {ticket : Nat} {wait : Wait}
    (hlookup : s.waiters.lookup ticket = some wait) :
    (s.without ticket).tickets.Nodup ∧
      (∀ t ∈ (s.without ticket).tickets, t < (s.without ticket).nextTicket) ∧
      s.tickets.Perm (ticket :: (s.without ticket).tickets) ∧
      s.granted = (s.without ticket).granted + if wait = .granted then 1 else 0 := by
  have hperm := perm_of_lookup h.nodup hlookup
  have htickets : s.tickets.Perm (ticket :: (s.without ticket).tickets) :=
    hperm.map Prod.fst
  refine ⟨(List.nodup_cons.mp (htickets.nodup_iff.mp h.nodup)).2, fun t ht => ?_, htickets, ?_⟩
  · exact h.lt t (htickets.mem_iff.mpr (List.mem_cons_of_mem _ ht))
  · rw [granted, hperm.countP_eq, List.countP_cons]
    simp [granted, Semaphore.without]

/-- Whoever is resumed wakes up as many as there are slots. -/
theorem wakeUp_sound (hnodup : s.tickets.Nodup) (hlt : ∀ ticket ∈ s.tickets, ticket < s.nextTicket)
    {n : Nat} (hn : n = s.value) :
    (wakeUp n s).Sound ∧ (wakeUp n s).spare = s.spare ∧ (wakeUp n s).tickets = s.tickets := by
  obtain ⟨hgrants, hfair⟩ := wakeUp_grants n hn
  refine ⟨hgrants.sound hnodup hlt fun hvalue hpending => ?_, hgrants.spare, hgrants.tickets⟩
  obtain ⟨w, hw, hpending⟩ := hpending
  exact absurd hpending (hfair hvalue w hw)

/-- What a task finds when it is resumed. -/
inductive Resumed (s : Semaphore) (ticket : Nat) : Woken → Semaphore → Prop where
  | asleep {s'} (sound : s'.Sound) (spare : s'.spare = s.spare) (tickets : s'.tickets = s.tickets) :
      Resumed s ticket .asleep s'
  | acquired {s'} (sound : s'.Sound) (spare : s'.spare + 1 = s.spare)
      (tickets : s.tickets.Perm (ticket :: s'.tickets)) : Resumed s ticket .acquired s'
  | cancelled {s'} (sound : s'.Sound) (spare : s'.spare = s.spare)
      (tickets : s.tickets.Perm (ticket :: s'.tickets)) : Resumed s ticket .cancelled s'

theorem Sound.cancel (h : s.Sound) (ticket : Nat) :
    (s.cancel ticket).Sound ∧ (s.cancel ticket).spare = s.spare ∧
      (s.cancel ticket).tickets = s.tickets := by
  have htickets : (s.cancel ticket).tickets = s.tickets := by
    rw [tickets, Semaphore.cancel, List.map_map, tickets]
    refine List.map_congr_left fun w _ => ?_
    by_cases hw : w = (ticket, .pending)
    · simp [hw]
    · simp [hw]
  have hgranted : (s.cancel ticket).granted = s.granted := by
    rw [granted, Semaphore.cancel, List.countP_map, granted]
    refine List.countP_congr fun w _ => ?_
    by_cases hw : w = (ticket, .pending)
    · simp [hw]
    · simp [hw]
  refine ⟨⟨htickets ▸ h.nodup, htickets ▸ h.lt, fun hvalue hpending => ?_⟩, ?_, htickets⟩
  · rw [hgranted]
    refine h.fair hvalue ?_
    obtain ⟨w, hw, hpending⟩ := hpending
    obtain ⟨old, hold, rfl⟩ := List.mem_map.mp hw
    split at hpending
    · cases hpending
    · exact ⟨old, hold, hpending⟩
  · rw [spare, hgranted]
    rfl

theorem Sound.resume (h : s.Sound) (ticket : Nat) (cancelled : Bool) :
    Resumed s ticket (s.resume ticket cancelled).1 (s.resume ticket cancelled).2 := by
  rw [Semaphore.resume]
  cases hlookup : s.waiters.lookup ticket with
  | none => exact .asleep h rfl rfl
  | some wait =>
      obtain ⟨hnodup, hlt, htickets, hgranted⟩ := h.without hlookup
      cases wait with
      | pending =>
          cases cancelled with
          | false => exact .asleep h rfl rfl
          | true =>
              obtain ⟨hsound, hspare, hsame⟩ := h.cancel ticket
              exact .asleep hsound hspare hsame
      | granted =>
          have hspare : s.spare = (s.without ticket).spare + 1 := congrArg (s.value + ·) hgranted
          cases cancelled with
          | false =>
              obtain ⟨hsound, hsame, hleft⟩ := wakeUp_sound hnodup hlt rfl
              exact .acquired hsound ((congrArg (· + 1) hsame).trans hspare.symm)
                (hleft.symm ▸ htickets)
          | true =>
              have hback : Semaphore.spare { s.without ticket with
                  value := (s.without ticket).value + 1 } = (s.without ticket).spare + 1 :=
                Nat.add_right_comm ..
              obtain ⟨hsound, hsame, hleft⟩ := @wakeUp_sound
                { s.without ticket with value := (s.without ticket).value + 1 } hnodup hlt _ rfl
              exact .cancelled hsound (hsame.trans (hback.trans hspare.symm))
                (hleft.symm ▸ htickets)
      | cancelled =>
          have hspare : s.spare = (s.without ticket).spare := congrArg (s.value + ·) hgranted
          obtain ⟨hsound, hsame, hleft⟩ := wakeUp_sound hnodup hlt rfl
          exact .cancelled hsound (hsame.trans hspare.symm) (hleft.symm ▸ htickets)

/-- Whoever waits is preceded by someone with a slot. -/
theorem Sound.busy_of_pending (h : s.Sound) {held : Nat} (hslots : 0 < s.spare + held)
    (hpending : ∃ w ∈ s.waiters, w.2 = .pending) : 0 < held ∨ 0 < s.granted := by
  by_cases hvalue : 0 < s.value
  · exact .inr (h.fair hvalue hpending)
  · rw [spare] at hslots
    omega

end Semaphore
