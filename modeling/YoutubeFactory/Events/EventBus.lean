import YoutubeFactory.Lib.Interleaving
import YoutubeFactory.Lib.OrderedMap
import Mathlib.Algebra.Order.Group.Multiset
import Mathlib.Data.List.Induction
import Mathlib.Tactic.Abel

/-!
# The event bus

`EventBus` of `app/core/events/bus.py`.  `publish` starts a delivery for each handler of the
event's type and gathers them, so the deliveries take turns.  In a turn the handler's
attempt ends and the delivery goes on to its next one, or to its own end.  The list of dead
letters is all they share, with each other and with whatever else is published meanwhile.

An attempt returns, or it raises an `Exception`, which `_deliver` catches.  It may also raise
another `BaseException`, a cancellation or an exit of the interpreter.  That is not caught,
and `gather` passes it on.
-/

namespace YoutubeFactory.Events

open Interleaving

variable {E T : Type}

/-! ## The code -/

/-- A handler, with its `__name__` or its `repr`. -/
structure Handler where
  id : Nat
  name : String
deriving DecidableEq, Repr

structure DeadLetter (E : Type) where
  event : E
  handler : String
  error : String
deriving DecidableEq, Repr

structure EventBus (E T : Type) where
  handlers : OrderedMap T (List Handler)
  maxRetries : Int
  deadLetters : List (DeadLetter E)

/-- How an attempt of a handler ends. -/
inductive Outcome where
  | returned
  | failed (error : String)
  | exited (error : String)
deriving DecidableEq, Repr

/-- How a delivery ends. -/
inductive Ending (E : Type) where
  | delivered
  | dead (letter : DeadLetter E)
  | raised (error : String)
deriving DecidableEq, Repr

/-- A `_deliver` that runs or has ended.  `calls` is how its calls of the handler have ended. -/
structure Delivery (E : Type) where
  handler : Handler
  attempt : Nat
  calls : List Outcome
  ending : Option (Ending E)
deriving DecidableEq, Repr

section

variable [DecidableEq T]

/-- `subscribe` -/
def EventBus.subscribe (bus : EventBus E T) (eventType : T) (handler : Handler) :
    EventBus E T :=
  { bus with handlers :=
      bus.handlers.set eventType ((bus.handlers.get? eventType).getD [] ++ [handler]) }

/-- `self._handlers.get(type(event), [])` -/
def EventBus.handlersFor (bus : EventBus E T) (typeOf : E → T) (event : E) : List Handler :=
  (bus.handlers.get? (typeOf event)).getD []

end

def Delivery.start (handler : Handler) : Delivery E :=
  { handler, attempt := 0, calls := [], ending := none }

/-- `_deliver` from the end of an attempt on. -/
def Delivery.attempted (maxRetries : Int) (event : E) (outcome : Outcome) (d : Delivery E) :
    Delivery E :=
  let d := { d with calls := d.calls ++ [outcome] }
  match outcome with
  | .returned => { d with ending := some .delivered }
  | .exited error => { d with ending := some (.raised error) }
  | .failed error =>
      let d := { d with attempt := d.attempt + 1 }
      if (d.attempt : Int) > maxRetries then
        { d with ending := some (.dead ⟨event, d.handler.name, error⟩) }
      else d

/-- A delivery that has ended has no attempts. -/
def Delivery.next (maxRetries : Int) (event : E) (d : Delivery E) (outcome : Outcome) :
    Delivery E :=
  match d.ending with
  | none => d.attempted maxRetries event outcome
  | some _ => d

def Delivery.letter? (d : Delivery E) : Option (DeadLetter E) :=
  match d.ending with
  | some (.dead letter) => some letter
  | _ => none

/-- What a turn brings: the letters that others have added meanwhile, and the end of the
attempt. -/
structure Input (E : Type) where
  meanwhile : List (DeadLetter E)
  outcome : Outcome

/-- A turn of a delivery. -/
def resume (maxRetries : Int) (event : E) (letters : List (DeadLetter E)) (input : Input E)
    (d : Delivery E) : List (DeadLetter E) × Delivery E :=
  let d' := d.next maxRetries event input.outcome
  let added := if d.ending = none then d'.letter?.toList else []
  (letters ++ input.meanwhile ++ added, d')

/-- `publish` after some turns of its deliveries. -/
def EventBus.publish [DecidableEq T] (bus : EventBus E T) (typeOf : E → T) (event : E)
    (turns : List (Turn (Input E))) : System (List (DeadLetter E)) (Delivery E) :=
  Run.run (step (resume bus.maxRetries event))
    ⟨bus.deadLetters, (bus.handlersFor typeOf event).map Delivery.start⟩ turns

/-- What `gather` gives: an exception as soon as one of them raises, and a result when all have
ended. -/
def gathered (deliveries : List (Delivery E)) : Option (Except String Unit) :=
  match deliveries.findSome? fun d =>
      match d.ending with
      | some (.raised error) => some error
      | _ => none with
  | some error => some (.error error)
  | none => if deliveries.all fun d => d.ending.isSome then some (.ok ()) else none

/-! ## One delivery -/

/-- An outcome that `_deliver` handles. -/
def Outcome.Handled (outcome : Outcome) : Prop := ∀ error, outcome ≠ .exited error

/-- How a delivery stands, by the calls it has made: it runs after failures that it may repeat,
or it has ended with its one success, or with one failure more and its one dead letter. -/
inductive Accounted (maxRetries : Int) (event : E) : Delivery E → Prop
  | running (handler : Handler) (errors : List String) (h : errors.length ≤ maxRetries.toNat) :
      Accounted maxRetries event ⟨handler, errors.length, errors.map .failed, none⟩
  | delivered (handler : Handler) (errors : List String)
      (h : errors.length ≤ maxRetries.toNat) :
      Accounted maxRetries event
        ⟨handler, errors.length, errors.map .failed ++ [.returned], some .delivered⟩
  | dead (handler : Handler) (errors : List String) (error : String)
      (h : errors.length = maxRetries.toNat) :
      Accounted maxRetries event
        ⟨handler, errors.length + 1, (errors ++ [error]).map .failed,
          some (.dead ⟨event, handler.name, error⟩)⟩

section

variable {maxRetries : Int} {event : E} {d : Delivery E} {outcome : Outcome}

theorem Accounted.next (h : Accounted maxRetries event d) (hhandled : outcome.Handled) :
    Accounted maxRetries event (d.next maxRetries event outcome) := by
  cases h with
  | delivered handler errors h => exact .delivered handler errors h
  | dead handler errors error h => exact .dead handler errors error h
  | running handler errors h =>
      cases outcome with
      | returned => exact .delivered handler errors h
      | exited error => exact absurd rfl (hhandled error)
      | failed error =>
          by_cases hlast : ((errors.length + 1 : Nat) : Int) > maxRetries
          · have hnext : (Delivery.mk handler errors.length (errors.map .failed) none).next
                maxRetries event (.failed error) =
                ⟨handler, errors.length + 1, (errors ++ [error]).map .failed,
                  some (.dead ⟨event, handler.name, error⟩)⟩ := by
              simp only [Delivery.next, Delivery.attempted]
              rw [if_pos hlast, List.map_append]
              rfl
            rw [hnext]
            exact .dead handler errors error (by omega)
          · have hnext : (Delivery.mk handler errors.length (errors.map .failed) none).next
                maxRetries event (.failed error) =
                ⟨handler, (errors ++ [error]).length, (errors ++ [error]).map .failed, none⟩ := by
              simp only [Delivery.next, Delivery.attempted]
              rw [if_neg hlast, List.map_append, List.length_append]
              rfl
            rw [hnext]
            refine .running handler (errors ++ [error]) ?_
            rw [List.length_append, List.length_singleton]
            omega

theorem Accounted.length_calls (h : Accounted maxRetries event d) :
    d.calls.length ≤ maxRetries.toNat + 1 := by
  cases h with
  | running handler errors h => simp; omega
  | delivered handler errors h => simp; omega
  | dead handler errors error h => simp; omega

/-- A delivery that runs has calls left. -/
theorem Accounted.length_of_running (h : Accounted maxRetries event d) (hrun : d.ending = none) :
    d.calls.length ≤ maxRetries.toNat := by
  cases h with
  | running handler errors h => simpa using h
  | delivered handler errors h => cases hrun
  | dead handler errors error h => cases hrun

theorem Accounted.not_raised (h : Accounted maxRetries event d) (error : String) :
    d.ending ≠ some (.raised error) := by
  cases h with
  | running handler errors h => exact fun hraised => by cases hraised
  | delivered handler errors h => exact fun hraised => by cases hraised
  | dead handler errors error h => exact fun hraised => by cases hraised

theorem next_of_ended (h : d.ending ≠ none) (outcome : Outcome) :
    d.next maxRetries event outcome = d := by
  cases hending : d.ending with
  | none => exact absurd hending h
  | some ending => rw [Delivery.next, hending]

theorem calls_next_of_running (h : d.ending = none) (outcome : Outcome) :
    (d.next maxRetries event outcome).calls = d.calls ++ [outcome] := by
  rw [Delivery.next, h]
  cases outcome with
  | returned => rfl
  | exited error => rfl
  | failed error =>
      simp only [Delivery.attempted]
      split
      · rfl
      · rfl

/-- What a delivery has done with the outcomes of its attempts: it has taken them in order, all
of them while it runs. -/
structure Took (outcomes : List Outcome) (d : Delivery E) : Prop where
  calls : d.calls <+: outcomes
  all : d.ending = none → d.calls = outcomes

theorem Took.next {outcomes : List Outcome} (h : Took outcomes d) (outcome : Outcome) :
    Took (outcomes ++ [outcome]) (d.next maxRetries event outcome) := by
  by_cases hrun : d.ending = none
  · have hcalls : (d.next maxRetries event outcome).calls = outcomes ++ [outcome] := by
      rw [calls_next_of_running hrun, h.all hrun]
    exact ⟨hcalls ▸ List.prefix_rfl, fun _ => hcalls⟩
  · rw [next_of_ended hrun]
    exact ⟨h.calls.trans (List.prefix_append _ _), fun hnone => absurd hnone hrun⟩

end

/-! ## All deliveries -/

/-- How the attempts of a delivery have ended. -/
def outcomesOf (i : Nat) (turns : List (Turn (Input E))) : List Outcome :=
  (inputsOf i turns).map (·.outcome)

/-- What others have added during the turns of the deliveries. -/
def meanwhile (n : Nat) (turns : List (Turn (Input E))) : List (DeadLetter E) :=
  (turns.filter fun turn => turn.proc < n).flatMap (·.input.meanwhile)

section

variable {maxRetries : Int} {event : E} {s : System (List (DeadLetter E)) (Delivery E)}

/-- A turn: the letters that are new, from others or from the delivery. -/
theorem letters_step (turn : Turn (Input E)) :
    ((step (resume maxRetries event) s turn).store : Multiset (DeadLetter E)) +
        s.procs.filterMap Delivery.letter? =
      s.store + meanwhile s.procs.length [turn] +
        (step (resume maxRetries event) s turn).procs.filterMap Delivery.letter? := by
  cases hp : s.procs[turn.proc]? with
  | none =>
      have hnot : ¬ turn.proc < s.procs.length := fun hlt => by
        rw [List.getElem?_eq_getElem hlt] at hp
        cases hp
      rw [step_of_none hp]
      simp [meanwhile, hnot]
  | some d =>
      obtain ⟨hlt, hget⟩ := List.getElem?_eq_some_iff.mp hp
      have hmeanwhile : meanwhile s.procs.length [turn] = turn.input.meanwhile := by
        simp [meanwhile, hlt]
      rw [step_of_some hp, hmeanwhile]
      by_cases hrun : d.ending = none
      · have hletter : d.letter? = none := by rw [Delivery.letter?, hrun]
        have hset := Multiset.coe_eq_coe.mpr (@filterMap_set_perm _ _ Delivery.letter? s.procs
          turn.proc d (d.next maxRetries event turn.input.outcome) hp hletter)
        rw [← Multiset.coe_add] at hset
        simp only [resume, if_pos hrun]
        rw [hset, ← Multiset.coe_add, ← Multiset.coe_add]
        abel
      · simp only [resume, if_neg hrun]
        rw [next_of_ended hrun, ← hget, List.set_getElem_self, List.append_nil,
          ← Multiset.coe_add]

/-- The dead letters of a run: those that were there, those of others, and those of the
deliveries. -/
theorem letters_run (turns : List (Turn (Input E))) :
    ((Run.run (step (resume maxRetries event)) s turns).store : Multiset (DeadLetter E)) +
        s.procs.filterMap Delivery.letter? =
      s.store + meanwhile s.procs.length turns +
        (Run.run (step (resume maxRetries event)) s turns).procs.filterMap Delivery.letter? := by
  induction turns generalizing s with
  | nil => simp [meanwhile]
  | cons turn turns ih =>
      have hfirst := @letters_step E maxRetries event s turn
      have hrest := @ih (step (resume maxRetries event) s turn)
      have hlength : (step (resume maxRetries event) s turn).procs.length = s.procs.length :=
        @length_run _ _ _ (resume maxRetries event) s [turn]
      have hsplit : meanwhile s.procs.length (turn :: turns) =
          meanwhile s.procs.length [turn] ++ meanwhile s.procs.length turns := by
        rw [meanwhile, ← List.singleton_append, List.filter_append, List.flatMap_append]
        rfl
      rw [hlength] at hrest
      rw [Run.run_cons, hsplit, ← Multiset.coe_add]
      generalize Run.run (step (resume maxRetries event)) _ turns = last at hrest ⊢
      generalize step (resume maxRetries event) s turn = s₁ at hfirst hrest ⊢
      refine add_right_cancel (b := ((s₁.procs.filterMap Delivery.letter? : List (DeadLetter E)) :
        Multiset (DeadLetter E))) ?_
      rw [add_right_comm, hrest, add_right_comm,
        add_right_comm _ _ (Multiset.ofList (s.procs.filterMap _)), hfirst]
      abel

theorem accounted_foldl (handler : Handler) {outcomes : List Outcome}
    (hhandled : ∀ outcome ∈ outcomes, outcome.Handled) :
    Accounted maxRetries event
        (outcomes.foldl (Delivery.next maxRetries event) (.start handler)) ∧
      Took outcomes (outcomes.foldl (Delivery.next maxRetries event) (.start handler)) := by
  induction outcomes using List.reverseRecOn with
  | nil => exact ⟨.running handler [] (Nat.zero_le _), ⟨List.prefix_rfl, fun _ => rfl⟩⟩
  | append_singleton outcomes outcome ih =>
      obtain ⟨haccounted, htook⟩ := ih fun o ho => hhandled o (List.mem_append_left _ ho)
      rw [List.foldl_append]
      exact ⟨haccounted.next (hhandled outcome (by simp)), htook.next outcome⟩

end

/-- What `publish` promises for one handler, by how the attempts of its own delivery end. -/
structure Settled (maxRetries : Int) (event : E) (handler : Handler) (outcomes : List Outcome)
    (d : Delivery E) : Prop where
  alone : d = outcomes.foldl (Delivery.next maxRetries event) (.start handler)
  accounted : Accounted maxRetries event d
  took : Took outcomes d
  bounded : d.calls.length ≤ maxRetries.toNat + 1
  ends : maxRetries.toNat + 1 ≤ outcomes.length → d.ending ≠ none

theorem settled_foldl {maxRetries : Int} {event : E} (handler : Handler) {outcomes : List Outcome}
    (hhandled : ∀ outcome ∈ outcomes, outcome.Handled) :
    Settled maxRetries event handler outcomes
      (outcomes.foldl (Delivery.next maxRetries event) (.start handler)) := by
  obtain ⟨haccounted, htook⟩ := @accounted_foldl E maxRetries event handler outcomes hhandled
  refine ⟨rfl, haccounted, htook, haccounted.length_calls, fun hmany hrun => ?_⟩
  have hfew := haccounted.length_of_running hrun
  rw [htook.all hrun] at hfew
  omega

/-- What `publish` promises. -/
structure Accounts [DecidableEq T] (bus : EventBus E T) (typeOf : E → T) (event : E)
    (turns : List (Turn (Input E))) : Prop where
  /-- There is one delivery for each handler, and it minds no other. -/
  settled : ∀ (i : Nat) handler, (bus.handlersFor typeOf event)[i]? = some handler →
    ∃ d, (bus.publish typeOf event turns).procs[i]? = some d ∧
      Settled bus.maxRetries event handler (outcomesOf i turns) d
  count : (bus.publish typeOf event turns).procs.length =
    (bus.handlersFor typeOf event).length
  /-- The dead letters are those there were, those of others and those of the deliveries. -/
  letters : (bus.publish typeOf event turns).store.Perm
    (bus.deadLetters ++ meanwhile (bus.handlersFor typeOf event).length turns ++
      (bus.publish typeOf event turns).procs.filterMap Delivery.letter?)
  not_raised : ∀ error, gathered (bus.publish typeOf event turns).procs ≠ some (.error error)
  returns : (∀ i < (bus.handlersFor typeOf event).length,
      bus.maxRetries.toNat + 1 ≤ (outcomesOf i turns).length) →
    gathered (bus.publish typeOf event turns).procs = some (.ok ())

section

variable [DecidableEq T] (bus : EventBus E T) (typeOf : E → T) (event : E)

theorem getElem?_publish (turns : List (Turn (Input E))) (i : Nat) :
    (bus.publish typeOf event turns).procs[i]? =
      (bus.handlersFor typeOf event)[i]?.map fun handler =>
        (outcomesOf i turns).foldl (Delivery.next bus.maxRetries event) (.start handler) := by
  unfold EventBus.publish
  rw [@getElem?_run _ _ _ (resume bus.maxRetries event)
    (fun d input => d.next bus.maxRetries event input.outcome) _ (fun _ _ _ => rfl),
    List.getElem?_map, Option.map_map]
  congr 1
  funext handler
  rw [outcomesOf, List.foldl_map]
  rfl

theorem gathered_of_accounted {maxRetries : Int} {event : E} {deliveries : List (Delivery E)}
    (h : ∀ d ∈ deliveries, Accounted maxRetries event d) :
    gathered deliveries =
      if deliveries.all fun d => d.ending.isSome then some (.ok ()) else none := by
  have hnone : deliveries.findSome? (fun d =>
      match d.ending with
      | some (.raised error) => some error
      | _ => none) = none := by
    refine List.findSome?_eq_none_iff.mpr fun d hd => ?_
    split
    · next error hending => exact absurd hending ((h d hd).not_raised error)
    · rfl
  rw [gathered, hnone]

/-- Every delivery is called until its first success, at most once more than it is retried (at
least once), and ends with exactly one success or one dead letter, whatever the other deliveries
do; and `publish` does not raise. -/
theorem publish_accounts (turns : List (Turn (Input E)))
    (hhandled : ∀ turn ∈ turns, turn.input.outcome.Handled) :
    Accounts bus typeOf event turns := by
  have hsettled : ∀ (i : Nat) handler, (bus.handlersFor typeOf event)[i]? = some handler →
      ∃ d, (bus.publish typeOf event turns).procs[i]? = some d ∧
        Settled bus.maxRetries event handler (outcomesOf i turns) d := by
    intro i handler hi
    refine ⟨_, by rw [getElem?_publish, hi]; rfl, settled_foldl handler fun outcome hmem => ?_⟩
    obtain ⟨input, hinput, rfl⟩ := List.mem_map.mp hmem
    obtain ⟨turn, hturn, rfl⟩ := List.mem_map.mp hinput
    exact hhandled turn (List.mem_of_mem_filter hturn)
  have hcount : (bus.publish typeOf event turns).procs.length =
      (bus.handlersFor typeOf event).length := by
    rw [EventBus.publish, length_run, List.length_map]
  have hof : ∀ d ∈ (bus.publish typeOf event turns).procs, ∃ (i : Nat) (handler : Handler),
      (bus.handlersFor typeOf event)[i]? = some handler ∧
        Settled bus.maxRetries event handler (outcomesOf i turns) d := by
    intro d hd
    obtain ⟨i, hi, hget⟩ := List.mem_iff_getElem.mp hd
    have hlt : i < (bus.handlersFor typeOf event).length := hcount ▸ hi
    obtain ⟨d', hd', hsettled'⟩ := hsettled i _ (List.getElem?_eq_getElem hlt)
    rw [List.getElem?_eq_getElem hi, hget, Option.some.injEq] at hd'
    exact ⟨i, _, List.getElem?_eq_getElem hlt, hd' ▸ hsettled'⟩
  have haccounted : ∀ d ∈ (bus.publish typeOf event turns).procs,
      Accounted bus.maxRetries event d := by
    intro d hd
    obtain ⟨_, _, _, hsettled'⟩ := hof d hd
    exact hsettled'.accounted
  refine ⟨hsettled, hcount, ?_, fun error herror => ?_, fun hmany => ?_⟩
  · have hstart : ((bus.handlersFor typeOf event).map Delivery.start).filterMap
        (@Delivery.letter? E) = [] := by
      rw [List.filterMap_map]
      exact List.filterMap_eq_nil_iff.mpr fun _ _ => rfl
    have hletters := @letters_run E bus.maxRetries event
      ⟨bus.deadLetters, (bus.handlersFor typeOf event).map Delivery.start⟩ turns
    simp only at hletters
    rw [hstart, List.length_map, Multiset.coe_nil, add_zero, Multiset.coe_add,
      Multiset.coe_add] at hletters
    exact Multiset.coe_eq_coe.mp hletters
  · rw [gathered_of_accounted haccounted] at herror
    split at herror
    · cases herror
    · cases herror
  · rw [gathered_of_accounted haccounted, if_pos]
    refine List.all_eq_true.mpr fun d hd => ?_
    obtain ⟨i, handler, hi, hd⟩ := hof d hd
    have hlt := (List.getElem?_eq_some_iff.mp hi).1
    exact Option.isSome_iff_ne_none.mpr (hd.ends (hmany i hlt))

end

/-- A bus with two handlers of one type of event. -/
def twoHandlers (maxRetries : Int) : EventBus Unit Unit :=
  ((⟨.empty, maxRetries, []⟩ : EventBus Unit Unit).subscribe () ⟨0, "notify"⟩).subscribe ()
    ⟨1, "index"⟩

/-- One handler fails three times, the other once, in turn. -/
def failingTurns : List (Turn (Input Unit)) :=
  [⟨0, [], .failed "down"⟩, ⟨1, [], .failed "busy"⟩, ⟨0, [], .failed "down"⟩,
    ⟨1, [], .returned⟩, ⟨0, [], .failed "still down"⟩]

theorem publish_accounts_failing :
    (twoHandlers 2).publish id () failingTurns =
        ⟨[⟨(), "notify", "still down"⟩],
          [⟨⟨0, "notify"⟩, 3, [.failed "down", .failed "down", .failed "still down"],
              some (.dead ⟨(), "notify", "still down"⟩)⟩,
            ⟨⟨1, "index"⟩, 1, [.failed "busy", .returned], some .delivered⟩]⟩ ∧
      Accounts (twoHandlers 2) id () failingTurns :=
  ⟨by rfl, publish_accounts (twoHandlers 2) id () failingTurns (by
    intro turn hturn error
    revert turn
    simp [failingTurns])⟩

/-- With a negative bound each handler is still called once, and an exit that is no `Exception` is
passed on. -/
theorem publish_exceeds :
    (∃ d ∈ ((twoHandlers (-1)).publish id () [⟨0, [], .failed "down"⟩]).procs,
        ¬ (d.calls.length : Int) ≤ -1 + 1) ∧
      gathered ((twoHandlers 2).publish id () [⟨0, [], .exited "stop"⟩]).procs =
        some (.error "stop") :=
  ⟨⟨_, List.mem_cons_self, by decide⟩, by rfl⟩

end YoutubeFactory.Events
