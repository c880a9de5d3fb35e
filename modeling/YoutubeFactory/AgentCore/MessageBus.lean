import YoutubeFactory.Lib.OrderedMap
import YoutubeFactory.Lib.Run

/-!
# The message bus

`MessageBus` of `app/agents/communication/bus.py`.  What an agent has received, followed by what
waits in its mailbox, is what has been sent to it, once each and in the order of sending
(`bus_delivers`).
-/

namespace YoutubeFactory.AgentCore

/-- A message.  The bus looks at its sender and its recipient only. -/
structure AgentMessage (Body : Type) where
  sender : String
  /-- The slug of an agent, or `*` for a broadcast. -/
  recipient : String
  body : Body
deriving DecidableEq, Repr

/-- The mailboxes are created where they are needed, and one that is missing is empty. -/
structure MessageBus (Body : Type) where
  mailboxes : OrderedMap String (List (AgentMessage Body))
  /-- `_agents`, in some order -/
  agents : List String
  nodup : agents.Nodup
  history : List (AgentMessage Body)

namespace MessageBus

variable {Body : Type}

def empty : MessageBus Body := ⟨.empty, [], List.nodup_nil, []⟩

def mailbox (bus : MessageBus Body) (slug : String) : List (AgentMessage Body) :=
  (bus.mailboxes.get? slug).getD []

/-- `_mailboxes[slug].append(message)` -/
def post (bus : MessageBus Body) (slug : String) (message : AgentMessage Body) : MessageBus Body :=
  { bus with mailboxes := bus.mailboxes.set slug (bus.mailbox slug ++ [message]) }

def register (bus : MessageBus Body) (slug : String) : MessageBus Body where
  mailboxes :=
    if (bus.mailboxes.get? slug).isSome = true then bus.mailboxes else bus.mailboxes.set slug []
  agents := bus.agents.insert slug
  nodup := bus.nodup.insert
  history := bus.history

def send (bus : MessageBus Body) (message : AgentMessage Body) : MessageBus Body :=
  let bus := { bus with history := bus.history ++ [message] }
  if message.recipient = "*" then
    bus.agents.foldl
      (fun bus slug => if slug ≠ message.sender then bus.post slug message else bus) bus
  else bus.post message.recipient message

/-- The messages that are drained, and the bus without them. -/
def receive (bus : MessageBus Body) (slug : String) :
    List (AgentMessage Body) × MessageBus Body :=
  if bus.mailbox slug = [] then ([], bus)
  else (bus.mailbox slug, { bus with mailboxes := bus.mailboxes.set slug [] })

def pending (bus : MessageBus Body) (slug : String) : Nat := (bus.mailbox slug).length

/-! ## Mailboxes -/

variable {bus : MessageBus Body} {slug : String} {message : AgentMessage Body}

theorem mailbox_set (bus : MessageBus Body) (slug other : String)
    (messages : List (AgentMessage Body)) :
    { bus with mailboxes := bus.mailboxes.set slug messages }.mailbox other =
      if other = slug then messages else bus.mailbox other := by
  rw [mailbox, OrderedMap.get?_set]
  split <;> rfl

theorem mailbox_post (bus : MessageBus Body) (slug other : String) :
    (bus.post slug message).mailbox other =
      bus.mailbox other ++ if other = slug then [message] else [] := by
  rw [post, mailbox_set]
  split
  · next h => rw [h]
  · rw [List.append_nil]

theorem mailbox_register (bus : MessageBus Body) (slug other : String) :
    (bus.register slug).mailbox other = bus.mailbox other := by
  unfold register mailbox
  split
  · rfl
  · next hnone =>
      rw [OrderedMap.get?_set]
      split
      · next heq =>
          rw [heq, Option.not_isSome_iff_eq_none.mp hnone]
          rfl
      · rfl

/-- A broadcast, in whatever order the agents come. -/
theorem mailbox_foldl_post (other : String) : ∀ {slugs : List String} (bus : MessageBus Body),
    slugs.Nodup → (slugs.foldl
      (fun bus slug => if slug ≠ message.sender then bus.post slug message else bus) bus).mailbox
        other = bus.mailbox other ++
          if other ∈ slugs ∧ other ≠ message.sender then [message] else []
  | [], bus, _ => by
      rw [if_neg fun h => List.not_mem_nil h.1, List.append_nil]
      rfl
  | slug :: slugs, bus, hnodup => by
      rw [List.nodup_cons] at hnodup
      rw [List.foldl_cons, mailbox_foldl_post other _ hnodup.2]
      by_cases heq : other = slug
      · subst heq
        have hlater : ¬ (other ∈ slugs ∧ other ≠ message.sender) := fun h => hnodup.1 h.1
        rw [if_neg hlater, List.append_nil]
        by_cases hsender : other ≠ message.sender
        · rw [if_pos hsender, mailbox_post, if_pos rfl, if_pos ⟨List.mem_cons_self, hsender⟩]
        · rw [if_neg hsender, if_neg fun h => hsender h.2, List.append_nil]
      · have hfirst : (if slug ≠ message.sender then bus.post slug message else bus).mailbox other =
            bus.mailbox other := by
          split
          · rw [mailbox_post, if_neg heq, List.append_nil]
          · rfl
        have hrest : other ∈ slug :: slugs ↔ other ∈ slugs := by
          rw [List.mem_cons, or_iff_right heq]
        rw [hfirst]
        simp only [hrest]

/-! ## Deliveries -/

/-- With these agents registered, the message is one for the agent of this slug. -/
def Reaches (agents : List String) (message : AgentMessage Body) (slug : String) : Prop :=
  if message.recipient = "*" then slug ∈ agents ∧ slug ≠ message.sender
  else slug = message.recipient

instance (agents : List String) (message : AgentMessage Body) (slug : String) :
    Decidable (Reaches agents message slug) := by
  unfold Reaches
  infer_instance

theorem mailbox_send (bus : MessageBus Body) (message : AgentMessage Body) (slug : String) :
    (bus.send message).mailbox slug =
      bus.mailbox slug ++ if Reaches bus.agents message slug then [message] else [] := by
  unfold send Reaches
  dsimp only
  by_cases hall : message.recipient = "*"
  · rw [if_pos hall, mailbox_foldl_post slug _ bus.nodup]
    simp only [if_pos hall]
    rfl
  · rw [if_neg hall, mailbox_post]
    simp only [if_neg hall]
    rfl

/-! ## Calls -/

/-- A call of the bus. -/
inductive Call (Body : Type) where
  | register (slug : String)
  | send (message : AgentMessage Body)
  | receive (slug : String)

/-- What an agent receives by a call. -/
def received (slug : String) (bus : MessageBus Body) : Call Body → List (AgentMessage Body)
  | .receive other => if other = slug then (bus.receive other).1 else []
  | _ => []

def step (bus : MessageBus Body) : Call Body → MessageBus Body
  | .register slug => bus.register slug
  | .send message => bus.send message
  | .receive slug => (bus.receive slug).2

/-- All that an agent receives in a run. -/
def receivedAll (slug : String) : MessageBus Body → List (Call Body) → List (AgentMessage Body)
  | _, [] => []
  | bus, call :: calls => received slug bus call ++ receivedAll slug (step bus call) calls

/-- The agents that these calls register. -/
def registered (calls : List (Call Body)) : List String :=
  calls.filterMap fun
    | .register slug => some slug
    | _ => none

/-- What is sent to an agent by a call, with these agents registered. -/
def sent (slug : String) (agents : List String) : Call Body → List (AgentMessage Body)
  | .send message => if Reaches agents message slug then [message] else []
  | _ => []

/-- All that is sent to an agent in a run, in the order of sending, where the run goes on from these
calls. -/
def sentTo (slug : String) : List (Call Body) → List (Call Body) → List (AgentMessage Body)
  | _, [] => []
  | past, call :: calls => sent slug (registered past) call ++ sentTo slug (past ++ [call]) calls

theorem reaches_congr {agents agents' : List String} (h : slug ∈ agents ↔ slug ∈ agents') :
    Reaches agents message slug ↔ Reaches agents' message slug := by
  unfold Reaches
  rw [h]

theorem sent_congr {agents agents' : List String} (h : slug ∈ agents ↔ slug ∈ agents')
    (call : Call Body) : sent slug agents call = sent slug agents' call := by
  cases call with
  | send message => simp only [sent, reaches_congr h]
  | register slug => rfl
  | receive slug => rfl

theorem agents_send (bus : MessageBus Body) (message : AgentMessage Body) :
    (bus.send message).agents = bus.agents := by
  have hfold : ∀ (slugs : List String) (bus : MessageBus Body), (slugs.foldl (fun bus slug =>
      if slug ≠ message.sender then bus.post slug message else bus) bus).agents = bus.agents := by
    intro slugs
    induction slugs with
    | nil => exact fun _ => rfl
    | cons slug slugs ih =>
        intro bus
        rw [List.foldl_cons, ih]
        split <;> rfl
  unfold send
  dsimp only
  split
  · exact hfold _ _
  · rfl

theorem mem_agents_step (bus : MessageBus Body) (call : Call Body) :
    slug ∈ (step bus call).agents ↔ slug ∈ bus.agents ∨ slug ∈ registered [call] := by
  cases call with
  | register other =>
      show slug ∈ bus.agents.insert other ↔ slug ∈ bus.agents ∨ slug ∈ [other]
      rw [List.mem_insert_iff, List.mem_singleton, or_comm]
  | send message =>
      rw [show (step bus (.send message)).agents = bus.agents from agents_send bus message]
      exact (or_iff_left List.not_mem_nil).symm
  | receive other =>
      have hagents : (step bus (.receive other)).agents = bus.agents := by
        show (bus.receive other).2.agents = _
        unfold receive
        split <;> rfl
      rw [hagents]
      exact (or_iff_left List.not_mem_nil).symm

/-- A call takes from the front of a mailbox what the agent receives, and adds at its end what is
sent to the agent. -/
theorem received_append_mailbox (bus : MessageBus Body) (call : Call Body) :
    received slug bus call ++ (step bus call).mailbox slug =
      bus.mailbox slug ++ sent slug bus.agents call := by
  cases call with
  | register other => exact (mailbox_register bus other slug).trans (List.append_nil _).symm
  | send message => exact mailbox_send bus message slug
  | receive other =>
      show (if other = slug then (bus.receive other).1 else []) ++
        (bus.receive other).2.mailbox slug = bus.mailbox slug ++ []
      rw [List.append_nil]
      unfold receive
      by_cases hempty : bus.mailbox other = []
      · rw [if_pos hempty]
        split <;> rfl
      · rw [if_neg hempty, mailbox_set]
        by_cases heq : other = slug
        · rw [if_pos heq, if_pos heq.symm, heq, List.append_nil]
        · rw [if_neg heq, if_neg (Ne.symm heq)]
          rfl

theorem receivedAll_append_mailbox : ∀ (calls past : List (Call Body)) (bus : MessageBus Body),
    (∀ other, other ∈ bus.agents ↔ other ∈ registered past) →
      receivedAll slug bus calls ++ (Run.run step bus calls).mailbox slug =
        bus.mailbox slug ++ sentTo slug past calls
  | [], _, bus, _ => (List.append_nil _).symm
  | call :: calls, past, bus, hagents => by
      have hnext : ∀ other, other ∈ (step bus call).agents ↔
          other ∈ registered (past ++ [call]) := by
        intro other
        rw [mem_agents_step, hagents, registered, registered, registered, List.filterMap_append,
          List.mem_append]
      have hrest := receivedAll_append_mailbox calls (past ++ [call]) (step bus call) hnext
      rw [receivedAll, sentTo, Run.run_cons, List.append_assoc, hrest, ← List.append_assoc,
        received_append_mailbox, List.append_assoc, sent_congr (hagents slug)]

theorem addressed_of_mem_sentTo : ∀ {calls past : List (Call Body)},
    message ∈ sentTo slug past calls →
      message.recipient = slug ∨ message.recipient = "*" ∧ message.sender ≠ slug
  | call :: calls, past, h => by
      rcases List.mem_append.mp h with hnow | hlater
      · cases call with
        | send other =>
            change message ∈ (if Reaches (registered past) other slug then [other] else []) at hnow
            split at hnow
            · next hreaches =>
                cases List.mem_singleton.mp hnow
                unfold Reaches at hreaches
                split at hreaches
                · next hall => exact .inr ⟨hall, hreaches.2.symm⟩
                · exact .inl hreaches.symm
            · cases hnow
        | register other => cases hnow
        | receive other => cases hnow
      · exact addressed_of_mem_sentTo hlater

/-- In every run, what an agent has received and then what waits for it is what was sent to it: each
message once, in the order of sending, and none that is addressed to another. -/
theorem bus_delivers (calls : List (Call Body)) (slug : String) :
    receivedAll slug empty calls ++ (Run.run step empty calls).mailbox slug =
        sentTo slug [] calls ∧
      ∀ message ∈ receivedAll slug empty calls,
        message.recipient = slug ∨ message.recipient = "*" ∧ message.sender ≠ slug := by
  have hsent : receivedAll slug empty calls ++ (Run.run step empty calls).mailbox slug =
      sentTo slug [] calls := receivedAll_append_mailbox calls [] empty fun _ => Iff.rfl
  refine ⟨hsent, fun message hmessage => ?_⟩
  have hmem : message ∈ sentTo slug [] calls := hsent ▸ List.mem_append_left _ hmessage
  exact addressed_of_mem_sentTo hmem

end MessageBus

end YoutubeFactory.AgentCore
