import FleetPrivacy.Finalisation
import FleetPrivacy.Publication
import FleetPrivacy.Sessions

/-!
# No stranded work in the queue deployment

A message is acknowledged only after its task is terminal and a refresh of its
request has followed.  Of the refreshes that follow the tasks of one request,
the last sees all of them terminal; until then some task of the request is not
settled, and its message or its outbox row is still there.
-/

namespace FleetPrivacy

open Transition

def State.bodies (state : State) : List Envelope :=
  state.queue.map QueueMessage.body

/-- The task that the message of a call names. -/
def State.carried (state : State) (call : Call) : Option String :=
  call.message.bind fun slot => state.bodies[slot]?.bind Envelope.taskId?

/-- A message about the task is acknowledged, or about to be. -/
def State.Settled (state : State) (taskId : String) : Prop :=
  (∃ message ∈ state.queue, message.acked = true ∧
    message.body.taskId? = some taskId) ∨
  ∃ call ∈ state.calls, call.phase = .returned true ∧
    state.carried call = some taskId

/-- The task that a call works on. -/
def Phase.task? : Phase → Option String
  | .claiming taskId _ | .duplicate taskId | .working taskId
  | .worked taskId _ | .recorded taskId => some taskId
  | _ => none

/-- A call works on the task that its message names. -/
structure Call.Aims (call : Call) (state : State) : Prop where
  slot : ∃ slot, call.message = some slot ∧ slot < state.queue.length
  named : ∀ taskId, call.phase.task? = some taskId ∨ taskId ∈ call.todo →
    state.carried call = some taskId
  duplicate : ∀ taskId, call.phase = .duplicate taskId →
    ∃ row, state.database.task taskId = some row ∧ row.status.Terminal
  refreshing : ∀ requestId own reference,
    call.phase = .refreshing requestId own reference →
    ∃ taskId row, state.carried call = some taskId ∧
      state.database.task taskId = some row ∧ row.requestId = requestId ∧
      (∀ ownId, own = some ownId → ownId = taskId) ∧
      (own = none → row.status.Terminal)

/-- A call that refreshes from a view with open tasks leaves one of the tasks
unsettled, also when it settles its own. -/
def Call.LeavesOpen (call : Call) (state : State) : Prop :=
  ∀ requestId own reference,
    call.phase = .refreshing requestId own reference →
    ¬ call.session.SeesTerminal requestId →
    ∃ taskId, state.carried call = some taskId ∧
      ∃ other ∈ (state.database.tasksOf requestId).map RequestTask.id,
        ¬ state.Settled other ∧
          (call.refreshResult own = true → other ≠ taskId)

structure Delivered (state : State) : Prop where
  aims : ∀ call ∈ state.calls, call.Aims state
  settled : ∀ taskId, state.Settled taskId →
    ∃ row, state.database.task taskId = some row ∧ row.status.Terminal
  views : ∀ call ∈ state.calls, call.LeavesOpen state
  unfinished : ∀ requestId row, state.database.request requestId = some row →
    row.status.Terminal ∨ state.database.tasksOf requestId = [] ∨
      ∃ taskId ∈ (state.database.tasksOf requestId).map RequestTask.id,
        ¬ state.Settled taskId
  artifacts : ∀ requestId row, state.database.request requestId = some row →
    row.kind = .access → row.status = .completed ∨ row.status = .partially →
    row.artifactPath ≠ none

/-! ## Messages keep their place -/

theorem Effect.bodies {deployment : Deployment} {state next : State}
    {action : Action} (effect : Effect deployment state action next) :
    state.bodies <+: next.bodies := by
  cases effect with
  | created | opened | moved | messageClaimed | batchClaimed | selected
  | recorded | locked | refreshed | extended => exact List.prefix_rfl
  | relayed action relays extra outbox move =>
      unfold State.bodies
      rw [List.map_append]
      exact List.prefix_append _ _
  | acked index call slot message found subscribed delivered returned =>
      have same : State.bodies { (state.put index call.close) with
          queue := state.queue.set slot { message with acked := true } } =
          state.bodies := by
        apply List.ext_getElem?
        intro other
        unfold State.bodies
        rw [List.getElem?_map, List.getElem?_map, getElem?_set_slot delivered]
        split
        next hit => rw [hit, delivered]; rfl
        next => rfl
      exact same.symm ▸ List.prefix_rfl

/-- New messages are not acknowledged. -/
theorem RelayMove.unacked {deployment : Deployment} {state : State}
    {action : Action} {relays : List Relay} {extra : List QueueMessage}
    {outbox : List OutboxEvent}
    (move : RelayMove deployment state action relays extra outbox) :
    ∀ message ∈ extra, message.acked = false := by
  intro message member
  cases move with
  | selected | committed | crashed => cases member
  | published index relay event remaining accepted =>
      cases accepted with
      | false => cases member
      | true =>
          cases List.mem_singleton.mp member
          rfl

section Carried

variable {state next : State} {call : Call}

theorem State.carried_eq (grows : state.bodies <+: next.bodies)
    (slot : ∃ slot, call.message = some slot ∧ slot < state.queue.length) :
    next.carried call = state.carried call := by
  obtain ⟨slot, message, bound⟩ := slot
  have inside : slot < state.bodies.length := by
    simpa [State.bodies] using bound
  unfold State.carried
  rw [message]
  obtain ⟨extra, split⟩ := grows
  rw [← split]
  simp [List.getElem?_append_left inside]

theorem State.length_le (grows : state.bodies <+: next.bodies) :
    state.queue.length ≤ next.queue.length := by
  simpa [State.bodies] using grows.length_le

theorem State.carried_eq_some {slot : Nat} {message : QueueMessage}
    (subscribed : call.message = some slot)
    (delivered : state.queue[slot]? = some message) :
    state.carried call = message.body.taskId? := by
  simp [State.carried, State.bodies, subscribed, delivered]

theorem Call.Aims.of_leads (aims : call.Aims state)
    (leads : state.database.Leads next.database)
    (grows : state.bodies <+: next.bodies) : call.Aims next := by
  have carried := State.carried_eq grows aims.slot
  refine ⟨?_, ?_, ?_, ?_⟩
  · obtain ⟨slot, message, bound⟩ := aims.slot
    exact ⟨slot, message, Nat.lt_of_lt_of_le bound (State.length_le grows)⟩
  · rw [carried]
    exact aims.named
  · intro taskId phase
    obtain ⟨row, found, terminal⟩ := aims.duplicate taskId phase
    obtain ⟨current, currentFound, _, kept⟩ := leads.task taskId row found
    exact ⟨current, currentFound, (kept terminal).1 ▸ terminal⟩
  · intro requestId own reference phase
    obtain ⟨taskId, row, named, found, owned, same, final⟩ :=
      aims.refreshing requestId own reference phase
    obtain ⟨current, currentFound, key, kept⟩ := leads.task taskId row found
    refine ⟨taskId, current, carried.trans named, currentFound,
      key.trans owned, same, ?_⟩
    intro none_
    exact (kept (final none_)).1 ▸ final none_

end Carried

/-- What holds in every reachable state. -/
structure State.Sound (state : State) : Prop where
  grounded : state.Grounded
  addressed : ∀ call ∈ state.calls, ∀ slot, call.message = some slot →
    slot < state.queue.length

/-- A call keeps its message. -/
theorem Effect.message {deployment : Deployment} {state next : State}
    {action : Action} (effect : Effect deployment state action next)
    {index : Nat} {call : Call} (located : next.calls[index]? = some call) :
    (∃ old, state.calls[index]? = some old ∧ old.message = call.message) ∨
      ∀ slot, call.message = some slot → slot < state.queue.length := by
  cases effect with
  | created | relayed | extended => exact .inl ⟨call, located, rfl⟩
  | opened workerId message executor bound =>
      rcases State.append_cases located with ⟨_, new⟩ | ⟨_, old⟩
      · refine .inr ?_
        intro slot isSlot
        rw [new] at isSlot
        cases isSlot
        exact bound
      · exact .inl ⟨call, old, rfl⟩
  | batchClaimed =>
      rcases State.append_cases located with ⟨_, new⟩ | ⟨_, old⟩
      · refine .inr ?_
        intro slot isSlot
        rw [new] at isSlot
        cases isSlot
      · exact .inl ⟨call, old, rfl⟩
  | moved action slot old after artifacts found move =>
      rcases State.put_cases found located with ⟨isIndex, new⟩ | ⟨_, kept⟩
      · rw [isIndex, new]
        exact .inl ⟨old, found, move.workerId.2.symm⟩
      · exact .inl ⟨call, kept, rfl⟩
  | recorded slot old taskId work task request now found =>
      rcases State.put_cases found located with ⟨isIndex, new⟩ | ⟨_, kept⟩
      · rw [isIndex, new]
        exact .inl ⟨old, found, (Call.afterRecord_message ..).symm⟩
      · exact .inl ⟨call, kept, rfl⟩
  | messageClaimed slot old _ _ found
  | selected slot old _ _ _ found
  | locked slot old _ _ _ found
  | refreshed slot old _ _ _ _ _ _ found
  | acked slot old _ _ found =>
      rcases State.put_cases found located with ⟨isIndex, new⟩ | ⟨_, kept⟩
      · rw [isIndex, new]
        exact .inl ⟨old, found, rfl⟩
      · exact .inl ⟨call, kept, rfl⟩

namespace State.Sound

variable {deployment : Deployment} {state next : State} {action : Action}

theorem effect (sound : state.Sound)
    (effect : Effect deployment state action next) : next.Sound := by
  refine ⟨sound.grounded.effect effect, ?_⟩
  intro call member slot isSlot
  have grows := State.length_le effect.bodies
  obtain ⟨index, located⟩ := List.getElem?_of_mem member
  rcases effect.message located with ⟨old, found, same⟩ | bound
  · exact Nat.lt_of_lt_of_le (sound.addressed old (List.mem_of_getElem? found)
      slot (same.trans isSlot)) grows
  · exact Nat.lt_of_lt_of_le (bound slot isSlot) grows

/-- The message of a call that was there names the same task as before. -/
theorem carried_eq (sound : state.Sound) {call : Call}
    (member : call ∈ state.calls)
    (effect : Effect deployment state action next) :
    next.carried call = state.carried call := by
  cases subscribed : call.message with
  | none => simp [State.carried, subscribed]
  | some slot =>
      exact State.carried_eq effect.bodies
        ⟨slot, subscribed, sound.addressed call member slot subscribed⟩

theorem initial : State.initial.Sound := by
  refine ⟨.initial, ?_⟩
  intro call member
  cases member

end State.Sound

/-! ## Steps -/

namespace Delivered

variable {deployment : Deployment} {state next : State}

/-- Nothing becomes settled when acknowledged messages were and no changed call
is about to acknowledge. -/
theorem settled_of (delivered : Delivered state)
    (grows : state.bodies <+: next.bodies)
    (acked : ∀ message ∈ next.queue, message.acked = true →
      ∀ taskId, message.body.taskId? = some taskId → state.Settled taskId)
    (calls : ∀ call ∈ next.calls, call ∈ state.calls ∨
      (call.phase = .returned true → next.carried call = none))
    (taskId : String) (settled : next.Settled taskId) :
    state.Settled taskId := by
  rcases settled with ⟨message, member, isAcked, named⟩ |
    ⟨call, member, phase, carried⟩
  · exact acked message member isAcked taskId named
  · rcases calls call member with old | new
    · right
      rw [State.carried_eq grows (delivered.aims call old).slot] at carried
      exact ⟨call, old, phase, carried⟩
    · rw [new phase] at carried
      cases carried

/-- Acknowledged messages of the old queue are settled. -/
theorem acked_of_queue (same : next.queue = state.queue) :
    ∀ message ∈ next.queue, message.acked = true →
      ∀ taskId, message.body.taskId? = some taskId →
      state.Settled taskId := by
  intro message member isAcked taskId named
  rw [same] at member
  exact .inl ⟨message, member, isAcked, named⟩

theorem leavesOpen_of_leads {call : Call} (aims : call.Aims state)
    (formed : state.database.WellFormed)
    (leads : state.database.Leads next.database)
    (grows : state.bodies <+: next.bodies)
    (settled : ∀ requestId, call.phase.refreshes requestId = true →
      ∀ taskId ∈ (state.database.tasksOf requestId).map RequestTask.id,
        next.Settled taskId → state.Settled taskId)
    (leaves : call.LeavesOpen state) : call.LeavesOpen next := by
  intro requestId own reference phase open_
  obtain ⟨taskId, carried, other, member, unsettled, different⟩ :=
    leaves requestId own reference phase open_
  obtain ⟨_, row, _, found, owned, _, _⟩ :=
    aims.refreshing requestId own reference phase
  obtain ⟨owner, ownerFound⟩ := formed.owned row (Database.task_mem found).1
  rw [owned] at ownerFound
  have locks := Phase.refreshes_iff.mpr ⟨own, reference, phase⟩
  refine ⟨taskId, ?_, other, ?_,
    mt (settled requestId locks other member) unsettled, different⟩
  · rw [State.carried_eq grows aims.slot]
    exact carried
  · rw [leads.members requestId owner ownerFound]
    exact member

/-- Settled tasks stay terminal. -/
theorem terminal_of_leads (leads : state.database.Leads next.database)
    {taskId : String}
    (known : ∃ row, state.database.task taskId = some row ∧
      row.status.Terminal) :
    ∃ row, next.database.task taskId = some row ∧ row.status.Terminal := by
  obtain ⟨row, found, terminal⟩ := known
  obtain ⟨current, currentFound, _, kept⟩ := leads.task taskId row found
  exact ⟨current, currentFound, (kept terminal).1 ▸ terminal⟩

/-- A request of which no task becomes settled stays unfinished or terminal. -/
theorem unfinished_of_leads (delivered : Delivered state)
    (leads : state.database.Leads next.database) {requestId : String}
    {old row : PrivacyRequest}
    (oldFound : state.database.request requestId = some old)
    (found : next.database.request requestId = some row)
    (settled : ∀ taskId ∈
      (state.database.tasksOf requestId).map RequestTask.id,
      next.Settled taskId → state.Settled taskId) :
    row.status.Terminal ∨ next.database.tasksOf requestId = [] ∨
      ∃ taskId ∈ (next.database.tasksOf requestId).map RequestTask.id,
        ¬ next.Settled taskId := by
  obtain ⟨current, currentFound, _, kept, _⟩ :=
    leads.request requestId old oldFound
  rw [found] at currentFound
  cases currentFound
  have ids := leads.members requestId old oldFound
  rcases delivered.unfinished requestId old oldFound with
    terminal | empty | ⟨taskId, member, unsettled⟩
  · exact .inl (kept terminal ▸ terminal)
  · rw [empty] at ids
    exact .inr (.inl (List.map_eq_nil_iff.mp ids))
  · exact .inr (.inr ⟨taskId, ids ▸ member,
      mt (settled taskId member) unsettled⟩)

/-- Steps that finish no request and settle no task. -/
theorem carry (delivered : Delivered state) (core : Core state)
    (leads : state.database.Leads next.database)
    (none_ : state.database.NoneFinished next.database)
    (grows : state.bodies <+: next.bodies)
    (requests : ∀ requestId row, next.database.request requestId = some row →
      (∃ old, state.database.request requestId = some old) ∨
        (next.database.tasksOf requestId = [] ∨
          ∃ taskId ∈ (next.database.tasksOf requestId).map RequestTask.id,
            ¬ state.Settled taskId) ∧ ¬ row.status.Terminal)
    (settled : ∀ taskId, next.Settled taskId → state.Settled taskId)
    (calls : ∀ call ∈ next.calls, call ∈ state.calls ∨
      call.Aims next ∧ call.LeavesOpen next) : Delivered next := by
  refine ⟨?_, ?_, ?_, ?_, ?_⟩
  · intro call member
    rcases calls call member with old | new
    · exact (delivered.aims call old).of_leads leads grows
    · exact new.1
  · intro taskId isSettled
    exact terminal_of_leads leads
      (delivered.settled taskId (settled taskId isSettled))
  · intro call member
    rcases calls call member with old | new
    · exact leavesOpen_of_leads (delivered.aims call old) core.tidy.tables
        leads grows (fun _ _ taskId _ => settled taskId)
        (delivered.views call old)
    · exact new.2
  · intro requestId row found
    rcases requests requestId row found with ⟨old, oldFound⟩ | ⟨new, _⟩
    · exact delivered.unfinished_of_leads leads oldFound found
        (fun taskId _ => settled taskId)
    · rcases new with empty | ⟨taskId, member, unsettled⟩
      · exact .inr (.inl empty)
      · exact .inr (.inr ⟨taskId, member, mt (settled taskId) unsettled⟩)
  · intro requestId row found kind status
    obtain ⟨old, oldFound, oldTerminal⟩ := none_ requestId row found
      (RequestStatus.terminal_of_finished status)
    obtain ⟨current, currentFound, currentKind, kept, path⟩ :=
      leads.request requestId old oldFound
    rw [found] at currentFound
    cases currentFound
    apply path
    apply delivered.artifacts requestId old oldFound
    · rw [← currentKind]
      exact kind
    · rw [← kept oldTerminal]
      exact status

/-- Requests survive a revision, and no other appears. -/
theorem requests_of_revises {task : RequestTask → RequestTask}
    {request : PrivacyRequest → PrivacyRequest}
    (revises : Database.Revises state.database next.database task request)
    {requestId : String} {row : PrivacyRequest}
    (found : next.database.request requestId = some row) :
    ∃ old, state.database.request requestId = some old := by
  rw [revises.request_eq] at found
  obtain ⟨old, located, _⟩ := Option.map_eq_some_iff.mp found
  exact ⟨old, located⟩

/-- A revision with one call replaced. -/
theorem put (delivered : Delivered state) (core : Core state)
    (leads : state.database.Leads next.database)
    (none_ : state.database.NoneFinished next.database)
    {task : RequestTask → RequestTask}
    {request : PrivacyRequest → PrivacyRequest}
    (revises : Database.Revises state.database next.database task request)
    (queue : next.queue = state.queue) {index : Nat} {after : Call}
    (calls : next.calls = (state.put index after).calls)
    (aims : after.Aims state) (leaves : after.LeavesOpen state)
    (quiet : after.phase = .returned true → state.carried after = none) :
    Delivered next := by
  have grows : state.bodies <+: next.bodies := by
    have same : next.bodies = state.bodies :=
      congrArg (List.map QueueMessage.body) queue
    exact same.symm ▸ List.prefix_rfl
  have member : ∀ call ∈ next.calls, call = after ∨ call ∈ state.calls := by
    intro call inNext
    rw [calls] at inNext
    exact State.mem_put inNext
  have settled := delivered.settled_of grows (acked_of_queue queue) (by
    intro call inNext
    rcases member call inNext with new | old
    · rw [new, State.carried_eq grows aims.slot]
      exact .inr quiet
    · exact .inl old)
  refine delivered.carry core leads none_ grows ?_ settled ?_
  · intro requestId row found
    exact .inl (requests_of_revises revises found)
  · intro call inNext
    rcases member call inNext with new | old
    · rw [new]
      exact .inr ⟨aims.of_leads leads grows,
        leavesOpen_of_leads aims core.tidy.tables leads grows
          (fun _ _ taskId _ => settled taskId) leaves⟩
    · exact .inl old

end Delivered

theorem Call.leavesOpen_of_phase {call : Call} {state : State}
    (unlocked : ∀ requestId, call.phase.refreshes requestId = false) :
    call.LeavesOpen state := by
  intro requestId own reference phase
  have free := unlocked requestId
  rw [phase] at free
  simp [Phase.refreshes] at free

/-- A call that neither refreshes nor handles a duplicate. -/
theorem Call.Aims.of_named {call : Call} {state : State}
    (slot : ∃ slot, call.message = some slot ∧ slot < state.queue.length)
    (named : ∀ taskId, call.phase.task? = some taskId ∨ taskId ∈ call.todo →
      state.carried call = some taskId)
    (duplicate : ∀ taskId, call.phase ≠ .duplicate taskId)
    (unlocked : ∀ requestId, call.phase.refreshes requestId = false) :
    call.Aims state := by
  refine ⟨slot, named, ?_, ?_⟩
  · intro taskId phase
    exact absurd phase (duplicate taskId)
  · intro requestId own reference phase
    have free := unlocked requestId
    rw [phase] at free
    simp [Phase.refreshes] at free

theorem State.carried_congr {state : State} {call other : Call}
    (same : other.message = call.message) :
    state.carried other = state.carried call := by
  unfold State.carried
  rw [same]

section CallMove

variable {deployment : Deployment} {state : State} {index : Nat}
  {call next : Call} {action : Action}

theorem CallMove.aims (move : CallMove deployment state index call action next)
    (formed : state.database.WellFormed) (aims : call.Aims state) :
    next.Aims state := by
  have carried : state.carried next = state.carried call :=
    State.carried_congr move.workerId.2
  have slot : ∃ slot, next.message = some slot ∧ slot < state.queue.length := by
    rw [move.workerId.2]
    exact aims.slot
  have todo : ∀ taskId ∈ next.todo, state.carried next = some taskId := by
    intro taskId member
    rw [carried]
    exact aims.named taskId (.inr (move.todo.mem member))
  cases move with
  | ignored slotIndex message now phase subscribed delivered
  | busy taskId now phase | vanished taskId phase =>
      refine .of_named slot ?_ (by simp) (fun _ => rfl)
      rintro taskId (working | member)
      · cases working
      · exact todo taskId member
  | failed | raised | crashed =>
      refine .of_named slot ?_ (by simp [Call.close]) (fun _ => rfl)
      rintro taskId (working | member)
      · cases working
      · cases member
  | terminal slotIndex message now taskId row phase subscribed delivered named
      member same terminal =>
      refine ⟨slot, ?_, ?_, ?_⟩
      · rintro otherId (working | inTodo)
        · cases working
          rw [carried, State.carried_eq_some subscribed delivered]
          exact named
        · exact todo otherId inTodo
      · intro otherId other
        cases other
        refine ⟨row, ?_, terminal⟩
        rw [← same]
        exact formed.task_eq member
      · intro requestId own reference other
        cases other
  | unfinished slotIndex message now taskId phase subscribed delivered named =>
      refine .of_named slot ?_ (by simp) (fun _ => rfl)
      rintro otherId (working | inTodo)
      · cases working
        rw [carried, State.carried_eq_some subscribed delivered]
        exact named
      · exact todo otherId inTodo
  | skipped taskId rest phase =>
      refine .of_named slot ?_ ?_ (call.refreshes_resume false)
      · rintro otherId (working | inTodo)
        · unfold Call.resume at working
          cases message : call.message with
          | none => simp [message, Phase.task?] at working
          | some slotIndex => simp [message, Phase.task?] at working
        · exact todo otherId inTodo
      · intro otherId
        unfold Call.resume
        cases call.message <;> simp
  | worked taskId work phase =>
      refine .of_named slot ?_ (by simp) (fun _ => rfl)
      rintro otherId (working | inTodo)
      · rw [carried]
        apply aims.named otherId
        left
        rw [phase]
        exact working
      · exact todo otherId inTodo
  | uploaded now requestId own reference phase =>
      refine ⟨slot, ?_, ?_, ?_⟩
      · rintro otherId (working | inTodo)
        · cases working
        · exact todo otherId inTodo
      · intro otherId other
        cases other
      · intro lockedId lockedOwn lockedReference other
        cases other
        exact aims.refreshing requestId own none phase

theorem CallMove.leavesOpen
    (move : CallMove deployment state index call action next)
    (leaves : call.LeavesOpen state) : next.LeavesOpen state := by
  intro requestId own reference phase
  obtain ⟨before, after⟩ := move.refreshing phase
  rw [after]
  exact leaves requestId own none before

/-- Messages about tasks are never dropped unread. -/
theorem CallMove.quiet (move : CallMove deployment state index call action next)
    (posted : Posted state) (aims : call.Aims state)
    (returned : next.phase = .returned true) : state.carried next = none := by
  have carried : state.carried next = state.carried call :=
    State.carried_congr move.workerId.2
  cases move with
  | ignored slot message now phase subscribed delivered missing =>
      rw [carried, State.carried_eq_some subscribed delivered]
      cases named : message.body.taskId? with
      | none => rfl
      | some taskId =>
          obtain ⟨row, rowMember, body⟩ :=
            posted.messages message (List.mem_of_getElem? delivered)
          rw [body] at named
          obtain ⟨task, found⟩ := posted.aimed row rowMember taskId named
          obtain ⟨member, same⟩ := Database.task_mem found
          exact absurd same (missing taskId (body ▸ named) task member)
  | vanished taskId phase missing =>
      obtain ⟨row, found, _⟩ := aims.duplicate taskId phase
      obtain ⟨member, same⟩ := Database.task_mem found
      exact absurd same (missing row member)
  | skipped taskId todo phase =>
      have resumed : call.resume false = .returned true := returned
      unfold Call.resume at resumed
      cases message : call.message with
      | none => simp [message] at resumed
      | some slot => simp [message] at resumed
  | _ => cases returned

end CallMove

namespace Delivered

variable {deployment : Deployment} {state next : State}

theorem created (delivered : Delivered state) (core : Core state)
    (leads : state.database.Leads next.database)
    (none_ : state.database.NoneFinished next.database) {intake : Intake}
    {runtime : Runtime}
    (fresh : state.database.unused intake.drawnIds = true)
    (shape : next = { state with
      database := intake.insertRows runtime state.database }) :
    Delivered next := by
  subst shape
  refine delivered.carry core leads none_ List.prefix_rfl ?_
    (fun taskId settled => settled) (fun call member => .inl member)
  intro requestId row found
  cases oldFound : state.database.request requestId with
  | some old => exact .inl ⟨old, rfl⟩
  | none =>
      right
      dsimp only at found ⊢
      rw [Database.insertRows_request, oldFound] at found
      refine ⟨?_, ?_⟩
      · cases tasks : (intake.insertRows runtime
            state.database).tasksOf requestId with
        | nil => exact .inl rfl
        | cons task rest =>
            refine .inr ⟨task.id, List.mem_map_of_mem List.mem_cons_self, ?_⟩
            have member : task ∈ (intake.insertRows runtime
                state.database).tasksOf requestId := by
              rw [tasks]
              exact List.mem_cons_self
            obtain ⟨inTable, owned⟩ := Database.mem_tasksOf.mp member
            rcases List.mem_append.mp inTable with old | new
            · obtain ⟨owner, ownerFound⟩ := core.tidy.tables.owned task old
              rw [owned, oldFound] at ownerFound
              cases ownerFound
            · intro settled
              obtain ⟨_, _, freshTasks, _⟩ := Database.unused_iff.mp fresh
              obtain ⟨known, knownFound, _⟩ := delivered.settled task.id settled
              obtain ⟨knownMember, same⟩ := Database.task_mem knownFound
              apply freshTasks known knownMember
              rw [same]
              exact Intake.task_id_mem new
      · have isNew : row = intake.request runtime := by
          obtain ⟨member, _⟩ := Table.get_mem found
          exact List.mem_singleton.mp member
        rw [isNew]
        exact not_false

theorem relayed (delivered : Delivered state) (core : Core state)
    {action : Action} {relays : List Relay} {extra : List QueueMessage}
    {outbox : List OutboxEvent}
    (move : RelayMove deployment state action relays extra outbox)
    (leads : state.database.Leads next.database)
    (none_ : state.database.NoneFinished next.database)
    (grows : state.bodies <+: next.bodies)
    (shape : next = { state with
      relays
      queue := state.queue ++ extra
      database := { state.database with outbox } }) :
    Delivered next := by
  subst shape
  refine delivered.carry core leads none_ grows ?_
    (delivered.settled_of grows ?_ (fun call member => .inl member))
    (fun call member => .inl member)
  · intro requestId row found
    exact .inl ⟨row, found⟩
  · intro message member isAcked taskId named
    rcases List.mem_append.mp member with old | new
    · exact .inl ⟨message, old, isAcked, named⟩
    · rw [move.unacked message new] at isAcked
      cases isAcked

theorem opened (delivered : Delivered state) (core : Core state)
    {workerId : String} {message : Nat} {executor : Bool}
    (leads : state.database.Leads next.database)
    (none_ : state.database.NoneFinished next.database)
    (grows : state.bodies <+: next.bodies)
    (bound : message < state.queue.length)
    (shape : next = { state with calls := state.calls ++ [{
      workerId, message := some message, executor, session := .empty
      todo := [], phase := .received }] }) :
    Delivered next := by
  subst shape
  refine delivered.carry core leads none_ grows ?_
    (delivered.settled_of grows (acked_of_queue rfl) ?_) ?_
  · intro requestId row found
    exact .inl ⟨row, found⟩
  · intro call member
    rcases State.mem_append_call member with new | old
    · rw [new]
      exact .inr (by simp)
    · exact .inl old
  · intro call member
    rcases State.mem_append_call member with new | old
    · rw [new]
      refine .inr ⟨.of_named ⟨message, rfl, bound⟩ ?_ (by simp)
        (fun _ => rfl), Call.leavesOpen_of_phase (fun _ => rfl)⟩
      rintro taskId (working | inTodo)
      · cases working
      · cases inTodo
    · exact .inl old

theorem acked (delivered : Delivered state) (core : Core state) {index : Nat}
    {call : Call} {slot : Nat} {message : QueueMessage}
    (leads : state.database.Leads next.database)
    (none_ : state.database.NoneFinished next.database)
    (grows : state.bodies <+: next.bodies)
    (found : state.calls[index]? = some call)
    (subscribed : call.message = some slot)
    (received : state.queue[slot]? = some message)
    (returned : call.phase = .returned true)
    (shape : next = { (state.put index call.close) with
      queue := state.queue.set slot { message with acked := true } }) :
    Delivered next := by
  have member := List.mem_of_getElem? found
  have aims := delivered.aims call member
  have closed : call.close.Aims next := by
    refine .of_named ?_ ?_ (by simp [Call.close]) (fun _ => rfl)
    · obtain ⟨aimed, same, bound⟩ := aims.slot
      exact ⟨aimed, same, Nat.lt_of_lt_of_le bound (State.length_le grows)⟩
    · rintro taskId (working | inTodo)
      · cases working
      · cases inTodo
  subst shape
  refine delivered.carry core leads none_ grows ?_
    (delivered.settled_of grows ?_ ?_) ?_
  · intro requestId row requestFound
    exact .inl ⟨row, requestFound⟩
  · intro other inQueue isAcked taskId named
    rcases List.mem_or_eq_of_mem_set inQueue with old | new
    · exact .inl ⟨other, old, isAcked, named⟩
    · right
      refine ⟨call, member, returned, ?_⟩
      rw [State.carried_eq_some subscribed received]
      rw [new] at named
      exact named
  · intro other inNext
    rcases State.mem_put inNext with new | old
    · rw [new]
      right
      intro phase
      cases phase
    · exact .inl old
  · intro other inNext
    rcases State.mem_put inNext with new | old
    · rw [new]
      exact .inr ⟨closed, Call.leavesOpen_of_phase (fun _ => rfl)⟩
    · exact .inl old

/-- A call that returns true has seen its task end. -/
theorem terminal_of_refreshResult {call : Call} {database : Database}
    (agrees : call.session.Agrees database) {own : Option String}
    {taskId : String} {row : RequestTask}
    (rowFound : database.task taskId = some row)
    (isOwn : ∀ ownId, own = some ownId → ownId = taskId)
    (final : own = none → row.status.Terminal)
    (result : call.refreshResult own = true) : row.status.Terminal := by
  cases own with
  | none => exact final rfl
  | some ownId =>
      unfold Call.refreshResult at result
      dsimp only at result
      split at result
      next copy held =>
        rw [isOwn ownId rfl] at held
        obtain ⟨known, knownFound, _, kept⟩ := agrees.task taskId copy held
        rw [rowFound] at knownFound
        cases knownFound
        have terminal : copy.status.Terminal := by
          rw [of_decide_eq_true result]
          trivial
        exact kept terminal ▸ terminal
      next => cases result

/-- Before its lock, a call works on a task of the request it refreshes. -/
theorem aims_locked (delivered : Delivered state) (core : Core state)
    {index : Nat} {call : Call} {requestId : String} {own : Option String}
    {session : Session}
    (found : state.calls[index]? = some call)
    (target : call.RefreshTarget state.database requestId own session) :
    ∃ taskId row, state.carried call = some taskId ∧
      state.database.task taskId = some row ∧ row.requestId = requestId ∧
      (∀ ownId, own = some ownId → ownId = taskId) ∧
      (own = none → row.status.Terminal) := by
  have member := List.mem_of_getElem? found
  have aims := delivered.aims call member
  cases target with
  | recorded taskId task phase held =>
      obtain ⟨row, rowFound, key, _⟩ :=
        (core.sessions call member).task taskId task held
      refine ⟨taskId, row, aims.named taskId (.inl (by rw [phase]; rfl)),
        rowFound, key.symm, ?_, ?_⟩
      · intro ownId same
        exact (Option.some.inj same).symm
      · intro none_
        cases none_
  | duplicate taskId row phase rowMember same =>
      obtain ⟨current, currentFound, terminal⟩ := aims.duplicate taskId phase
      have rowFound := core.tidy.tables.task_eq rowMember
      rw [same, currentFound] at rowFound
      cases rowFound
      refine ⟨taskId, row, aims.named taskId (.inl (by rw [phase]; rfl)),
        currentFound, rfl, ?_, fun _ => terminal⟩
      intro ownId none_
      cases none_

/-- A refresh that misses open tasks leaves one that is not its own success. -/
theorem leavesOpen_locked (delivered : Delivered state) (core : Core state)
    {index : Nat} {call : Call} {requestId : String} {own : Option String}
    {session : Session}
    (current : ViewsCurrent state (.refreshSelect index))
    (found : state.calls[index]? = some call)
    (target : call.RefreshTarget state.database requestId own session) :
    Call.LeavesOpen { call with
      session := session.loadRefresh state.database requestId
      phase := .refreshing requestId own none } state := by
  obtain ⟨⟨owner, ownerFound⟩, agrees⟩ := core.target_agrees found target
  obtain ⟨taskId, row, carried, rowFound, owned, isOwn, final⟩ :=
    delivered.aims_locked core found target
  have view := agrees.loadRefresh core.tidy.tables ownerFound
  intro lockedId lockedOwn reference phase open_
  cases phase
  -- By the condition some committed task is open, so it is not settled.
  have openTask : ∃ task ∈ state.database.tasksOf requestId,
      ¬ task.status.Terminal := by
    by_contra none_
    push Not at none_
    apply open_
    apply agrees.seesTerminal _ none_
    exact current _ (target.refreshTarget core.tidy.tables found) none_
  obtain ⟨task, inTasks, taskOpen⟩ := openTask
  have lookup := core.tidy.tables.task_eq (Database.mem_tasksOf.mp inTasks).1
  refine ⟨taskId, carried, task.id, List.mem_map_of_mem inTasks, ?_, ?_⟩
  · intro settled
    obtain ⟨known, knownFound, terminal⟩ := delivered.settled task.id settled
    rw [lookup] at knownFound
    cases knownFound
    exact taskOpen terminal
  · intro result same
    rw [same, rowFound] at lookup
    apply taskOpen
    rw [← Option.some.inj lookup]
    exact terminal_of_refreshResult view rowFound isOwn final result

section Refresh

variable {index : Nat} {call after : Call} {taskId : String} {result : Bool}

/-- A call that returns settles its own task at most. -/
theorem settled_of_return (queue : next.queue = state.queue)
    (calls : next.calls = (state.put index after).calls)
    (message : after.message = call.message)
    (returned : after.phase = .returned result)
    (carried : state.carried call = some taskId) {otherId : String}
    (settled : next.Settled otherId) :
    state.Settled otherId ∨ otherId = taskId ∧ result = true := by
  have same : next.bodies = state.bodies :=
    congrArg (List.map QueueMessage.body) queue
  have carries : ∀ other, next.carried other = state.carried other := by
    intro other
    unfold State.carried
    rw [same]
  rcases settled with ⟨acknowledged, inQueue, isAcked, named⟩ |
    ⟨current, inNext, isReturned, named⟩
  · exact .inl (.inl ⟨acknowledged, queue ▸ inQueue, isAcked, named⟩)
  · rw [carries] at named
    rw [calls] at inNext
    rcases State.mem_put inNext with new | old
    · rw [new, returned] at isReturned
      rw [new, State.carried_congr message, carried] at named
      exact .inr ⟨(Option.some.inj named).symm, Phase.returned.inj isReturned⟩
    · exact .inl (.inr ⟨current, old, isReturned, named⟩)

/-- A call that returns has its message and what it had left to do. -/
theorem aims_of_return (aims : call.Aims state)
    (message : after.message = call.message) (todo : after.todo = call.todo)
    (returned : after.phase = .returned result) : after.Aims state := by
  refine .of_named (message ▸ aims.slot) ?_ ?_ ?_
  · rintro otherId (working | inTodo)
    · rw [returned] at working
      cases working
    · rw [State.carried_congr message]
      exact aims.named otherId (.inr (todo ▸ inTodo))
  · simp [returned]
  · intro requestId
    rw [returned]
    rfl

/-- A task of another request is not the one that a call settles. -/
theorem foreign_task (core : Core state) {row : RequestTask}
    (rowFound : state.database.task taskId = some row) {requestId : String}
    (different : requestId ≠ row.requestId) :
    taskId ∉ (state.database.tasksOf requestId).map RequestTask.id := by
  intro inIds
  obtain ⟨task, inTasks, same⟩ := List.mem_map.mp inIds
  obtain ⟨inTable, owner⟩ := Database.mem_tasksOf.mp inTasks
  have lookup := core.tidy.tables.task_eq inTable
  rw [same, rowFound] at lookup
  cases lookup
  exact different owner.symm

end Refresh

/-- The refreshed request is terminal, or the view that derived another status
leaves an open task unsettled. -/
theorem unfinished_refresh (delivered : Delivered state) (core : Core state)
    {call : Call} {requestId : String} {own reference : Option String}
    {request owner : PrivacyRequest} {taskId : String}
    (member : call ∈ state.calls)
    (phase : call.phase = .refreshing requestId own reference)
    (held : call.session.request requestId = some request)
    (ownerFound : state.database.request requestId = some owner)
    (carried : state.carried call = some taskId)
    (settles : ∀ otherId, next.Settled otherId → state.Settled otherId ∨
      otherId = taskId ∧ call.refreshResult own = true) (now : Time) :
    (Database.refreshRow request (call.session.derivedStatus requestId)
        reference now owner).status.Terminal ∨
      state.database.tasksOf requestId = [] ∨
      ∃ left ∈ (state.database.tasksOf requestId).map RequestTask.id,
        ¬ next.Settled left := by
  by_cases empty : state.database.tasksOf requestId = []
  · exact .inr (.inl empty)
  by_cases sees : call.session.SeesTerminal requestId
  · left
    have derived := core.derived_terminal member phase sees empty
    rcases core.refreshRow_status member phase held ownerFound now with
      isDerived | ⟨notDerived, _⟩
    · rw [isDerived]
      exact derived
    · exact absurd derived notDerived
  · obtain ⟨ownTask, ownCarried, left, inIds, unsettled, apart⟩ :=
      delivered.views call member requestId own reference phase sees
    rw [carried] at ownCarried
    cases ownCarried
    refine .inr (.inr ⟨left, inIds, ?_⟩)
    intro settled
    rcases settles left settled with before | ⟨isTask, result⟩
    · exact unsettled before
    · exact apart result isTask

theorem refreshed (delivered : Delivered state) (core : Core state)
    (leads : state.database.Leads next.database) {index : Nat} {call : Call}
    {requestId : String} {own reference : Option String}
    {request : PrivacyRequest} {noticeId : String} {now : Time}
    (found : state.calls[index]? = some call)
    (phase : call.phase = .refreshing requestId own reference)
    (held : call.session.request requestId = some request)
    (uploaded : request.needsArtifact
      (call.session.derivedStatus requestId) = true → reference.isSome = true)
    (shape : next = { (state.put index { call with
        session := call.session.putRequest (request.refresh
          (call.session.derivedStatus requestId) reference)
        phase := call.resume (call.refreshResult own) }) with
      database := commitRefresh deployment.runtime call.session request
        reference noticeId now state.database }) :
    Delivered next := by
  have member := List.mem_of_getElem? found
  have agrees := core.sessions call member
  have aims := delivered.aims call member
  obtain ⟨owner, ownerFound, key, kind, _, path⟩ :=
    agrees.request requestId request held
  obtain ⟨taskId, row, carried, rowFound, owned, isOwn, final⟩ :=
    aims.refreshing requestId own reference phase
  have returns : call.resume (call.refreshResult own) =
      .returned (call.refreshResult own) := by
    obtain ⟨slot, message, _⟩ := aims.slot
    rw [Call.resume, message]
  have grows : state.bodies <+: next.bodies := by
    rw [shape]
    exact List.prefix_rfl
  have queue : next.queue = state.queue := by
    rw [shape]
    rfl
  have calls : next.calls = (state.put index { call with
      session := call.session.putRequest (request.refresh
        (call.session.derivedStatus requestId) reference)
      phase := call.resume (call.refreshResult own) }).calls := by
    rw [shape]
  have settles : ∀ otherId, next.Settled otherId → state.Settled otherId ∨
      otherId = taskId ∧ call.refreshResult own = true := by
    intro otherId
    exact settled_of_return queue calls rfl returns carried
  have foreign : ∀ otherId, otherId ≠ requestId →
      ∀ other ∈ (state.database.tasksOf otherId).map RequestTask.id,
        next.Settled other → state.Settled other := by
    intro otherId different other inIds settled
    rcases settles other settled with before | ⟨isTask, _⟩
    · exact before
    · rw [isTask] at inIds
      exact absurd inIds (foreign_task core rowFound (owned.symm ▸ different))
  have others : ∀ otherId, otherId ≠ requestId →
      next.database.request otherId = state.database.request otherId := by
    intro otherId different
    rw [shape]
    apply Database.commitRefresh_request_of_ne
    rw [key]
    exact different
  have written : next.database.request requestId = some (Database.refreshRow
      request (call.session.derivedStatus requestId) reference now owner) := by
    rw [shape]
    dsimp only
    rw [(Database.commitRefresh_revises ..).request_eq, ownerFound, key]
    rfl
  refine ⟨?_, ?_, ?_, ?_, ?_⟩
  · intro current inNext
    rw [calls] at inNext
    rcases State.mem_put inNext with new | old
    · rw [new]
      apply Call.Aims.of_leads _ leads grows
      exact aims_of_return aims rfl rfl returns
    · exact (delivered.aims current old).of_leads leads grows
  · intro otherId settled
    apply terminal_of_leads leads
    rcases settles otherId settled with before | ⟨isTask, result⟩
    · exact delivered.settled otherId before
    · rw [isTask]
      exact ⟨row, rowFound,
        terminal_of_refreshResult agrees rowFound isOwn final result⟩
  · intro current inNext
    obtain ⟨other, located⟩ := List.getElem?_of_mem inNext
    rw [calls] at located
    rcases State.put_cases found located with ⟨_, new⟩ | ⟨away, old⟩
    · rw [new]
      exact Call.leavesOpen_of_phase (call.refreshes_resume _)
    · have oldMember := List.mem_of_getElem? old
      refine leavesOpen_of_leads (delivered.aims current oldMember)
        core.tidy.tables leads grows ?_ (delivered.views current oldMember)
      intro lockedId locks
      exact foreign lockedId
        (core.locks.elsewhere found phase away old locks)
  · intro otherId current currentFound
    by_cases same : otherId = requestId
    · subst same
      have ids := leads.members otherId owner ownerFound
      rw [written] at currentFound
      cases currentFound
      rcases delivered.unfinished_refresh core member phase held ownerFound
        carried settles now with terminal | empty | ⟨left, inIds, unsettled⟩
      · exact .inl terminal
      · rw [empty] at ids
        exact .inr (.inl (List.map_eq_nil_iff.mp ids))
      · exact .inr (.inr ⟨left, ids ▸ inIds, unsettled⟩)
    · exact delivered.unfinished_of_leads leads
        (others otherId same ▸ currentFound) currentFound
        (foreign otherId same)
  · intro otherId current currentFound isAccess status
    by_cases same : otherId = requestId
    · subst same
      rw [written] at currentFound
      cases currentFound
      have hit : decide (owner.id = request.id) = true := decide_eq_true
        ((Database.request_mem ownerFound).2.trans key.symm)
      rw [Database.refreshRow, if_pos hit] at isAccess status ⊢
      exact PrivacyRequest.path_flush_finished kind path uploaded
        (delivered.artifacts otherId owner ownerFound) isAccess status
    · rw [others otherId same] at currentFound
      exact delivered.artifacts otherId current currentFound isAccess status

theorem step {action : Action} (delivered : Delivered state)
    (steady : Steady state) (posted : Posted state)
    (queued : action.queued = true) (current : ViewsCurrent state action)
    (leads : state.database.Leads next.database)
    (stepped : FleetPrivacy.step deployment state action = some next) :
    Delivered next := by
  have core := steady.core
  have same := Database.revises_refl state.database state.database.outbox
  have effect := effect_of_step core.tidy.tables.taskIds stepped
  have none_ := effect.noneFinished
  have grows := effect.bodies
  cases effect with
  | created intake nodup fresh absent =>
      exact delivered.created core leads (none_ (by simp)) fresh rfl
  | relayed action relays extra outbox move =>
      refine delivered.relayed core move leads (none_ ?_) grows rfl
      cases move <;> simp
  | opened workerId message executor bound =>
      exact delivered.opened core leads (none_ (by simp)) grows bound rfl
  | moved action index call after artifacts found move =>
      have member := List.mem_of_getElem? found
      have aims := delivered.aims call member
      refine delivered.put core leads (none_ ?_) same rfl rfl
        (move.aims core.tidy.tables aims)
        (move.leavesOpen (delivered.views call member))
        (move.quiet posted aims)
      cases move <;> simp
  | messageClaimed index call taskId now found phase claims startable =>
      have aims := delivered.aims call (List.mem_of_getElem? found)
      refine delivered.put core leads (none_ (by simp))
        (Database.markClaimed_revises ..) rfl rfl
        (.of_named aims.slot ?_ (by simp) (fun _ => rfl))
        (Call.leavesOpen_of_phase (fun _ => rfl)) (by simp)
      rintro otherId (working | inTodo)
      · cases working
      · cases List.mem_singleton.mp inTodo
        exact aims.named taskId (.inl (by rw [phase]; rfl))
  | batchClaimed => cases queued
  | selected index call taskId todo row found phase rest member hit leased =>
      have aims := delivered.aims call (List.mem_of_getElem? found)
      refine delivered.put core leads (none_ (by simp)) same rfl rfl
        (.of_named aims.slot ?_ (by simp) (fun _ => rfl))
        (Call.leavesOpen_of_phase (fun _ => rfl)) (by simp)
      rintro otherId (working | inTodo)
      · cases working
        apply aims.named taskId
        right
        rw [rest]
        exact List.mem_cons_self
      · apply aims.named otherId
        right
        rw [rest]
        exact List.mem_cons_of_mem taskId inTodo
  | recorded index call taskId work task request now found phase held
      requestHeld free =>
      have aims := delivered.aims call (List.mem_of_getElem? found)
      refine delivered.put core leads (none_ (by simp))
        (Database.recordOutcome_revises ..) rfl rfl ?_ ?_ ?_
      · unfold Call.afterRecord
        split
        next =>
          refine .of_named aims.slot ?_ (by simp [Call.close]) (fun _ => rfl)
          rintro otherId (working | inTodo)
          · cases working
          · cases inTodo
        next =>
          refine .of_named aims.slot ?_ (by simp) (fun _ => rfl)
          rintro otherId (working | inTodo)
          · cases working
            exact aims.named taskId (.inl (by rw [phase]; rfl))
          · exact aims.named otherId (.inr inTodo)
      · apply Call.leavesOpen_of_phase
        exact call.refreshes_afterRecord deployment taskId work task request
      · unfold Call.afterRecord
        split
        next => simp [Call.close]
        next => simp
  | locked index call requestId own session found target free =>
      have aims := delivered.aims call (List.mem_of_getElem? found)
      have aimed := delivered.aims_locked core found target
      refine delivered.put core leads (none_ (by simp)) same rfl rfl
        ⟨aims.slot, ?_, by simp, ?_⟩
        (delivered.leavesOpen_locked core current found target) (by simp)
      · rintro otherId (working | inTodo)
        · cases working
        · exact aims.named otherId (.inr inTodo)
      · intro lockedId lockedOwn reference phase
        cases phase
        exact aimed
  | refreshed index call requestId own reference request noticeId now found
      phase held uploaded fresh =>
      exact delivered.refreshed core leads found phase held uploaded rfl
  | acked index call slot message found subscribed received returned =>
      exact delivered.acked core leads (none_ (by simp)) grows found subscribed
        received returned rfl
  | extended workerId taskId now =>
      refine delivered.carry core leads (none_ (by simp)) grows ?_
        (fun taskId settled => settled) (fun call member => .inl member)
      intro requestId row found
      exact .inl ⟨row, found⟩

end Delivered

theorem Delivered.initial : Delivered State.initial := by
  refine ⟨?_, ?_, ?_, ?_, ?_⟩
  · intro call member
    cases member
  · rintro taskId (⟨message, member, _⟩ | ⟨call, member, _⟩)
    · cases member
    · cases member
  · intro call member
    cases member
  · intro requestId row found
    cases found
  · intro requestId row found
    cases found

/-! ## The result -/

/-- The task will be worked on: its outbox row is unpublished, or a message
about it is not acknowledged. -/
def State.Waiting (state : State) (taskId : String) : Prop :=
  (∃ row ∈ state.database.outbox, row.publishedAt = none ∧
    (eventEnvelope row).taskId? = some taskId) ∨
  ∃ message ∈ state.queue, message.acked = false ∧
    message.body.taskId? = some taskId

/-- Work remains for every open task, and for every request whose tasks are all
terminal without its final status or its artifact. -/
def State.NothingStranded (state : State) : Prop :=
  (∀ task ∈ state.database.tasks, ¬ task.status.Terminal →
    state.Waiting task.id) ∧
  ∀ request ∈ state.database.requests,
    state.database.AllTerminal request.id →
    request.status ≠ finalStatus
        ((state.database.tasksOf request.id).map RequestTask.status) ∨
      request.kind = .access ∧ request.status ≠ .failed ∧
        request.artifactPath = none →
    ∃ task ∈ state.database.tasksOf request.id, state.Waiting task.id

instance (state : State) (taskId : String) :
    Decidable (state.Waiting taskId) :=
  inferInstanceAs (Decidable (_ ∨ _))

instance (state : State) : Decidable state.NothingStranded :=
  inferInstanceAs (Decidable (_ ∧ _))

theorem Posted.waiting {state : State} (posted : Posted state)
    {task : RequestTask} (member : task ∈ state.database.tasks)
    (unsettled : ¬ state.Settled task.id) : state.Waiting task.id := by
  obtain ⟨row, rowMember, named⟩ := posted.ready task member
  by_cases unpublished : row.publishedAt = none
  · exact .inl ⟨row, rowMember, unpublished, named⟩
  · obtain ⟨message, inQueue, body⟩ :=
      posted.published row rowMember unpublished
    rw [← body] at named
    refine .inr ⟨message, inQueue, ?_, named⟩
    by_contra isAcked
    rw [Bool.not_eq_false] at isAcked
    exact unsettled (.inl ⟨message, inQueue, isAcked, named⟩)

/-- The steps of the queue deployment after which no work is stranded. -/
def Delivering (state : State) (action : Action) : Prop :=
  QueueDriven state action ∧ ViewsCurrent state action

instance (state : State) (action : Action) :
    Decidable (Delivering state action) :=
  inferInstanceAs (Decidable (_ ∧ _))

/-- On PostgreSQL the queue deployment strands no work. -/
theorem no_work_is_stranded (deployment : Deployment)
    (postgresql : deployment.dialect = .postgresql) {actions : List Action}
    {state : State}
    (execution : Runs (step deployment) Delivering State.initial actions
      state) : state.NothingStranded := by
  have preserved : ∀ {before : State} {action : Action} {after : State},
      Steady before ∧ Posted before ∧ Delivered before →
      Delivering before action →
      step deployment before action = some after →
      Steady after ∧ Posted after ∧ Delivered after := by
    rintro before action after ⟨steady, posted, delivered⟩
      ⟨⟨queued, live⟩, current⟩ stepped
    have refreshes : ∀ index, action = .refreshSelect index →
        Fenced before (.refreshSelect index) := by
      rintro index rfl
      exact steady.core.fenced_of_viewsCurrent current
    obtain ⟨next, leads⟩ := steady.step postgresql live refreshes stepped
    exact ⟨next, posted.step steady.core.tidy stepped,
      delivered.step steady posted queued current leads stepped⟩
  obtain ⟨steady, posted, delivered⟩ := execution.invariant preserved
    ⟨Steady.initial, Posted.initial, Delivered.initial⟩
  have formed := steady.core.tidy.tables
  refine ⟨?_, ?_⟩
  · intro task member open_
    apply posted.waiting member
    intro settled
    obtain ⟨row, found, terminal⟩ := delivered.settled task.id settled
    rw [formed.task_eq member] at found
    cases found
    exact open_ terminal
  · intro request member all incomplete
    have found := formed.request_eq member
    rcases delivered.unfinished request.id request found with
      terminal | empty | ⟨taskId, inIds, unsettled⟩
    · exfalso
      have finished := steady.core.finished request.id request found terminal
      have derived := deriveStatus_eq_finalStatus
        (mt List.map_eq_nil_iff.mp all.1) (by
          intro status inStatuses
          obtain ⟨task, inTasks, rfl⟩ := List.mem_map.mp inStatuses
          exact all.2 task inTasks)
      rcases incomplete with wrong | ⟨access, notFailed, missing⟩
      · exact wrong (finished.trans derived)
      · refine delivered.artifacts request.id request found access ?_ missing
        revert terminal notFailed
        cases request.status <;> simp [RequestStatus.Terminal]
    · exact absurd empty all.1
    · obtain ⟨task, inTasks, rfl⟩ := List.mem_map.mp inIds
      exact ⟨task, inTasks,
        posted.waiting (Database.mem_tasksOf.mp inTasks).1 unsettled⟩

/-! The message of a task is delivered twice.  The first execution schedules a
retry; the second succeeds, and is acknowledged. -/

private def retriedTask : List Action :=
  .create demoRequest :: demoRelay 0 2 ++
    [.deliver "w1" 1 true, .deliver "w2" 1 false] ++
    demoExecution 0 { ending := .raised "timeout", deleted := [], deletedAt := 0 }

private def refreshAndAck : List Action :=
  demoExecution 1 demoSuccess ++
    [.refreshSelect 1, .upload 1 true 13, .refreshCommit 1 "n" 14, .ack 1]

private def refreshBeforeRetry : List Action :=
  retriedTask ++ [.refreshSelect 0, .refreshCommit 0 "m" 12] ++ refreshAndAck

theorem retry_after_refresh_completes :
    ∃ state, Runs (step demoDeployment) Delivering State.initial
        refreshBeforeRetry state ∧
      state.database.requests.map PrivacyRequest.status = [.completed] ∧
      state.NothingStranded := by
  have evaluated : (run (step demoDeployment) Delivering State.initial
      refreshBeforeRetry).map (fun state =>
        state.database.requests.map PrivacyRequest.status) =
      some [.completed] := by
    decide +kernel
  obtain ⟨state, result, statuses⟩ := Option.map_eq_some_iff.mp evaluated
  have execution := runs_of_run result
  exact ⟨state, execution, statuses,
    no_work_is_stranded demoDeployment rfl execution⟩

/-! The first execution refreshes last, from its own `PENDING` copy. -/

private def refreshAfterRetry : List Action :=
  retriedTask ++ refreshAndAck ++ [.refreshSelect 0, .refreshCommit 0 "m" 15]

theorem late_refresh_strands_request :
    ∃ state, Runs (step demoDeployment) QueueDriven State.initial
        refreshAfterRetry state ∧ ¬ state.NothingStranded := by
  have evaluated : (run (step demoDeployment) QueueDriven State.initial
      refreshAfterRetry).map (fun state => decide state.NothingStranded) =
      some false := by
    decide +kernel
  obtain ⟨state, result, stranded⟩ := Option.map_eq_some_iff.mp evaluated
  exact ⟨state, runs_of_run result, of_decide_eq_false stranded⟩

end FleetPrivacy
