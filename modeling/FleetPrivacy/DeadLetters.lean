import FleetPrivacy.Accounting
import FleetPrivacy.Delivery

/-!
# Receive counts and the retry budget

SQS counts the receives of a message and moves it to the dead-letter queue
instead of delivering it once more; the database counts the attempts of a task.
A delivery that commits the outcome of an execution uses up one of each.  While
leases live and only messages with such deliveries are moved, an open task
keeps a message that can still be delivered.
-/

namespace FleetPrivacy

open Transition

/-- `maxReceiveCount` of the redrive policy. -/
def maxReceiveCount : Nat := 5

/-- The control plane, the messages that were moved to the dead-letter queue,
and a record of the executions that have returned or raised and committed. -/
structure RedriveState where
  control : State
  deadLetters : List Nat
  executions : List Claim

def RedriveState.initial : RedriveState :=
  { control := .initial, deadLetters := [], executions := [] }

inductive RedriveAction where
  | perform (action : Action)
  | deadLetter (message : Nat)

/-- How often the message was received. -/
def State.receives (state : State) (message : Nat) : Nat :=
  state.calls.countP fun call => decide (call.message = some message)

/-- The handler has returned without success, or its worker is gone. -/
def Phase.ended : Phase → Bool
  | .returned false | .closed => true
  | _ => false

/-- No delivery of the message is being handled and keeps it invisible. -/
def State.visible (state : State) (message : Nat) : Bool :=
  state.calls.all fun call =>
    !decide (call.message = some message) || call.phase.ended

/-- The execution whose outcome an action commits, unless it was cancelled. -/
def State.execution (state : State) : Action → List Claim
  | .recordTask index _ =>
      match state.recording index with
      | some (_, taskId, work) =>
          if work.ending = .cancelled then [] else [⟨index, taskId⟩]
      | none => []
  | _ => []

/-- The queue delivers what it has not moved, up to the receive limit. -/
def RedriveState.receivable (state : RedriveState) : Action → Bool
  | .deliver _ message _ =>
      decide (message ∉ state.deadLetters) &&
        decide (state.control.receives message < maxReceiveCount)
  | _ => true

def deadLetterStep (state : RedriveState) (message : Nat) :
    Option RedriveState := do
  let entry ← state.control.queue[message]?
  if !entry.acked && decide (message ∉ state.deadLetters) &&
      decide (maxReceiveCount ≤ state.control.receives message) &&
      state.control.visible message then
    some { state with deadLetters := message :: state.deadLetters }
  else none

def performStep (deployment : Deployment) (state : RedriveState)
    (action : Action) : Option RedriveState :=
  if state.receivable action then
    (step deployment state.control action).map fun control =>
      { state with
        control
        executions := state.executions ++ state.control.execution action }
  else none

def redriveStep (deployment : Deployment) (state : RedriveState) :
    RedriveAction → Option RedriveState
  | .perform action => performStep deployment state action
  | .deadLetter message => deadLetterStep state message

/-- An open task whose `privacy_task.ready` row is published has a message that
is neither acknowledged nor dead-lettered. -/
def RedriveState.Deliverable (state : RedriveState) : Prop :=
  ∀ task ∈ state.control.database.tasks, ¬ task.status.Terminal →
    ∀ row ∈ state.control.database.outbox,
      (eventEnvelope row).taskId? = some task.id → row.publishedAt ≠ none →
      ∃ entry ∈ state.control.queue.zipIdx,
        entry.1.body.taskId? = some task.id ∧ entry.1.acked = false ∧
          entry.2 ∉ state.deadLetters

instance (state : RedriveState) : Decidable state.Deliverable :=
  inferInstanceAs (Decidable (∀ task ∈ state.control.database.tasks,
    ¬ task.status.Terminal → ∀ row ∈ state.control.database.outbox,
      (eventEnvelope row).taskId? = some task.id → row.publishedAt ≠ none →
      ∃ entry ∈ state.control.queue.zipIdx,
        entry.1.body.taskId? = some task.id ∧ entry.1.acked = false ∧
          entry.2 ∉ state.deadLetters))

/-! ## The condition -/

/-- The queue deployment, while leases live. -/
def RedriveLeases (state : RedriveState) : RedriveAction → Prop
  | .perform action => QueueDriven state.control action
  | .deadLetter _ => True

/-- Every delivery of a dead-lettered message has committed an execution. -/
def Exhausted (state : RedriveState) : RedriveAction → Prop
  | .perform _ => True
  | .deadLetter message =>
      ∀ index < state.control.calls.length,
        (state.control.calls[index]?.bind Call.message) = some message →
          index ∈ state.executions.map Claim.slot

def WithinBudget (state : RedriveState) (action : RedriveAction) : Prop :=
  RedriveLeases state action ∧ Exhausted state action

instance (state : RedriveState) (action : RedriveAction) :
    Decidable (RedriveLeases state action) :=
  match action with
  | .perform action =>
      inferInstanceAs (Decidable (QueueDriven state.control action))
  | .deadLetter _ => .isTrue trivial

instance (state : RedriveState) (action : RedriveAction) :
    Decidable (Exhausted state action) :=
  match action with
  | .perform _ => .isTrue trivial
  | .deadLetter message =>
      inferInstanceAs (Decidable (∀ index < state.control.calls.length,
        (state.control.calls[index]?.bind Call.message) = some message →
          index ∈ state.executions.map Claim.slot))

instance (state : RedriveState) (action : RedriveAction) :
    Decidable (WithinBudget state action) :=
  inferInstanceAs (Decidable (_ ∧ _))

/-! ## Calls and their messages -/

def Database.Done (database : Database) (taskId : String) : Prop :=
  ∃ row, database.task taskId = some row ∧ row.status.Terminal

/-- The task that a call works on, or whose outcome it has committed. -/
def Phase.names : Phase → Option String
  | .refreshing _ own _ => own
  | phase => phase.task?

/-- The call takes its task for finished. -/
def Phase.settles : Phase → Bool
  | .duplicate _ | .refreshing _ none _ | .returned true => true
  | _ => false

theorem Call.names_resume (call : Call) (result : Bool) :
    (call.resume result).names = none := by
  unfold Call.resume
  cases call.message with
  | none => rfl
  | some slot => rfl

theorem Call.result_of_settles (call : Call) {result : Bool}
    (settles : (call.resume result).settles = true) : result = true := by
  unfold Call.resume at settles
  cases subscribed : call.message with
  | none =>
      rw [subscribed] at settles
      cases settles
  | some slot =>
      rw [subscribed] at settles
      cases result with
      | true => rfl
      | false => cases settles

structure Call.Tracks (call : Call) (state : State) : Prop where
  named : ∀ taskId, call.phase.names = some taskId ∨ taskId ∈ call.todo →
    state.carried call = some taskId
  settled : call.phase.settles = true →
    ∀ taskId, state.carried call = some taskId → state.database.Done taskId

/-- What the invariants of the queue deployment provide for one step. -/
structure Attended (state : State) : Prop where
  sound : state.Sound
  holding : Holding state
  executing : Executing state
  confirmed : Confirmed state
  posted : Posted state

theorem Attended.step {deployment : Deployment} {state next : State}
    {action : Action} (attended : Attended state)
    (live : LeasesLive state action)
    (stepped : FleetPrivacy.step deployment state action = some next) :
    Attended next := by
  have tidy := attended.sound.grounded.tidy
  have effect := effect_of_step tidy.tables.taskIds stepped
  constructor
  · exact attended.sound.effect effect
  · exact attended.holding.effect tidy live effect
  · exact attended.executing.effect attended.holding tidy live effect
  · exact attended.confirmed.effect attended.executing attended.holding
      attended.sound.grounded effect
  · exact attended.posted.step tidy stepped

theorem Attended.initial : Attended State.initial :=
  ⟨State.Sound.initial, Holding.initial, Executing.initial, Confirmed.initial,
    Posted.initial⟩

section Tracks

variable {deployment : Deployment} {state next : State} {action : Action}

theorem Attended.done (attended : Attended state)
    (effect : Effect deployment state action next) {taskId : String}
    (done : state.database.Done taskId) : next.database.Done taskId := by
  obtain ⟨row, found, terminal⟩ := done
  exact ⟨row, attended.holding.task_kept attended.sound.grounded.tidy effect
    found terminal, terminal⟩

/-- Every message about a task has its row. -/
theorem Posted.task_of_message {message : QueueMessage} {taskId : String}
    (posted : Posted state) (member : message ∈ state.queue)
    (named : message.body.taskId? = some taskId) :
    ∃ row, state.database.task taskId = some row := by
  obtain ⟨row, inOutbox, body⟩ := posted.messages message member
  rw [body] at named
  exact posted.aimed row inOutbox taskId named

theorem Posted.task_of_carried (posted : Posted state) {call : Call}
    {taskId : String} (carries : state.carried call = some taskId) :
    ∃ row, state.database.task taskId = some row := by
  obtain ⟨slot, _, carries⟩ := Option.bind_eq_some_iff.mp carries
  obtain ⟨body, located, named⟩ := Option.bind_eq_some_iff.mp carries
  unfold State.bodies at located
  rw [List.getElem?_map] at located
  obtain ⟨message, found, isBody⟩ := Option.map_eq_some_iff.mp located
  rw [← isBody] at named
  exact posted.task_of_message (List.mem_of_getElem? found) named

/-- The call names no task except the one of its message. -/
def Call.Named (call : Call) (state : State) : Prop :=
  ∀ taskId, call.phase.names = some taskId ∨ taskId ∈ call.todo →
    state.carried call = some taskId

theorem Call.Named.of_idle {call : Call} (nothing : call.phase.names = none)
    (empty : call.todo = []) : call.Named state := by
  rintro taskId (working | waiting)
  · rw [nothing] at working
    cases working
  · rw [empty] at waiting
    cases waiting

theorem CallMove.named {index : Nat} {call after : Call}
    (move : CallMove deployment state index call action after)
    (named : call.Named state) : after.Named state := by
  intro taskId names
  rw [State.carried_congr move.workerId.2]
  rcases names with working | waiting
  · cases move with
    | terminal slot message now namedId row received subscribed delivered about =>
        cases working
        exact (State.carried_eq_some subscribed delivered).trans about
    | unfinished slot message now namedId received subscribed delivered about =>
        cases working
        exact (State.carried_eq_some subscribed delivered).trans about
    | worked workedId work phase =>
        cases working
        exact named taskId (.inl (by rw [phase]; rfl))
    | uploaded now requestId own reference phase =>
        exact named taskId (.inl (by rw [phase]; exact working))
    | skipped =>
        rw [call.names_resume] at working
        cases working
    | _ => cases working
  · exact named taskId (.inr (move.todo.mem waiting))

/-- One call is replaced; the queue's messages stay. -/
theorem State.Sound.named_put (sound : state.Sound)
    (effect : Effect deployment state action next)
    (named : ∀ call ∈ state.calls, call.Named state) {index : Nat}
    {call after : Call} (found : state.calls[index]? = some call)
    (calls : next.calls = (state.put index after).calls)
    (same : after.message = call.message) (own : after.Named state) :
    ∀ other ∈ next.calls, other.Named next := by
  intro other member taskId names
  rw [calls] at member
  rcases State.mem_put member with new | old
  · have kept : next.carried after = state.carried after := by
      rw [State.carried_congr same, State.carried_congr same]
      exact sound.carried_eq (List.mem_of_getElem? found) effect
    rw [new] at names ⊢
    rw [kept]
    exact own taskId names
  · rw [sound.carried_eq old effect]
    exact named other old taskId names

/-- Every call keeps to the task of its message. -/
theorem State.Sound.named (sound : state.Sound)
    (effect : Effect deployment state action next)
    (queued : action.queued = true)
    (named : ∀ call ∈ state.calls, call.Named state) :
    ∀ call ∈ next.calls, call.Named next := by
  have kept : ∀ call ∈ state.calls, call.Named next := by
    intro call old taskId names
    rw [sound.carried_eq old effect]
    exact named call old taskId names
  have same := effect
  cases effect with
  | created | relayed | extended => exact kept
  | opened =>
      intro call member
      rcases State.mem_append_call member with new | old
      · rw [new]
        exact .of_idle rfl rfl
      · exact kept call old
  | batchClaimed => cases queued
  | moved action index call after artifacts found move =>
      exact sound.named_put same named found rfl move.workerId.2
        (move.named (named call (List.mem_of_getElem? found)))
  | messageClaimed index call taskId now found phase =>
      refine sound.named_put same named found rfl rfl ?_
      rintro otherId (working | waiting)
      · cases working
      · rw [List.mem_singleton.mp waiting]
        exact named call (List.mem_of_getElem? found) taskId
          (.inl (by rw [phase]; rfl))
  | selected index call taskId todo row found phase rest =>
      refine sound.named_put same named found rfl rfl ?_
      intro otherId names
      apply named call (List.mem_of_getElem? found) otherId (.inr ?_)
      rw [rest]
      rcases names with working | waiting
      · cases working
        exact List.mem_cons_self
      · exact List.mem_cons_of_mem taskId waiting
  | recorded index call taskId work task request now found phase =>
      refine sound.named_put same named found rfl
        (Call.afterRecord_message ..) ?_
      intro otherId names
      rw [State.carried_congr (Call.afterRecord_message ..)]
      apply named call (List.mem_of_getElem? found) otherId
      unfold Call.afterRecord at names
      split at names
      next =>
        rcases names with working | waiting
        · cases working
        · cases waiting
      next =>
        rcases names with working | waiting
        · cases working
          exact .inl (by rw [phase]; rfl)
        · exact .inr waiting
  | locked index call requestId own session found target =>
      refine sound.named_put same named found rfl rfl ?_
      intro otherId names
      apply named call (List.mem_of_getElem? found) otherId
      rcases names with working | waiting
      · cases target with
        | recorded taskId task phase held =>
            cases working
            exact .inl (by rw [phase]; rfl)
        | duplicate => cases working
      · exact .inr waiting
  | refreshed index call requestId own reference request noticeId now found =>
      refine sound.named_put same named found rfl rfl ?_
      intro otherId names
      apply named call (List.mem_of_getElem? found) otherId
      rcases names with working | waiting
      · rw [call.names_resume] at working
        cases working
      · exact .inr waiting
  | acked index call slot message found =>
      exact sound.named_put same named found rfl rfl (.of_idle rfl rfl)

/-- A handler that returns success has seen its task finished. -/
theorem Attended.done_of_refreshResult (attended : Attended state)
    {call : Call} (member : call ∈ state.calls) (tracks : call.Tracks state)
    {requestId : String} {own reference : Option String}
    (phase : call.phase = .refreshing requestId own reference)
    (succeeded : call.refreshResult own = true) {taskId : String}
    (carries : state.carried call = some taskId) :
    state.database.Done taskId := by
  cases own with
  | none =>
      apply tracks.settled ?_ taskId carries
      rw [phase]
      rfl
  | some ownId =>
      have named := tracks.named ownId (.inl (by rw [phase]; rfl))
      rw [carries] at named
      cases named
      unfold Call.refreshResult at succeeded
      dsimp only at succeeded
      split at succeeded
      next copy held =>
        have status := of_decide_eq_true succeeded
        have terminal : copy.status.Terminal := by
          rw [status]
          trivial
        obtain ⟨row, found, confirms⟩ :=
          (attended.confirmed call member).task taskId copy held
        exact ⟨row, found, (confirms terminal).1 ▸ terminal⟩
      next => cases succeeded

/-- A call that takes its task for finished has read so, or acknowledges a
message about no task. -/
theorem Attended.settled_moved (attended : Attended state) {index : Nat}
    {call after : Call} (before : call.Tracks state)
    (move : CallMove deployment state index call action after)
    (settles : after.phase.settles = true) {taskId : String}
    (carries : state.carried call = some taskId) :
    state.database.Done taskId := by
  cases move with
  | ignored slot message now received subscribed delivered absent =>
      rw [State.carried_eq_some subscribed delivered] at carries
      obtain ⟨row, rowFound⟩ := attended.posted.task_of_message
        (List.mem_of_getElem? delivered) carries
      obtain ⟨inTable, same⟩ := Database.task_mem rowFound
      exact absurd same (absent taskId carries row inTable)
  | terminal slot message now namedId row received subscribed delivered
      named inTable same terminal =>
      rw [State.carried_eq_some subscribed delivered, named] at carries
      cases carries
      refine ⟨row, ?_, terminal⟩
      rw [← same]
      exact attended.sound.grounded.tidy.tables.task_eq inTable
  | vanished duplicateId phase absent =>
      exact before.settled (by rw [phase]; rfl) taskId carries
  | uploaded now requestId own reference phase =>
      apply before.settled ?_ taskId carries
      rw [phase]
      cases own with
      | none => rfl
      | some ownId => cases settles
  | skipped =>
      cases call.result_of_settles settles
  | _ => cases settles

/-- What a call takes for finished is finished. -/
theorem Attended.settled_put (attended : Attended state)
    (effect : Effect deployment state action next)
    (tracks : ∀ call ∈ state.calls, call.Tracks state) {index : Nat}
    {call after : Call} (found : state.calls[index]? = some call)
    (calls : next.calls = (state.put index after).calls)
    (same : after.message = call.message)
    (settled : after.phase.settles = true → ∀ taskId,
      state.carried call = some taskId → state.database.Done taskId)
    (other : Call) (member : other ∈ next.calls)
    (settles : other.phase.settles = true) (taskId : String)
    (carries : next.carried other = some taskId) :
    next.database.Done taskId := by
  rw [calls] at member
  apply attended.done effect
  rcases State.mem_put member with new | old
  · rw [new, State.carried_congr same, attended.sound.carried_eq
      (List.mem_of_getElem? found) effect] at carries
    rw [new] at settles
    exact settled settles taskId carries
  · rw [attended.sound.carried_eq old effect] at carries
    exact (tracks other old).settled settles taskId carries

theorem Attended.tracks (attended : Attended state)
    (effect : Effect deployment state action next)
    (queued : action.queued = true)
    (tracks : ∀ call ∈ state.calls, call.Tracks state) :
    ∀ call ∈ next.calls, call.Tracks next := by
  have named := attended.sound.named effect queued
    fun call member => (tracks call member).named
  have kept : ∀ call ∈ state.calls, call.phase.settles = true → ∀ taskId,
      next.carried call = some taskId → next.database.Done taskId := by
    intro call old settles taskId carries
    rw [attended.sound.carried_eq old effect] at carries
    exact attended.done effect ((tracks call old).settled settles taskId carries)
  have same := effect
  suffices settled : ∀ call ∈ next.calls, call.phase.settles = true →
      ∀ taskId, next.carried call = some taskId →
      next.database.Done taskId from
    fun call member => ⟨named call member, settled call member⟩
  cases effect with
  | created | relayed | extended => exact kept
  | opened =>
      intro call member
      rcases State.mem_append_call member with new | old
      · rw [new]
        intro settles
        cases settles
      · exact kept call old
  | batchClaimed => cases queued
  | moved action index call after artifacts found move =>
      exact attended.settled_put same tracks found rfl move.workerId.2
        fun settles taskId carries => attended.settled_moved
          (tracks call (List.mem_of_getElem? found)) move settles carries
  | messageClaimed index call taskId now found
  | selected index call taskId todo row found
  | acked index call slot message found =>
      refine attended.settled_put same tracks found rfl rfl ?_
      intro settles
      cases settles
  | recorded index call taskId work task request now found phase =>
      refine attended.settled_put same tracks found rfl
        (Call.afterRecord_message ..) ?_
      intro settles
      rcases call.afterRecord_phase deployment taskId work task request with
        closed | recorded
      · rw [closed] at settles
        cases settles
      · rw [recorded] at settles
        cases settles
  | locked index call requestId own session found target =>
      refine attended.settled_put same tracks found rfl rfl ?_
      intro settles taskId carries
      cases target with
      | recorded => cases settles
      | duplicate duplicateId row phase =>
          exact (tracks call (List.mem_of_getElem? found)).settled
            (by rw [phase]; rfl) taskId carries
  | refreshed index call requestId own reference request noticeId now found
      phase =>
      have member := List.mem_of_getElem? found
      refine attended.settled_put same tracks found rfl rfl ?_
      intro settles taskId carries
      exact attended.done_of_refreshResult member (tracks call member) phase
        (call.result_of_settles settles) carries

/-- Acknowledged messages are about finished tasks. -/
def State.AcksDone (state : State) : Prop :=
  ∀ message ∈ state.queue, message.acked = true →
    ∀ taskId, message.body.taskId? = some taskId →
    state.database.Done taskId

theorem Attended.acksDone (attended : Attended state)
    (effect : Effect deployment state action next)
    (tracks : ∀ call ∈ state.calls, call.Tracks state)
    (acks : state.AcksDone) : next.AcksDone := by
  have old : ∀ message ∈ state.queue, message.acked = true →
      ∀ taskId, message.body.taskId? = some taskId →
      next.database.Done taskId :=
    fun message member isAcked taskId named =>
      attended.done effect (acks message member isAcked taskId named)
  have same := effect
  cases effect with
  | relayed action relays extra outbox move =>
      intro message member isAcked
      rcases List.mem_append.mp member with kept | new
      · exact old message kept isAcked
      · rw [move.unacked message new] at isAcked
        cases isAcked
  | acked index call slot message found subscribed delivered returned =>
      intro other member isAcked taskId named
      rcases List.mem_or_eq_of_mem_set member with kept | new
      · exact old other kept isAcked taskId named
      · rw [new] at named
        apply attended.done same
        apply (tracks call (List.mem_of_getElem? found)).settled
        · rw [returned]
          rfl
        · exact (State.carried_eq_some subscribed delivered).trans named
  | _ => exact old

end Tracks

/-- Calls stay, with their messages. -/
theorem Effect.message_kept {deployment : Deployment} {state next : State}
    {action : Action} (effect : Effect deployment state action next)
    {slot : Nat} {call : Call} (located : state.calls[slot]? = some call) :
    ∃ after, next.calls[slot]? = some after ∧
      after.message = call.message := by
  have replaced : ∀ {index : Nat} {old new : Call},
      state.calls[index]? = some old → new.message = old.message →
      ∃ after, (state.put index new).calls[slot]? = some after ∧
        after.message = call.message := by
    intro index old new found same
    rw [State.put, getElem?_set_slot found]
    split
    next isIndex =>
      rw [isIndex, found] at located
      cases located
      exact ⟨new, rfl, same⟩
    next => exact ⟨call, located, rfl⟩
  cases effect with
  | created | relayed | extended => exact ⟨call, located, rfl⟩
  | opened | batchClaimed =>
      refine ⟨call, ?_, rfl⟩
      exact (List.getElem?_append_left
        (List.getElem?_eq_some_iff.mp located).1).trans located
  | moved action index old after artifacts found move =>
      exact replaced found move.workerId.2
  | recorded index old taskId work task request now found =>
      exact replaced found (Call.afterRecord_message ..)
  | messageClaimed index old taskId now found
  | selected index old taskId todo row found
  | locked index old requestId own session found
  | refreshed index old requestId own reference request noticeId now found
  | acked index old position message found => exact replaced found rfl

/-! ## The budget -/

/-- The committed executions of a task against its attempts. -/
structure RequestTask.Within (settings : Settings) (row : RequestTask)
    (executed : Nat) : Prop where
  spent : executed ≤ row.attempt
  running : row.status = .running → executed < row.attempt
  left : ¬ row.status.Terminal → executed ≠ 0 →
    executed < settings.maxTaskAttempts

def executionsOf (executions : List Claim) (taskId : String) : Nat :=
  executions.countP fun claim => decide (claim.taskId = taskId)

theorem executionsOf_append (executions added : List Claim)
    (taskId : String) :
    executionsOf (executions ++ added) taskId =
      executionsOf executions taskId + executionsOf added taskId :=
  List.countP_append

namespace RequestTask.Within

variable {settings : Settings} {row : RequestTask} {executed : Nat}

theorem fresh (pending : row.status = .pending) :
    row.Within settings 0 where
  spent := Nat.zero_le _
  running := fun isRunning => by
    rw [pending] at isRunning
    cases isRunning
  left := fun _ some_ => absurd rfl some_

theorem claim (within : row.Within settings executed)
    (open_ : ¬ row.status.Terminal) (workerId : String) (leaseUntil : Time) :
    (row.claim workerId leaseUntil).Within settings executed where
  spent := Nat.le_succ_of_le within.spent
  running := fun _ => Nat.lt_succ_of_le within.spent
  left := fun _ => within.left open_

/-- An outcome that leaves the task open leaves budget. -/
theorem settle (within : row.Within settings executed)
    (running : row.status = .running) (executor : Bool) {ending : Ending}
    (uncancelled : ending ≠ .cancelled) :
    (row.settle settings executor ending).Within settings (executed + 1) := by
  have spent := within.running running
  refine ⟨?_, ?_, ?_⟩
  · rw [RequestTask.settle_attempt]
    exact spent
  · intro isRunning
    exact absurd isRunning
      (RequestTask.settle_status_ne_running uncancelled row)
  · intro open_ _
    cases ending with
    | cancelled => exact absurd rfl uncancelled
    | returned payload => exact absurd trivial open_
    | raised message =>
        have retried : (executor &&
            decide (row.attempt < settings.maxTaskAttempts)) = true := by
          by_contra final
          apply open_
          simp [RequestTask.settle, final, TaskStatus.Terminal]
        have bound := of_decide_eq_true (Bool.and_eq_true _ _ ▸ retried).2
        omega

theorem release (within : row.Within settings executed) (executor : Bool) :
    (row.settle settings executor .cancelled).Within settings executed :=
  ⟨within.spent, within.running, within.left⟩

end RequestTask.Within

/-- Only the commit of an outcome is an execution. -/
theorem State.execution_cases (state : State) (action : Action) :
    state.execution action = [] ∨
      ∃ index now call taskId work, action = .recordTask index now ∧
        state.calls[index]? = some call ∧
        call.phase = .worked taskId work ∧ work.ending ≠ .cancelled ∧
        state.execution action = [⟨index, taskId⟩] := by
  cases action with
  | recordTask index now =>
      cases found : state.calls[index]? with
      | none => simp [State.execution, State.recording, found]
      | some call =>
          cases phase : call.phase with
          | worked taskId work =>
              by_cases cancelled : work.ending = .cancelled
              · simp [State.execution, State.recording, found, phase, cancelled]
              · refine .inr ⟨index, now, call, taskId, work, rfl, found, phase,
                  cancelled, ?_⟩
                simp [State.execution, State.recording, found, phase, cancelled]
          | _ => simp [State.execution, State.recording, found, phase]
  | _ => exact .inl rfl

theorem State.execution_recorded {state : State} {index : Nat} {call : Call}
    {taskId : String} {work : Work} (found : state.calls[index]? = some call)
    (phase : call.phase = .worked taskId work) (now : Time) :
    state.execution (.recordTask index now) =
      if work.ending = .cancelled then [] else [⟨index, taskId⟩] := by
  simp [State.execution, State.recording, found, phase]

/-! ## The invariant -/

structure Redriving (deployment : Deployment) (state : RedriveState) :
    Prop where
  attended : Attended state.control
  tracks : ∀ call ∈ state.control.calls, call.Tracks state.control
  acks : state.control.AcksDone
  dead : ∀ slot ∈ state.deadLetters, ∃ body,
    state.control.bodies[slot]? = some body ∧
      ∀ taskId, body.taskId? = some taskId →
        state.control.database.Done taskId
  log : ∃ past, ClaimLog past state.control ∧
    ∀ claim ∈ state.executions, claim ∈ claimsCommitted past
  nodup : state.executions.Nodup
  aimed : ∀ claim ∈ state.executions, ∃ call,
    state.control.calls[claim.slot]? = some call ∧
      state.control.carried call = some claim.taskId
  budget : ∀ row ∈ state.control.database.tasks,
    row.Within deployment.settings (executionsOf state.executions row.id)

namespace Redriving

variable {deployment : Deployment} {state : RedriveState} {next : State}
  {action : Action}

theorem initial (deployment : Deployment) :
    Redriving deployment RedriveState.initial where
  attended := Attended.initial
  tracks := fun _ member => nomatch member
  acks := fun _ member => nomatch member
  dead := fun _ member => nomatch member
  log := ⟨[], ClaimLog.initial, fun _ member => nomatch member⟩
  nodup := List.nodup_nil
  aimed := fun _ member => nomatch member
  budget := fun _ member => nomatch member

/-- Executions were executions of tasks. -/
theorem known (redriving : Redriving deployment state) :
    ∀ claim ∈ state.executions,
      ∃ row, state.control.database.task claim.taskId = some row := by
  obtain ⟨past, log, committed⟩ := redriving.log
  intro claim member
  exact log.known claim (committed claim member)

theorem budget_created (redriving : Redriving deployment state)
    {intake : Intake} {runtime : Runtime}
    (fresh : state.control.database.unused intake.drawnIds = true) :
    ∀ row ∈ (intake.insertRows runtime state.control.database).tasks,
      row.Within deployment.settings (executionsOf state.executions row.id) := by
  obtain ⟨_, _, freshTasks, _⟩ := Database.unused_iff.mp fresh
  intro row member
  rcases List.mem_append.mp member with old | new
  · exact redriving.budget row old
  · have none_ : executionsOf state.executions row.id = 0 := by
      apply List.countP_eq_zero.mpr
      intro claim inExecutions isRow
      obtain ⟨owner, found⟩ := redriving.known claim inExecutions
      obtain ⟨inTable, same⟩ := Database.task_mem found
      apply freshTasks owner inTable
      rw [same, of_decide_eq_true isRow]
      exact Intake.task_id_mem new
    rw [none_]
    apply RequestTask.Within.fresh
    obtain ⟨⟨source, position⟩, _, rfl⟩ := List.mem_map.mp new
    rfl

theorem budget_claimed (redriving : Redriving deployment state)
    {taskIds : List String} {workerId : String} {leaseUntil now : Time}
    (claims : state.control.database.Claims now taskIds) :
    ∀ row ∈ (state.control.database.markClaimed taskIds workerId leaseUntil
        now).tasks,
      row.Within deployment.settings (executionsOf state.executions row.id) := by
  have tables := redriving.attended.sound.grounded.tidy.tables
  have revises := Database.markClaimed_revises state.control.database taskIds
    workerId leaseUntil now
  intro row member
  rw [revises.tasks] at member
  obtain ⟨old, inTable, rfl⟩ := List.mem_map.mp member
  rw [(revises.taskKey old).1]
  have within := redriving.budget old inTable
  unfold Database.claimRow
  split
  next hit =>
    obtain ⟨candidate, candidateIn, same, claimable⟩ :=
      claims.claimable old.id (of_decide_eq_true hit)
    have isOld : candidate = old :=
      tables.taskIds.eq_of_mem candidateIn inTable same
    rw [isOld] at claimable
    exact within.claim (RequestTask.not_terminal_of_claimable claimable) _ _
  next => exact within

/-- The committed outcome of an execution counts against the budget. -/
theorem budget_recorded (redriving : Redriving deployment state) {index : Nat}
    {call : Call} {taskId : String} {work : Work} {task : RequestTask}
    {request : PrivacyRequest} {now : Time}
    (found : state.control.calls[index]? = some call)
    (phase : call.phase = .worked taskId work)
    (held : call.session.task taskId = some task) :
    ∀ row ∈ (recordOutcome deployment.runtime deployment.settings
        call.executor work task request now state.control.database).tasks,
      row.Within deployment.settings (executionsOf (state.executions ++
        state.control.execution (.recordTask index now)) row.id) := by
  have attended := redriving.attended
  have tidy := attended.sound.grounded.tidy
  have member := List.mem_of_getElem? found
  have isTask := tidy.keyed call member taskId task held
  have revises := Database.recordOutcome_revises deployment.runtime
    deployment.settings call.executor work task request now
    state.control.database
  intro row inRows
  rw [revises.tasks] at inRows
  obtain ⟨old, inTable, rfl⟩ := List.mem_map.mp inRows
  have within := redriving.budget old inTable
  rw [(revises.taskKey old).1, executionsOf_append,
    State.execution_recorded found phase]
  by_cases own : old.id = taskId
  · have rowFound := tidy.tables.task_eq inTable
    rw [own] at rowFound
    have entry : state.control.recording index =
        some (call, taskId, work) := by
      simp [State.recording, found, phase]
    have leased := attended.holding.leasedBy_of_recording tidy entry inTable own
    have running := (RequestTask.leasedBy_iff.mp leased).1
    rw [attended.executing.recordRow_eq tidy deployment.settings found phase
      held rowFound]
    split
    next cancelled =>
      rw [cancelled]
      exact within.release call.executor
    next uncancelled =>
      have one : executionsOf [⟨index, taskId⟩] old.id = 1 := by
        simp [executionsOf, own]
      rw [one]
      exact within.settle running call.executor uncancelled
  · have none_ : executionsOf (if work.ending = .cancelled then []
        else [⟨index, taskId⟩]) old.id = 0 := by
      split
      next => rfl
      next => simp [executionsOf, Ne.symm own]
    have missed : old.id ≠ task.id := fun same => own (same.trans isTask)
    rw [none_, Database.recordRow_of_ne missed]
    exact within

theorem budget_step (redriving : Redriving deployment state)
    (effect : Effect deployment state.control action next) :
    ∀ row ∈ next.database.tasks, row.Within deployment.settings
      (executionsOf (state.executions ++ state.control.execution action)
        row.id) := by
  have silent : state.control.execution action = [] →
      state.executions ++ state.control.execution action =
        state.executions := by
    intro none_
    rw [none_, List.append_nil]
  cases effect with
  | created intake nodup fresh absent =>
      rw [silent rfl]
      exact redriving.budget_created fresh
  | relayed action relays extra outbox move =>
      rw [silent (by cases move <;> rfl)]
      exact redriving.budget
  | opened | selected | locked | acked =>
      rw [silent rfl]
      exact redriving.budget
  | moved action index call after artifacts found move =>
      rw [silent (by cases move <;> rfl)]
      exact redriving.budget
  | messageClaimed index call taskId now found phase claims =>
      rw [silent rfl]
      exact redriving.budget_claimed claims
  | batchClaimed arguments session taskIds selected claims =>
      rw [silent rfl]
      exact redriving.budget_claimed claims
  | recorded index call taskId work task request now found phase held =>
      exact redriving.budget_recorded found phase held
  | refreshed =>
      rw [silent rfl]
      dsimp only
      rw [Database.commitRefresh_tasks]
      exact redriving.budget
  | extended workerId taskId now =>
      rw [silent rfl]
      have revises := Database.extendTaskLease_revises deployment.settings
        workerId taskId now state.control.database
      intro row member
      rw [revises.tasks] at member
      obtain ⟨old, inTable, rfl⟩ := List.mem_map.mp member
      rw [(revises.taskKey old).1]
      have within := redriving.budget old inTable
      unfold Database.extendRow
      split
      next => exact ⟨within.spent, within.running, within.left⟩
      next => exact within

/-- The record of executions stays one of distinct committed claims. -/
theorem executions_step (redriving : Redriving deployment state)
    (stepped : FleetPrivacy.step deployment state.control action = some next) :
    (∃ past, ClaimLog past next ∧
        ∀ claim ∈ state.executions ++ state.control.execution action,
          claim ∈ claimsCommitted past) ∧
      (state.executions ++ state.control.execution action).Nodup := by
  obtain ⟨past, log, committed⟩ := redriving.log
  have holding := redriving.attended.holding
  have advanced := log.step holding stepped
  have kept : ∀ claim ∈ state.executions, claim ∈ claimsCommitted
      (past ++ observeExecutions deployment state.control action) := by
    intro claim member
    rw [claimsCommitted_append]
    exact List.mem_append_left _ (committed claim member)
  rcases state.control.execution_cases action with
    none_ | ⟨index, now, call, taskId, work, rfl, found, phase, _, one⟩
  · rw [none_, List.append_nil]
    exact ⟨⟨_, advanced, kept⟩, redriving.nodup⟩
  · have holds : taskId ∈ call.held := by
      rw [Call.held_of_worked phase]
      exact List.mem_cons_self
    obtain ⟨_, open_⟩ := log.held index call found taskId holds
    rw [one]
    refine ⟨⟨_, advanced, ?_⟩, ?_⟩
    · intro claim member
      rcases List.mem_append.mp member with old | new
      · exact kept claim old
      · rw [claimsCommitted_append, List.mem_singleton.mp new]
        apply List.mem_append_right
        unfold observeExecutions
        rw [observeLeases_recorded deployment found phase]
        exact List.mem_singleton_self _
    · rw [List.nodup_append]
      refine ⟨redriving.nodup, List.nodup_singleton _, ?_⟩
      intro claim member new isNew same
      apply open_
      rw [List.mem_singleton.mp isNew] at same
      rw [← same]
      exact committed claim member

theorem aimed_step (redriving : Redriving deployment state)
    (effect : Effect deployment state.control action next) :
    ∀ claim ∈ state.executions ++ state.control.execution action, ∃ call,
      next.calls[claim.slot]? = some call ∧
        next.carried call = some claim.taskId := by
  have kept : ∀ {slot : Nat} {call : Call} {taskId : String},
      state.control.calls[slot]? = some call →
      state.control.carried call = some taskId →
      ∃ after, next.calls[slot]? = some after ∧
        next.carried after = some taskId := by
    intro slot call taskId located carries
    obtain ⟨after, afterLocated, same⟩ := effect.message_kept located
    refine ⟨after, afterLocated, ?_⟩
    rw [State.carried_congr same, redriving.attended.sound.carried_eq
      (List.mem_of_getElem? located) effect]
    exact carries
  intro claim member
  rcases List.mem_append.mp member with old | new
  · obtain ⟨call, located, carries⟩ := redriving.aimed claim old
    exact kept located carries
  · rcases state.control.execution_cases action with
      none_ | ⟨index, now, call, taskId, work, rfl, found, phase, _, one⟩
    · rw [none_] at new
      cases new
    · rw [one] at new
      rw [List.mem_singleton.mp new]
      apply kept found
      apply (redriving.tracks call (List.mem_of_getElem? found)).named
      left
      rw [phase]
      rfl

theorem performed (redriving : Redriving deployment state)
    (driven : QueueDriven state.control action)
    (stepped : FleetPrivacy.step deployment state.control action = some next) :
    Redriving deployment { state with
      control := next
      executions := state.executions ++ state.control.execution action } := by
  have attended := redriving.attended
  have effect := effect_of_step attended.sound.grounded.tidy.tables.taskIds
    stepped
  obtain ⟨log, nodup⟩ := redriving.executions_step stepped
  refine ⟨attended.step driven.2 stepped,
    attended.tracks effect driven.1 redriving.tracks,
    attended.acksDone effect redriving.tracks redriving.acks, ?_, log, nodup,
    redriving.aimed_step effect, redriving.budget_step effect⟩
  intro slot member
  obtain ⟨body, located, done⟩ := redriving.dead slot member
  obtain ⟨extra, split⟩ := effect.bodies
  refine ⟨body, ?_, fun taskId named => attended.done effect (done taskId named)⟩
  dsimp only
  rw [← split, List.getElem?_append_left
    (List.getElem?_eq_some_iff.mp located).1]
  exact located

/-- Every receive of an exhausted message is an execution of its task. -/
theorem receives_le (redriving : Redriving deployment state) {message : Nat}
    {body : Envelope} {taskId : String}
    (located : state.control.bodies[message]? = some body)
    (named : body.taskId? = some taskId)
    (exhausted : Exhausted state (.deadLetter message)) :
    state.control.receives message ≤
      executionsOf state.executions taskId := by
  -- The deliveries of the message, as claims of its task.
  have deliveries : ((state.control.calls.zipIdx.filter fun entry =>
      decide (entry.1.message = some message)).map fun entry =>
        Claim.mk entry.2 taskId).length = state.control.receives message := by
    unfold State.receives
    rw [List.length_map, ← List.countP_eq_length_filter]
    nth_rewrite 2 [← List.zipIdx_map_fst 0 state.control.calls]
    rw [List.countP_map]
    rfl
  rw [← deliveries, executionsOf, List.countP_eq_length_filter]
  apply List.Nodup.length_le_of_subset
  · have positions : (state.control.calls.zipIdx.map Prod.snd).Nodup := by
      rw [List.zipIdx_map_snd]
      exact List.nodup_range'
    apply List.Nodup.map_on
    · intro first firstIn second secondIn same
      have index : first.2 = second.2 := congrArg Claim.slot same
      exact List.inj_on_of_nodup_map positions (List.mem_filter.mp firstIn).1
        (List.mem_filter.mp secondIn).1 index
    · exact (List.Nodup.of_map _ positions).filter _
  · intro claim member
    obtain ⟨⟨call, index⟩, inFilter, rfl⟩ := List.mem_map.mp member
    obtain ⟨inCalls, isMessage⟩ := List.mem_filter.mp inFilter
    have found := List.mk_mem_zipIdx_iff_getElem?.mp inCalls
    have subscribed : call.message = some message :=
      of_decide_eq_true isMessage
    have executed := exhausted index (List.getElem?_eq_some_iff.mp found).1
      (by rw [found]; exact subscribed)
    obtain ⟨claim, inExecutions, isIndex⟩ := List.mem_map.mp executed
    obtain ⟨other, otherFound, carries⟩ := redriving.aimed claim inExecutions
    rw [isIndex, found] at otherFound
    cases otherFound
    have carried : state.control.carried call = some taskId := by
      simp [State.carried, subscribed, located, named]
    rw [carried] at carries
    cases carries
    refine List.mem_filter.mpr ⟨?_, decide_eq_true rfl⟩
    have whole : claim = ⟨index, claim.taskId⟩ := by rw [← isIndex]
    exact whole ▸ inExecutions

/-- The task of an exhausted message has used up its attempts. -/
theorem done_of_exhausted (redriving : Redriving deployment state)
    (budget : deployment.settings.maxTaskAttempts ≤ maxReceiveCount)
    {message : Nat} {entry : QueueMessage} {taskId : String}
    (located : state.control.queue[message]? = some entry)
    (received : maxReceiveCount ≤ state.control.receives message)
    (named : entry.body.taskId? = some taskId)
    (exhausted : Exhausted state (.deadLetter message)) :
    state.control.database.Done taskId := by
  obtain ⟨row, found⟩ := redriving.attended.posted.task_of_message
    (List.mem_of_getElem? located) named
  obtain ⟨inTable, same⟩ := Database.task_mem found
  refine ⟨row, found, ?_⟩
  by_contra open_
  have body : state.control.bodies[message]? = some entry.body := by
    unfold State.bodies
    rw [List.getElem?_map, located]
    rfl
  have executed := redriving.receives_le body named exhausted
  have within := redriving.budget row inTable
  rw [same] at within
  have positive : 0 < maxReceiveCount := by decide
  have left := within.left open_ (by omega)
  omega

theorem deadLettered (redriving : Redriving deployment state)
    (budget : deployment.settings.maxTaskAttempts ≤ maxReceiveCount)
    {message : Nat} {after : RedriveState}
    (exhausted : Exhausted state (.deadLetter message))
    (stepped : deadLetterStep state message = some after) :
    Redriving deployment after := by
  simp only [deadLetterStep, Option.bind_eq_bind,
    Option.bind_eq_some_iff] at stepped
  obtain ⟨entry, located, stepped⟩ := stepped
  split at stepped
  next guards =>
    cases stepped
    simp only [Bool.and_eq_true, decide_eq_true_eq] at guards
    obtain ⟨⟨_, received⟩, _⟩ := guards
    refine ⟨redriving.attended, redriving.tracks, redriving.acks, ?_,
      redriving.log, redriving.nodup, redriving.aimed, redriving.budget⟩
    intro slot member
    rcases List.mem_cons.mp member with isMessage | old
    · refine ⟨entry.body, ?_, ?_⟩
      · rw [isMessage]
        unfold State.bodies
        rw [List.getElem?_map, located]
        rfl
      · intro taskId named
        exact redriving.done_of_exhausted budget located received named
          exhausted
    · exact redriving.dead slot old
  next => cases stepped

theorem step (redriving : Redriving deployment state)
    (budget : deployment.settings.maxTaskAttempts ≤ maxReceiveCount)
    {action : RedriveAction} {after : RedriveState}
    (allowed : WithinBudget state action)
    (stepped : redriveStep deployment state action = some after) :
    Redriving deployment after := by
  cases action with
  | deadLetter message =>
      exact redriving.deadLettered budget allowed.2 stepped
  | perform action =>
      simp only [redriveStep, performStep] at stepped
      split at stepped
      next =>
        obtain ⟨control, performed, rfl⟩ := Option.map_eq_some_iff.mp stepped
        exact redriving.performed allowed.1 performed
      next => cases stepped

theorem deliverable (redriving : Redriving deployment state) :
    state.Deliverable := by
  intro task inTasks open_ row inOutbox named published
  obtain ⟨message, member, body⟩ :=
    redriving.attended.posted.published row inOutbox published
  obtain ⟨slot, located⟩ := List.getElem?_of_mem member
  have about : message.body.taskId? = some task.id := by
    rw [body]
    exact named
  have undone : ¬ state.control.database.Done task.id := by
    rintro ⟨other, found, terminal⟩
    rw [redriving.attended.sound.grounded.tidy.tables.task_eq inTasks] at found
    cases found
    exact open_ terminal
  refine ⟨(message, slot), List.mk_mem_zipIdx_iff_getElem?.mpr located, about,
    ?_, ?_⟩
  · rw [Bool.eq_false_iff]
    intro isAcked
    exact undone (redriving.acks message member isAcked task.id about)
  · intro moved
    obtain ⟨other, otherLocated, done⟩ := redriving.dead slot moved
    unfold State.bodies at otherLocated
    rw [List.getElem?_map, located] at otherLocated
    cases otherLocated
    exact undone (done task.id about)

end Redriving

/-- While leases live and only messages are moved whose deliveries have all
committed an execution, dead-lettering does not outrun the retry budget. -/
theorem dead_lettering_stays_within_the_budget (deployment : Deployment)
    (budget : deployment.settings.maxTaskAttempts ≤ maxReceiveCount)
    {actions : List RedriveAction} {state : RedriveState}
    (execution : Runs (redriveStep deployment) WithinBudget
      RedriveState.initial actions state) : state.Deliverable := by
  have reached : Redriving deployment state :=
    execution.invariant (fun redriving allowed stepped =>
      redriving.step budget allowed stepped) (Redriving.initial deployment)
  exact reached.deliverable

/-! Of two tasks, one fails in five deliveries of its message; the other one
waits for its first. -/

private def demoFailure : Work :=
  { ending := .raised "timeout", deleted := [], deletedAt := 0 }

private def failedDelivery (call : Nat) (noticeId : String) : List Action :=
  .deliver "w" 1 true :: demoExecution call demoFailure ++
    [.refreshSelect call, .refreshCommit call noticeId 13]

private def failedDeliveries : List RedriveAction :=
  (.create (demoIntake 'a' .access ["jobs", "profile"] demoSources_nodup
      demoSources_allowed) :: demoRelay 0 3 ++ failedDelivery 0 "k" ++
    failedDelivery 1 "l" ++ failedDelivery 2 "m" ++ failedDelivery 3 "n" ++
    failedDelivery 4 "o").map .perform ++ [.deadLetter 1]

private def RedriveState.progress (state : RedriveState) :
    List (TaskStatus × Nat) × List Nat :=
  (state.control.database.tasks.map fun task => (task.status, task.attempt),
    state.deadLetters)

theorem exhausted_message_leaves_other_task_deliverable :
    demoDeployment.settings.maxTaskAttempts ≤ maxReceiveCount ∧
      ∃ state, Runs (redriveStep demoDeployment) WithinBudget
          RedriveState.initial failedDeliveries state ∧
        state.progress = ([(.failed, 5), (.pending, 0)], [1]) ∧
        state.Deliverable := by
  have budget : demoDeployment.settings.maxTaskAttempts ≤ maxReceiveCount := by
    decide
  have evaluated : (run (redriveStep demoDeployment) WithinBudget
      RedriveState.initial failedDeliveries).map RedriveState.progress =
      some ([(.failed, 5), (.pending, 0)], [1]) := by
    decide +kernel
  obtain ⟨state, result, progress⟩ := Option.map_eq_some_iff.mp evaluated
  have execution := runs_of_run result
  exact ⟨budget, state, execution, progress,
    dead_lettering_stays_within_the_budget demoDeployment budget execution⟩

/-! Five workers exit after their claim, and the message is moved. -/

private def lostDelivery (call : Nat) (now : Time) : List Action :=
  [.deliver "w" 1 true, .messageGet call now, .messageClaim call, .crash call]

private def lostDeliveries : List RedriveAction :=
  (.create demoRequest :: demoRelay 0 2 ++ lostDelivery 0 0 ++
    lostDelivery 1 100 ++ lostDelivery 2 200 ++ lostDelivery 3 300 ++
    lostDelivery 4 400).map .perform ++ [.deadLetter 1]

theorem lost_workers_exhaust_a_message :
    demoDeployment.settings.maxTaskAttempts = 5 ∧
      ∃ state, Runs (redriveStep demoDeployment) RedriveLeases
          RedriveState.initial lostDeliveries state ∧
        ¬ state.Deliverable := by
  have evaluated : (run (redriveStep demoDeployment) RedriveLeases
      RedriveState.initial lostDeliveries).map (fun state =>
        decide state.Deliverable) = some false := by
    decide +kernel
  obtain ⟨state, result, stranded⟩ := Option.map_eq_some_iff.mp evaluated
  exact ⟨rfl, state, runs_of_run result, of_decide_eq_false stranded⟩

end FleetPrivacy
