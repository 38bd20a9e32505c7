import FleetPrivacy.DeadLetters
import FleetPrivacy.Library.Redelivery

/-!
# The local queue

`LocalTaskQueue` of `queue.py`, alone and under any number of concurrent
`run_worker_pass` calls.  The handler says "try again" only by not
acknowledging its message.  `receive` removes the message either way, so a task
that is still open then has nothing left that would wake a worker.
-/

namespace FleetPrivacy

open Transition

/-! ## The adapters -/

/-- `QueueMessage`, as a consumer gets it. -/
structure ReceivedMessage where
  messageId : String
  receiptHandle : String
  body : Envelope
  deriving DecidableEq, Repr

structure LocalTaskQueue where
  messages : List ReceivedMessage
  acked : List String
  deriving DecidableEq, Repr

namespace LocalTaskQueue

def empty : LocalTaskQueue := { messages := [], acked := [] }

def publish (queue : LocalTaskQueue) (body : Envelope) :
    LocalTaskQueue × String :=
  let eventId := body.eventId
  ({ queue with messages := queue.messages ++ [⟨eventId, eventId, body⟩] },
    eventId)

/-- Every turn of the loop is one `popleft`. -/
def receive (queue : LocalTaskQueue) (maxMessages : Nat) :
    LocalTaskQueue × List ReceivedMessage :=
  let count := min maxMessages queue.messages.length
  ({ queue with messages := queue.messages.drop count },
    queue.messages.take count)

def ack (queue : LocalTaskQueue) (receiptHandle : String) : LocalTaskQueue :=
  { queue with acked := queue.acked ++ [receiptHandle] }

end LocalTaskQueue

/-- No timeout brings a message back. -/
def localTaskQueue :
    Redelivery.Adapter LocalTaskQueue Envelope String where
  initial := .empty
  handle := Envelope.eventId
  perform
    | queue, .publish body => ((queue.publish body).1, [])
    | queue, .receive maxMessages =>
        ((queue.receive maxMessages).1,
          (queue.receive maxMessages).2.map ReceivedMessage.body)
    | queue, .acknowledge receiptHandle => (queue.ack receiptHandle, [])
    | queue, .timeout _ => (queue, [])

theorem localTaskQueue_projects :
    localTaskQueue.Projects (Redelivery.fifo Envelope.eventId)
      fun queue => queue.messages.map ReceivedMessage.body := by
  refine ⟨rfl, rfl, ?_⟩
  intro queue move
  cases move with
  | publish body =>
      simp [Redelivery.fifo, localTaskQueue, LocalTaskQueue.publish]
  | receive maxMessages =>
      simp [Redelivery.fifo, localTaskQueue, LocalTaskQueue.receive,
        List.map_drop, List.map_take, List.drop_eq_drop_iff,
        List.take_eq_take_iff]
  | acknowledge receiptHandle => rfl
  | timeout receiptHandle => rfl

/-- A later receive returns exactly what is in the deque. -/
theorem localTaskQueue_redelivers_iff {queue : LocalTaskQueue}
    {body : Envelope} :
    localTaskQueue.Redelivers queue body ↔
      body ∈ queue.messages.map ReceivedMessage.body := by
  rw [← localTaskQueue_projects.redelivers_iff]
  exact Redelivery.fifo_redelivers_iff

/-- What is delivered and not acknowledged must have been published again. -/
theorem localTaskQueue_keepsContract_iff
    (moves : List (Redelivery.Move Envelope String)) :
    localTaskQueue.KeepsContract moves ↔
      ∀ body ∈ localTaskQueue.deliveries .empty moves,
        body.eventId ∉ Redelivery.acknowledged moves →
        (localTaskQueue.deliveries .empty moves).count body <
          (Redelivery.published moves).count body := by
  rw [← localTaskQueue_projects.keepsContract_iff,
    Redelivery.fifo_keepsContract_iff,
    ← localTaskQueue_projects.deliveries]
  rfl

/-! ## Workers on the local queue -/

/-- What an action does to the queue.  `publish` does not raise, and a receive
starts the handler of the next message. -/
def LocalTaskQueue.follow (queue : LocalTaskQueue) (control : State) :
    Action → Option LocalTaskQueue
  | .relayPublish index accepted confirmed _ => do
      let relay ← control.relays[index]?
      let event ← relay.remaining.head?
      if accepted && confirmed then
        some (queue.publish (eventEnvelope event)).1
      else none
  | .deliver _ message _ =>
      match queue.receive 1 with
      | (rest, [_]) =>
          if message = control.calls.length then some rest else none
      | _ => none
  | .ack index => do
      let call ← control.calls[index]?
      let slot ← call.message
      let message ← control.queue[slot]?
      some (queue.ack message.body.eventId)
  | .processOnce _ => none
  | _ => some queue

/-- The control plane, with the queue that its workers share. -/
structure LocalState where
  control : State
  queue : LocalTaskQueue

def LocalState.initial : LocalState := { control := .initial, queue := .empty }

def localStep (deployment : Deployment) (state : LocalState)
    (action : Action) : Option LocalState := do
  let queue ← state.queue.follow state.control action
  let control ← step deployment state.control action
  some { control, queue }

/-- Every relay is closed, and every handler has returned or raised. -/
def LocalState.BetweenPasses (state : LocalState) : Prop :=
  (∀ call ∈ state.control.calls, call.phase.ended = true) ∧
    ∀ relay ∈ state.control.relays, relay.closed = true

/-- Every open task has an unpublished `privacy_task.ready` row, or a message
that a later receive returns. -/
def LocalState.Deliverable (state : LocalState) : Prop :=
  ∀ task ∈ state.control.database.tasks, ¬ task.status.Terminal →
    (∃ row ∈ state.control.database.outbox,
      (eventEnvelope row).taskId? = some task.id ∧ row.publishedAt = none) ∨
    ∃ body, localTaskQueue.Redelivers state.queue body ∧
      body.taskId? = some task.id

/-- Which messages are still in the deque decides it. -/
theorem LocalState.deliverable_iff {state : LocalState} :
    state.Deliverable ↔
      ∀ task ∈ state.control.database.tasks, ¬ task.status.Terminal →
        (∃ row ∈ state.control.database.outbox,
          (eventEnvelope row).taskId? = some task.id ∧
            row.publishedAt = none) ∨
        ∃ message ∈ state.queue.messages,
          message.body.taskId? = some task.id := by
  have waiting : ∀ taskId,
      (∃ body, localTaskQueue.Redelivers state.queue body ∧
        body.taskId? = some taskId) ↔
      ∃ message ∈ state.queue.messages,
        message.body.taskId? = some taskId := by
    intro taskId
    simp only [localTaskQueue_redelivers_iff, List.mem_map]
    constructor
    · rintro ⟨_, ⟨message, member, rfl⟩, named⟩
      exact ⟨message, member, named⟩
    · rintro ⟨message, member, named⟩
      exact ⟨message.body, ⟨message, member, rfl⟩, named⟩
  unfold Deliverable
  simp only [waiting]

instance (state : LocalState) : Decidable state.Deliverable :=
  decidable_of_iff _ LocalState.deliverable_iff.symm

/-! ## The condition -/

/-- `claim_message_task` finds no row to claim. -/
def Database.busy (database : Database) (taskId : String) (now : Time) : Bool :=
  database.tasks.all fun row =>
    !(decide (row.id = taskId) && row.claimable now)

/-- The call whose handler an action ends without success: its task is `BUSY`
or no longer leased, the task did not succeed, or something raises. -/
def State.abandons (state : State) (dialect : Dialect) : Action → Option Call
  | .messageGet index _ => do
      let call ← state.calls[index]?
      let taskId ← state.carried call
      if state.database.tasks.any fun row =>
          decide (row.id = taskId) && row.incomparable dialect then some call
      else none
  | .messageClaim index => do
      let call ← state.calls[index]?
      match call.phase with
      | .claiming taskId now =>
          if state.database.busy taskId now then some call else none
      | _ => none
  | .selectTask index => do
      let call ← state.calls[index]?
      let taskId ← call.todo.head?
      if state.database.tasks.any fun row =>
          decide (row.id = taskId) && row.leasedBy call.workerId then none
      else some call
  | .recordTask index _ =>
      match state.recording index with
      | some (call, _, work) =>
          if work.ending = .cancelled then some call else none
      | none => none
  | .refreshCommit index _ _ => do
      let call ← state.calls[index]?
      match call.phase with
      | .refreshing _ own _ =>
          if call.refreshResult own then none else some call
      | _ => none
  | .upload index false _ | .crash index =>
      state.calls[index]?.filter fun call => !call.phase.ended
  | _ => none

/-- No handler ends without success while the task of its message is open. -/
def State.DropsNothing (state : State) (dialect : Dialect)
    (action : Action) : Prop :=
  ∀ call ∈ state.abandons dialect action, ∀ taskId ∈ state.carried call,
    state.database.Done taskId

def NothingDropped (deployment : Deployment) (state : LocalState)
    (action : Action) : Prop :=
  state.control.DropsNothing deployment.dialect action

instance (database : Database) (taskId : String) :
    Decidable (database.Done taskId) :=
  inferInstanceAs (Decidable
    (∃ row ∈ database.task taskId, row.status.Terminal))

instance (deployment : Deployment) (state : LocalState) (action : Action) :
    Decidable (NothingDropped deployment state action) :=
  inferInstanceAs (Decidable
    (∀ call ∈ state.control.abandons deployment.dialect action,
      ∀ taskId ∈ state.control.carried call,
        state.control.database.Done taskId))

instance (state : LocalState) : Decidable state.BetweenPasses :=
  inferInstanceAs (Decidable (_ ∧ _))

/-! ## Handlers that answer for their message -/

/-- The handler can still end without success, and has not recorded one. -/
def Call.owes (call : Call) : Bool :=
  match call.phase with
  | .received | .claiming _ _ | .ready | .working _ | .worked _ _ => true
  | .recorded taskId => !call.refreshResult (some taskId)
  | .refreshing _ own _ => !call.refreshResult own
  | .duplicate _ | .returned _ | .closed => false

theorem Call.owes_eq_false_of_ended {call : Call}
    (ended : call.phase.ended = true) : call.owes = false := by
  unfold Phase.ended at ended
  split at ended
  next phase =>
    unfold owes
    rw [phase]
  next phase =>
    unfold owes
    rw [phase]
  next => cases ended

/-- `execute_task` starts with an empty session, and works on a copy that was
leased. -/
structure Call.Prepared (call : Call) : Prop where
  fresh : call.phase = .ready → call.session = .empty
  running : ∀ taskId, call.current = some taskId →
    ∃ copy, call.session.task taskId = some copy ∧ copy.status = .running

theorem Call.Prepared.of_idle {call : Call} (waits : call.phase ≠ .ready)
    (idle : call.current = none) : call.Prepared := by
  refine ⟨fun ready => absurd ready waits, ?_⟩
  intro taskId busy
  rw [idle] at busy
  cases busy

section Prepared

variable {deployment : Deployment} {state next : State} {action : Action}

theorem CallMove.prepared {index : Nat} {call after : Call}
    (move : CallMove deployment state index call action after)
    (subscribed : call.message ≠ none) (prepared : call.Prepared) :
    after.Prepared := by
  constructor
  · intro ready
    cases move with
    | skipped todo phase =>
        have returned : call.resume false = .returned false := by
          obtain ⟨slot, message⟩ := Option.ne_none_iff_exists'.mp subscribed
          simp [Call.resume, message]
        rw [returned] at ready
        cases ready
    | _ => cases ready
  · intro taskId busy
    rcases move.frame with closed | ⟨same, kept | idle⟩
    · rw [closed] at busy
      cases busy
    · rw [kept] at busy
      rw [same]
      exact prepared.running taskId busy
    · rw [idle] at busy
      cases busy

theorem Effect.prepared (effect : Effect deployment state action next)
    (queued : action.queued = true)
    (subscribed : ∀ call ∈ state.calls, call.message ≠ none)
    (prepared : ∀ call ∈ state.calls, call.Prepared) :
    ∀ call ∈ next.calls, call.Prepared := by
  have put : ∀ {index : Nat} {after : Call}, after.Prepared →
      ∀ call ∈ (state.put index after).calls, call.Prepared := by
    intro index after new call member
    rcases State.mem_put member with same | old
    · rw [same]
      exact new
    · exact prepared call old
  cases effect with
  | created | relayed | extended => exact prepared
  | opened =>
      intro call member
      rcases State.mem_append_call member with new | old
      · rw [new]
        refine .of_idle ?_ rfl
        intro ready
        cases ready
      · exact prepared call old
  | batchClaimed => cases queued
  | moved action index call after artifacts found move =>
      have member := List.mem_of_getElem? found
      exact put (move.prepared (subscribed call member) (prepared call member))
  | messageClaimed index call taskId now found =>
      refine put ⟨fun _ => rfl, ?_⟩
      intro otherId busy
      cases busy
  | selected index call taskId todo row found phase rest member same leased =>
      apply put
      have empty := (prepared call (List.mem_of_getElem? found)).fresh phase
      constructor
      · intro ready
        cases ready
      · intro otherId busy
        cases busy
        refine ⟨row, ?_, (RequestTask.leasedBy_iff.mp leased).1⟩
        simp [empty, Session.loadRequests, Session.loadTasks, Table.get, same]
  | recorded index call taskId work task request now found phase =>
      refine put (.of_idle ?_ (Call.current_afterRecord ..))
      intro ready
      rcases call.afterRecord_phase deployment taskId work task request with
        closed | recorded
      · rw [closed] at ready
        cases ready
      · rw [recorded] at ready
        cases ready
  | locked index call requestId own session found target =>
      refine put (.of_idle ?_ rfl)
      intro ready
      cases ready
  | refreshed index call requestId own reference request noticeId now found =>
      refine put (.of_idle ?_ (call.current_resume _ _ _))
      obtain ⟨slot, message⟩ := Option.ne_none_iff_exists'.mp
        (subscribed call (List.mem_of_getElem? found))
      intro ready
      simp [Call.resume, message] at ready
  | acked index call slot message found =>
      refine put (.of_idle ?_ rfl)
      intro ready
      cases ready

end Prepared

section Owed

variable {deployment : Deployment} {state next : State} {action : Action}

theorem Database.WellFormed.not_done {database : Database}
    (formed : database.WellFormed) {row : RequestTask}
    (member : row ∈ database.tasks)
    (open_ : ¬ row.status.Terminal) : ¬ database.Done row.id := by
  rintro ⟨other, found, terminal⟩
  rw [formed.task_eq member] at found
  cases found
  exact open_ terminal

/-- A successful outcome finishes the row; after any other one the handler
still answers for it. -/
theorem Call.owes_afterRecord (deployment : Deployment) {call : Call}
    {taskId : String} {work : Work} {task row : RequestTask}
    (request : PrivacyRequest) (same : task.id = taskId)
    (running : task.status = .running)
    (uncancelled : work.ending ≠ .cancelled)
    (open_ : ¬ (task.flush (task.settle deployment.settings call.executor
      work.ending) row).status.Terminal) :
    (call.afterRecord deployment taskId work task request).owes = true := by
  have changed : (task.settle deployment.settings call.executor
      work.ending).status ≠ task.status := by
    rw [running]
    exact RequestTask.settle_status_ne_running uncancelled task
  have written : ¬ (task.settle deployment.settings call.executor
      work.ending).status.Terminal := by
    simpa [RequestTask.flush, flushColumn_of_ne changed] using open_
  have unsuccessful : (task.settle deployment.settings call.executor
      work.ending).status ≠ .succeeded := by
    intro succeeded
    rw [succeeded] at written
    exact written trivial
  simp [afterRecord, uncancelled, owes, refreshResult, Session.putRequest,
    Session.putTask, same, unsuccessful]

/-- Only a cancelled execution ends a handler whose row stays open. -/
theorem Call.owes_of_recorded (deployment : Deployment) {call : Call}
    {taskId : String} {work : Work} {task row : RequestTask}
    (request : PrivacyRequest) (prepared : call.Prepared)
    (keyed : call.session.Keyed) (phase : call.phase = .worked taskId work)
    (held : call.session.task taskId = some task)
    (open_ : ¬ (task.flush (task.settle deployment.settings call.executor
      work.ending) row).status.Terminal) :
    work.ending = .cancelled ∧ ¬ row.status.Terminal ∨
      (call.afterRecord deployment taskId work task request).owes = true := by
  obtain ⟨copy, current, running⟩ := prepared.running taskId
    (by simp [Call.current, phase])
  rw [held] at current
  cases current
  by_cases cancelled : work.ending = .cancelled
  · refine .inl ⟨cancelled, ?_⟩
    rw [cancelled] at open_
    simpa [RequestTask.flush, RequestTask.settle] using open_
  · exact .inr (Call.owes_afterRecord deployment request
      (keyed taskId task held) running cancelled open_)

theorem Call.live_of_owes {call : Call} (owes : call.owes = true) :
    call.phase.ended = false := by
  rw [Bool.eq_false_iff]
  intro ended
  rw [Call.owes_eq_false_of_ended ended] at owes
  cases owes

/-- A move of a handler that owes an answer for an open task leaves it so, or
drops the message. -/
theorem CallMove.owes_or_abandons {index : Nat} {call after : Call}
    (move : CallMove deployment state index call action after)
    (tables : state.database.WellFormed)
    (found : state.calls[index]? = some call) (owes : call.owes = true)
    {row : RequestTask} (carries : state.carried call = some row.id)
    (inTable : row ∈ state.database.tasks) (open_ : ¬ row.status.Terminal) :
    after.owes = true ∨
      state.abandons deployment.dialect action = some call := by
  cases move with
  | ignored message body now received subscribed delivered absent =>
      rw [State.carried_eq_some subscribed delivered] at carries
      exact absurd rfl (absent row.id carries row inTable)
  | terminal message body now taskId other received subscribed delivered about
      stored same terminal =>
      rw [State.carried_eq_some subscribed delivered, about] at carries
      cases carries
      have isRow := tables.taskIds.eq_of_mem stored inTable same
      exact absurd (isRow ▸ terminal) open_
  | unfinished => exact .inl rfl
  | raised message body now taskId other received subscribed delivered about
      stored same incomparable =>
      right
      have raises : state.database.tasks.any (fun row =>
          decide (row.id = taskId) &&
            row.incomparable deployment.dialect) = true :=
        List.any_eq_true.mpr ⟨other, stored, by simp [same, incomparable]⟩
      have carried : state.carried call = some taskId := by
        rw [State.carried_eq_some subscribed delivered, about]
      simp only [State.abandons, found, carried, Option.bind_eq_bind,
        Option.bind_some, raises, if_true]
  | worked => exact .inl rfl
  | busy taskId now phase unclaimable =>
      right
      have busy : state.database.busy taskId now = true := by
        rw [Database.busy, List.all_eq_true]
        intro other stored
        by_cases same : other.id = taskId
        · simp [unclaimable other stored same]
        · simp [same]
      simp [State.abandons, found, phase, busy]
  | skipped taskId todo phase rest unleased =>
      right
      have gone := Database.matches_eq_false unleased
      simp only [State.abandons, found, rest, gone, Option.bind_eq_bind,
        Option.bind_some, List.head?_cons, Bool.false_eq_true, if_false]
  | vanished taskId phase => simp [Call.owes, phase] at owes
  | uploaded now requestId own reference phase =>
      left
      have unsuccessful : call.refreshResult own = false := by
        simpa [Call.owes, phase] using owes
      exact (Bool.not_eq_true' _).mpr unsuccessful
  | failed now =>
      right
      simp [State.abandons, found, Call.live_of_owes owes]
  | crashed =>
      right
      simp [State.abandons, found, Call.live_of_owes owes]

/-- A handler that owes an answer for an open task goes on owing it, unless it
drops the message. -/
theorem Effect.owes_kept (effect : Effect deployment state action next)
    (tidy : state.Tidy) (queued : action.queued = true)
    (keeps : state.DropsNothing deployment.dialect action)
    (prepared : ∀ call ∈ state.calls, call.Prepared)
    (named : ∀ call ∈ state.calls, call.Named state) {index : Nat} {call : Call}
    (found : state.calls[index]? = some call) (owes : call.owes = true)
    {row : RequestTask} (carries : state.carried call = some row.id)
    (inNext : row ∈ next.database.tasks) (open_ : ¬ row.status.Terminal) :
    ∃ after, next.calls[index]? = some after ∧ after.owes = true := by
  have member := List.mem_of_getElem? found
  have replaced : ∀ {slot : Nat} {old after : Call},
      state.calls[slot]? = some old →
      (state.calls[slot]? = some call → old = call → after.owes = true) →
      ∃ after', (state.put slot after).calls[index]? = some after' ∧
        after'.owes = true := by
    intro slot old after located owing
    rw [State.put, getElem?_set_slot located]
    split
    next here =>
      rw [here] at found
      have same := located.symm.trans found
      exact ⟨after, rfl, owing found (Option.some.inj same)⟩
    next => exact ⟨call, found, owes⟩
  have appended : ∀ added : Call,
      ∃ after, (state.calls ++ [added])[index]? = some after ∧
        after.owes = true := by
    intro added
    refine ⟨call, ?_, owes⟩
    exact (List.getElem?_append_left
      (List.getElem?_eq_some_iff.mp found).1).trans found
  -- A dropped message is about a finished task.
  have done : state.abandons deployment.dialect action = some call →
      state.database.Done row.id :=
    fun abandons => keeps call abandons row.id carries
  have dropped : state.abandons deployment.dialect action = some call →
      row ∈ state.database.tasks → False :=
    fun abandons inTable => tidy.tables.not_done inTable open_ (done abandons)
  cases effect with
  | created | relayed | extended => exact ⟨call, found, owes⟩
  | opened => exact appended _
  | batchClaimed => cases queued
  | moved action slot old after artifacts located move =>
      apply replaced located
      rintro here rfl
      rcases move.owes_or_abandons tidy.tables here owes carries inNext open_
        with still | abandons
      · exact still
      · exact (dropped abandons inNext).elim
  | messageClaimed slot old taskId now located =>
      apply replaced located
      intro _ _
      rfl
  | selected slot old taskId todo leased located =>
      apply replaced located
      intro _ _
      rfl
  | recorded slot old taskId work task request now located phase held =>
      apply replaced located
      rintro here rfl
      have isTask := tidy.keyed old member taskId task held
      have about := named old member taskId (.inl (by rw [phase]; rfl))
      rw [carries] at about
      cases about
      obtain ⟨before, inTable, rfl⟩ := Table.mem_updateWhere.mp inNext
      split at open_
      next hit =>
        rcases Call.owes_of_recorded deployment request (prepared old member)
            (tidy.keyed old member) phase held open_ with
          ⟨cancelled, wasOpen⟩ | still
        · refine (tidy.tables.not_done inTable wasOpen ?_).elim
          have key : before.id = task.id := of_decide_eq_true hit
          rw [key, isTask]
          apply done
          simp [State.abandons, State.recording, here, phase, cancelled]
        · exact still
      next different =>
        rw [if_neg different] at isTask
        exact absurd (decide_eq_true isTask.symm) different
  | locked slot old requestId own session located target =>
      apply replaced located
      rintro here rfl
      cases target with
      | recorded taskId task phase held =>
          simpa [Call.owes, phase, Call.refreshResult, Session.loadRefresh_task,
            held] using owes
      | duplicate taskId other phase => simp [Call.owes, phase] at owes
  | refreshed slot old requestId own reference request noticeId now located
      phase =>
      apply replaced located
      rintro here rfl
      rw [Database.commitRefresh_tasks] at inNext
      refine (dropped ?_ inNext).elim
      have unsuccessful : old.refreshResult own = false := by
        simpa [Call.owes, phase] using owes
      simp [State.abandons, here, phase, unsuccessful]
  | acked slot old message body located subscribed delivered returned =>
      apply replaced located
      rintro here rfl
      simp [Call.owes, returned] at owes

/-- Only an outcome that is not a success opens a finished task again, and its
handler answers for it. -/
theorem Effect.owes_of_reopened (effect : Effect deployment state action next)
    (tidy : state.Tidy) (queued : action.queued = true)
    (prepared : ∀ call ∈ state.calls, call.Prepared)
    (named : ∀ call ∈ state.calls, call.Named state) {old row : RequestTask}
    (inTable : old ∈ state.database.tasks) (terminal : old.status.Terminal)
    (inNext : row ∈ next.database.tasks) (same : row.id = old.id)
    (open_ : ¬ row.status.Terminal) :
    ∃ (index : Nat) (call after : Call), state.calls[index]? = some call ∧
      state.carried call = some row.id ∧ next.calls[index]? = some after ∧
      after.owes = true := by
  have kept : row ∉ state.database.tasks := by
    intro member
    rw [tidy.tables.taskIds.eq_of_mem member inTable same] at open_
    exact open_ terminal
  cases effect with
  | relayed | opened | moved | selected | locked | acked =>
      exact absurd inNext kept
  | batchClaimed => cases queued
  | created intake nodup fresh =>
      rcases List.mem_append.mp inNext with stored | new
      · exact absurd stored kept
      · obtain ⟨_, _, freshTasks, _⟩ := Database.unused_iff.mp fresh
        obtain ⟨position, bound, isNew, _⟩ := Intake.mem_tasks new
        refine absurd ?_ (freshTasks old inTable)
        rw [← same, isNew]
        exact Intake.mem_drawnIds (by omega)
  | messageClaimed index call taskId now found phase claims =>
      obtain ⟨before, stored, written⟩ := Table.mem_updateWhere.mp inNext
      split at written
      next hit =>
        obtain ⟨other, otherStored, isTask, claimable⟩ :=
          claims.claimable taskId (List.mem_singleton_self _)
        have isOther : before = other := by
          apply tidy.tables.taskIds.eq_of_mem stored otherStored
          rw [isTask]
          exact List.mem_singleton.mp (of_decide_eq_true hit)
        have isOld : before = old := by
          apply tidy.tables.taskIds.eq_of_mem stored inTable
          rw [← same, ← written]
          rfl
        rw [← isOther, isOld] at claimable
        exact absurd terminal
          (RequestTask.not_terminal_of_claimable claimable)
      next =>
        exact absurd (written ▸ stored) kept
  | recorded index call taskId work task request now found phase held =>
      have member := List.mem_of_getElem? found
      have isTask := tidy.keyed call member taskId task held
      obtain ⟨before, stored, written⟩ := Table.mem_updateWhere.mp inNext
      split at written
      next hit =>
        have isOld : before = old := by
          apply tidy.tables.taskIds.eq_of_mem stored inTable
          rw [← same, ← written]
          rfl
        have about : row.id = taskId := by
          rw [same, ← isOld]
          exact (of_decide_eq_true hit).trans isTask
        refine ⟨index, call, _, found, ?_, State.put_self found _, ?_⟩
        · rw [about]
          exact named call member taskId (.inl (by rw [phase]; rfl))
        · rw [← written, isOld] at open_
          rcases Call.owes_of_recorded deployment request
              (prepared call member) (tidy.keyed call member) phase held
              open_ with ⟨_, wasOpen⟩ | owes
          · exact absurd terminal wasOpen
          · exact owes
      next =>
        exact absurd (written ▸ stored) kept
  | refreshed =>
      rw [Database.commitRefresh_tasks] at inNext
      exact absurd inNext kept
  | extended workerId taskId now =>
      have revises := Database.extendTaskLease_revises deployment.settings
        workerId taskId now state.database
      rw [revises.tasks] at inNext
      obtain ⟨before, stored, written⟩ := List.mem_map.mp inNext
      have isOld : before = old := by
        apply tidy.tables.taskIds.eq_of_mem stored inTable
        rw [← same, ← written, (revises.taskKey before).1]
      have unchanged : row.status = old.status := by
        rw [← written, isOld, Database.extendRow_status]
      rw [unchanged] at open_
      exact absurd terminal open_

end Owed

/-! ## Runs -/

/-- What holds while no message is dropped. -/
structure Tended (state : LocalState) : Prop where
  sound : state.control.Sound
  posted : Posted state.control
  named : ∀ call ∈ state.control.calls, call.Named state.control
  prepared : ∀ call ∈ state.control.calls, call.Prepared
  /-- Messages are received in their order, each one once. -/
  numbered : ∀ (index : Nat) (call : Call),
    state.control.calls[index]? = some call → call.message = some index
  mirrors : state.queue.messages.map ReceivedMessage.body =
    state.control.bodies.drop state.control.calls.length
  /-- An open task with a received message has a handler that answers for
  it. -/
  owed : ∀ row ∈ state.control.database.tasks, ¬ row.status.Terminal →
    ∀ call ∈ state.control.calls,
      state.control.carried call = some row.id →
      ∃ other ∈ state.control.calls, other.owes = true ∧
        state.control.carried other = some row.id

theorem localStep_cases {deployment : Deployment} {state after : LocalState}
    {action : Action}
    (stepped : localStep deployment state action = some after) :
    state.queue.follow state.control action = some after.queue ∧
      step deployment state.control action = some after.control := by
  unfold localStep at stepped
  simp only [Option.bind_eq_bind, Option.bind_eq_some_iff] at stepped
  obtain ⟨queue, followed, control, performed, result⟩ := stepped
  cases result
  exact ⟨followed, performed⟩

theorem LocalTaskQueue.queued_of_follow {queue after : LocalTaskQueue}
    {control : State} {action : Action}
    (followed : queue.follow control action = some after) :
    action.queued = true := by
  cases action with
  | processOnce arguments => cases followed
  | _ => rfl

namespace Tended

variable {deployment : Deployment} {state : LocalState} {next : State}
  {action : Action} {queue : LocalTaskQueue}

theorem subscribed (tended : Tended state) :
    ∀ call ∈ state.control.calls, call.message ≠ none := by
  intro call member
  obtain ⟨index, located⟩ := List.getElem?_of_mem member
  rw [tended.numbered index call located]
  exact Option.some_ne_none index

/-- No more handlers than messages. -/
theorem length_le (tended : Tended state) :
    state.control.calls.length ≤ state.control.queue.length := by
  by_contra more
  have bound : state.control.queue.length < state.control.calls.length := by
    omega
  have located := List.getElem?_eq_getElem bound
  have addressed := tended.sound.addressed _ (List.mem_of_getElem? located) _
    (tended.numbered _ _ located)
  omega

theorem numbered_step (tended : Tended state)
    (followed : state.queue.follow state.control action = some queue)
    (effect : Effect deployment state.control action next) :
    ∀ (index : Nat) (call : Call), next.calls[index]? = some call →
      call.message = some index := by
  intro index call located
  have put : ∀ {slot : Nat} {old after : Call},
      state.control.calls[slot]? = some old → after.message = old.message →
      (state.control.put slot after).calls[index]? = some call →
      call.message = some index := by
    intro slot old after found same put
    rcases State.put_cases found put with ⟨isSlot, new⟩ | ⟨_, kept⟩
    · rw [new, isSlot, same]
      exact tended.numbered slot old found
    · exact tended.numbered index call kept
  cases effect with
  | created | relayed | extended => exact tended.numbered index call located
  | opened workerId message executor bound =>
      rcases State.append_cases located with ⟨isLast, new⟩ | ⟨_, old⟩
      · rw [new, isLast]
        unfold LocalTaskQueue.follow at followed
        dsimp only at followed
        split at followed
        next =>
          split at followed
          next isNext => exact congrArg some isNext
          next => cases followed
        next => cases followed
      · exact tended.numbered index call old
  | batchClaimed => cases followed
  | moved action slot old after artifacts found move =>
      exact put found move.workerId.2 located
  | recorded slot old taskId work task request now found =>
      exact put found (Call.afterRecord_message ..) located
  | messageClaimed slot old taskId now found
  | selected slot old taskId todo row found
  | locked slot old requestId own session found
  | refreshed slot old requestId own reference request noticeId now found
  | acked slot old position message found => exact put found (by rfl) located

/-- The deque holds what was published and not received. -/
theorem mirrors_step (tended : Tended state)
    (followed : state.queue.follow state.control action = some queue)
    (effect : Effect deployment state.control action next) :
    queue.messages.map ReceivedMessage.body =
      next.bodies.drop next.calls.length := by
  have bound : state.control.calls.length ≤ state.control.bodies.length := by
    have messages := tended.length_le
    simpa [State.bodies] using messages
  have put : ∀ (slot : Nat) (after : Call),
      queue.messages = state.queue.messages →
      queue.messages.map ReceivedMessage.body = state.control.bodies.drop
        (state.control.put slot after).calls.length := by
    intro slot after same
    rw [same, State.put, List.length_set]
    exact tended.mirrors
  have grows := effect.bodies
  cases effect with
  | created | extended =>
      cases followed
      exact tended.mirrors
  | relayed action relays extra outbox move =>
      cases move with
      | selected | committed | crashed =>
          cases followed
          unfold State.bodies
          rw [List.append_nil]
          exact tended.mirrors
      | published index relay event remaining accepted confirmed now found
          live rest =>
          simp only [LocalTaskQueue.follow, found, rest, Option.bind_eq_bind,
            Option.bind_some, List.head?_cons] at followed
          split at followed
          next took =>
            cases followed
            have isAccepted := (Bool.and_eq_true _ _ ▸ took).1
            have mirrors := tended.mirrors
            unfold State.bodies at bound mirrors ⊢
            rw [isAccepted, if_pos rfl, List.map_append,
              List.drop_append_of_le_length bound, ← mirrors]
            simp [LocalTaskQueue.publish]
          next => cases followed
  | opened workerId message executor inside =>
      simp only [LocalTaskQueue.follow] at followed
      split at followed
      next rest received popped =>
        split at followed
        next =>
          cases followed
          -- The deque was not empty, so one message was taken off.
          have taken := congrArg (fun result => result.2.length) popped
          have left := congrArg (fun result => result.1.messages) popped
          simp only [LocalTaskQueue.receive, List.length_take,
            List.length_singleton] at taken left
          have one : min 1 state.queue.messages.length = 1 := by omega
          have later : state.control.bodies.drop
              (state.control.calls.length + 1) =
              (state.control.bodies.drop state.control.calls.length).drop 1 :=
            (List.drop_drop ..).symm
          rw [List.length_append, List.length_singleton, ← left, one,
            List.map_drop, tended.mirrors]
          exact later.symm
        next => cases followed
      next => cases followed
  | batchClaimed => cases followed
  | moved action index call after artifacts found move =>
      apply put index after
      cases move with
      | _ =>
          cases followed
          rfl
  | messageClaimed index | selected index | recorded index | locked index
  | refreshed index =>
      cases followed
      exact put index _ rfl
  | acked index call slot message found subscribed delivered returned =>
      simp only [LocalTaskQueue.follow, found, subscribed, delivered,
        Option.bind_eq_bind, Option.bind_some] at followed
      cases followed
      have same := grows.eq_of_length (by simp [State.bodies])
      rw [← same]
      exact put index call.close rfl

theorem carried_kept (tended : Tended state)
    (effect : Effect deployment state.control action next) {index : Nat}
    {call after : Call} (found : state.control.calls[index]? = some call)
    (located : next.calls[index]? = some after) :
    next.carried after = state.control.carried call := by
  obtain ⟨other, otherLocated, same⟩ := effect.message_kept found
  rw [located] at otherLocated
  cases otherLocated
  rw [State.carried_congr same]
  exact tended.sound.carried_eq (List.mem_of_getElem? found) effect

/-- A handler that was not there has just received its message. -/
theorem owes_of_new (effect : Effect deployment state.control action next)
    (queued : action.queued = true) {index : Nat} {call : Call}
    (new : state.control.calls.length ≤ index)
    (located : next.calls[index]? = some call) : call.owes = true := by
  have outside : ∀ {slots : List Call},
      slots.length = state.control.calls.length →
      slots[index]? = some call → False := by
    intro slots same found
    rw [List.getElem?_eq_none (by omega)] at found
    cases found
  cases effect with
  | created | relayed | extended => exact (outside rfl located).elim
  | opened =>
      rcases State.append_cases located with ⟨_, isNew⟩ | ⟨_, old⟩
      · rw [isNew]
        rfl
      · exact (outside rfl old).elim
  | batchClaimed => cases queued
  | moved | messageClaimed | selected | recorded | locked | refreshed
  | acked =>
      exact (outside List.length_set located).elim

theorem owed_step (tended : Tended state)
    (keeps : state.control.DropsNothing deployment.dialect action)
    (queued : action.queued = true)
    (effect : Effect deployment state.control action next)
    {row : RequestTask} (inNext : row ∈ next.database.tasks)
    (open_ : ¬ row.status.Terminal) {call : Call} (member : call ∈ next.calls)
    (carries : next.carried call = some row.id) :
    ∃ other ∈ next.calls, other.owes = true ∧
      next.carried other = some row.id := by
  have tidy := tended.sound.grounded.tidy
  obtain ⟨index, located⟩ := List.getElem?_of_mem member
  by_cases new : state.control.calls.length ≤ index
  · exact ⟨call, member, owes_of_new effect queued new located, carries⟩
  · have found := List.getElem?_eq_getElem (Nat.lt_of_not_le new)
    have before := tended.carried_kept effect found located
    rw [carries] at before
    -- The task of a received message was in the table.
    obtain ⟨old, oldFound⟩ := tended.posted.task_of_carried before.symm
    obtain ⟨inTable, same⟩ := Database.task_mem oldFound
    by_cases terminal : old.status.Terminal
    · obtain ⟨slot, handler, after, handlerFound, about, afterLocated, owes⟩ :=
        effect.owes_of_reopened tidy queued tended.prepared tended.named inTable
          terminal inNext same.symm open_
      refine ⟨after, List.mem_of_getElem? afterLocated, owes, ?_⟩
      exact (tended.carried_kept effect handlerFound afterLocated).trans about
    · rw [← same] at before
      obtain ⟨handler, inCalls, owes, about⟩ := tended.owed old inTable terminal
        _ (List.mem_of_getElem? found) before.symm
      obtain ⟨slot, handlerFound⟩ := List.getElem?_of_mem inCalls
      rw [same] at about
      obtain ⟨after, afterLocated, still⟩ := effect.owes_kept tidy queued keeps
        tended.prepared tended.named handlerFound owes about inNext open_
      refine ⟨after, List.mem_of_getElem? afterLocated, still, ?_⟩
      exact (tended.carried_kept effect handlerFound afterLocated).trans about

theorem step (tended : Tended state)
    (keeps : NothingDropped deployment state action)
    {after : LocalState}
    (stepped : localStep deployment state action = some after) :
    Tended after := by
  obtain ⟨followed, performed⟩ := localStep_cases stepped
  have queued := LocalTaskQueue.queued_of_follow followed
  have tidy := tended.sound.grounded.tidy
  have effect := effect_of_step tidy.tables.taskIds performed
  constructor
  · exact tended.sound.effect effect
  · exact tended.posted.step tidy performed
  · exact tended.sound.named effect queued tended.named
  · exact effect.prepared queued tended.subscribed tended.prepared
  · exact tended.numbered_step followed effect
  · exact tended.mirrors_step followed effect
  · intro row inNext open_ call member carries
    exact tended.owed_step keeps queued effect inNext open_ member carries

theorem initial : Tended .initial := by
  refine ⟨State.Sound.initial, Posted.initial, ?_, ?_, ?_, rfl, ?_⟩
  · intro call member
    cases member
  · intro call member
    cases member
  · intro index call located
    cases located
  · intro row member
    cases member

theorem deliverable (tended : Tended state) (between : state.BetweenPasses) :
    state.Deliverable := by
  intro task inTasks open_
  obtain ⟨row, inOutbox, named⟩ := tended.posted.ready task inTasks
  by_cases unpublished : row.publishedAt = none
  · exact .inl ⟨row, inOutbox, named, unpublished⟩
  · right
    obtain ⟨message, member, body⟩ :=
      tended.posted.published row inOutbox unpublished
    have about : message.body.taskId? = some task.id := by
      rw [body]
      exact named
    refine ⟨message.body, localTaskQueue_redelivers_iff.mpr ?_, about⟩
    rw [tended.mirrors]
    obtain ⟨slot, located⟩ := List.getElem?_of_mem member
    by_cases received : slot < state.control.calls.length
    · -- The handler of a received message would still be under way.
      have found := List.getElem?_eq_getElem received
      have carries := (State.carried_eq_some (tended.numbered _ _ found)
        located).trans about
      obtain ⟨handler, inCalls, owes, _⟩ := tended.owed task inTasks open_ _
        (List.mem_of_getElem? found) carries
      rw [Call.owes_eq_false_of_ended (between.1 handler inCalls)] at owes
      cases owes
    · have bodies : state.control.bodies[slot]? = some message.body := by
        unfold State.bodies
        rw [List.getElem?_map, located]
        rfl
      apply List.mem_of_getElem? (i := slot - state.control.calls.length)
      rw [List.getElem?_drop, ← bodies]
      congr 1
      omega

end Tended

/-- While no handler drops the message of an open task, such a task has a row
or a message left whenever no pass is under way.  What was delivered and not
acknowledged is delivered again only for as many copies as were published. -/
theorem local_queue_delivers_what_is_not_dropped (deployment : Deployment) :
    (∀ (actions : List Action) (state : LocalState),
      Runs (localStep deployment) (NothingDropped deployment) .initial actions
        state →
      state.BetweenPasses → state.Deliverable) ∧
    ∀ moves : List (Redelivery.Move Envelope String),
      localTaskQueue.KeepsContract moves ↔
        ∀ body ∈ localTaskQueue.deliveries .empty moves,
          body.eventId ∉ Redelivery.acknowledged moves →
          (localTaskQueue.deliveries .empty moves).count body <
            (Redelivery.published moves).count body := by
  refine ⟨?_, localTaskQueue_keepsContract_iff⟩
  intro actions state execution between
  have tended : Tended state :=
    execution.invariant (fun tended keeps stepped => tended.step keeps stepped)
      Tended.initial
  exact tended.deliverable between

/-! One pass publishes the rows of a request for two sources and receives two
of the three messages; the first task is executed. -/

private def localPass (work : Work) : List Action :=
  .create (demoIntake 'a' .access ["jobs", "profile"] demoSources_nodup
      demoSources_allowed) :: demoRelay 0 3 ++
    [.deliver "w" 0 true, .messageGet 0 11, .ack 0, .deliver "w" 1 true] ++
    demoExecution 1 work ++ [.refreshSelect 1, .refreshCommit 1 "k" 13]

private def LocalState.progress (state : LocalState) :
    List TaskStatus × Nat :=
  (state.control.database.tasks.map RequestTask.status,
    state.queue.messages.length)

theorem acknowledged_pass_leaves_other_task_deliverable :
    ∃ state, Runs (localStep demoDeployment) (NothingDropped demoDeployment)
        LocalState.initial (localPass demoSuccess ++ [.ack 1]) state ∧
      state.BetweenPasses ∧
      state.progress = ([.succeeded, .pending], 1) ∧
      state.Deliverable := by
  have evaluated : ((run (localStep demoDeployment)
      (NothingDropped demoDeployment) LocalState.initial
      (localPass demoSuccess ++ [.ack 1])).map fun state =>
        (decide state.BetweenPasses, state.progress)) =
      some (true, ([.succeeded, .pending], 1)) := by
    decide +kernel
  obtain ⟨state, result, observed⟩ := Option.map_eq_some_iff.mp evaluated
  obtain ⟨between, progress⟩ := Prod.mk.inj observed
  have execution := runs_of_run result
  have between := of_decide_eq_true between
  exact ⟨state, execution, between, progress,
    (local_queue_delivers_what_is_not_dropped demoDeployment).1 _ state
      execution between⟩

/-! The execution of the first task fails and is to be retried. -/

private def retriedWork : Work :=
  { ending := .raised "timeout", deleted := [], deletedAt := 0 }

private def localBody : Envelope :=
  { eventId := "e", tenantId := "t", aggregateId := "a"
    eventType := EventType.taskReady.value, payload := .null, createdAt := 0 }

theorem rescheduled_task_loses_its_message :
    (∃ state, Runs (localStep demoDeployment) Always LocalState.initial
        (localPass retriedWork) state ∧
      state.BetweenPasses ∧
      state.progress = ([.pending, .pending], 1) ∧
      ¬ state.Deliverable) ∧
    ¬ localTaskQueue.KeepsContract [.publish localBody, .receive 10] := by
  have evaluated : ((run (localStep demoDeployment) Always
      LocalState.initial (localPass retriedWork)).map fun state =>
        (decide state.BetweenPasses, state.progress,
          decide state.Deliverable)) =
      some (true, ([.pending, .pending], 1), false) := by
    decide +kernel
  obtain ⟨state, result, observed⟩ := Option.map_eq_some_iff.mp evaluated
  obtain ⟨between, rest⟩ := Prod.mk.inj observed
  obtain ⟨progress, stranded⟩ := Prod.mk.inj rest
  refine ⟨⟨state, runs_of_run result, of_decide_eq_true between, progress,
    of_decide_eq_false stranded⟩, ?_⟩
  rw [localTaskQueue_keepsContract_iff]
  decide

end FleetPrivacy
