import FleetPrivacy.ControlPlane

/-!
# What one action can do

`Effect` lists the effects of `step`, one constructor for each way the state
can change, with everything the code checked on the way.  Invariants are proved
from it and never unfold `step`.
-/

namespace FleetPrivacy

open Transition

/-- The relay actions: new relays, new messages and the outbox afterwards. -/
inductive RelayMove (deployment : Deployment) (state : State) : Action →
    List Relay → List QueueMessage → List OutboxEvent → Prop where
  | selected (batchSize : Nat) :
      RelayMove deployment state (.relaySelect batchSize)
        (relaySelectStep deployment state batchSize).relays []
        state.database.outbox
  | published (index : Nat) (relay : Relay) (event : OutboxEvent)
      (remaining : List OutboxEvent) (accepted confirmed : Bool) (now : Time) :
      state.relays[index]? = some relay →
      relay.closed = false →
      relay.remaining = event :: remaining →
      (confirmed = true → accepted = true) →
      RelayMove deployment state (.relayPublish index accepted confirmed now)
        (state.relays.set index { relay with
          remaining
          sent := relay.sent ++ (if confirmed then [(event.id, now)] else []) })
        (if accepted then [⟨eventEnvelope event, false⟩] else [])
        state.database.outbox
  | committed (index : Nat) (relay : Relay) :
      state.relays[index]? = some relay →
      relay.closed = false →
      relay.remaining = [] →
      RelayMove deployment state (.relayCommit index)
        (state.relays.set index { relay with closed := true }) []
        (markPublished relay.sent state.database.outbox)
  | crashed (index : Nat) (relay : Relay) :
      state.relays[index]? = some relay →
      RelayMove deployment state (.relayCrash index)
        (state.relays.set index { relay with closed := true }) []
        state.database.outbox

/-- Moves of one call that commit nothing and load nothing. -/
inductive CallMove (deployment : Deployment) (state : State) (index : Nat)
    (call : Call) : Action → Call → Prop where
  | ignored (slot : Nat) (message : QueueMessage) (now : Time) :
      call.phase = .received →
      call.message = some slot →
      state.queue[slot]? = some message →
      (∀ taskId, message.body.taskId? = some taskId →
        ∀ row ∈ state.database.tasks, row.id ≠ taskId) →
      CallMove deployment state index call (.messageGet index now)
        { call with phase := .returned true }
  | terminal (slot : Nat) (message : QueueMessage) (now : Time)
      (taskId : String) (row : RequestTask) :
      call.phase = .received →
      call.message = some slot →
      state.queue[slot]? = some message →
      message.body.taskId? = some taskId →
      row ∈ state.database.tasks →
      row.id = taskId →
      row.status.Terminal →
      CallMove deployment state index call (.messageGet index now)
        { call with phase := .duplicate taskId }
  | unfinished (slot : Nat) (message : QueueMessage) (now : Time)
      (taskId : String) :
      call.phase = .received →
      call.message = some slot →
      state.queue[slot]? = some message →
      message.body.taskId? = some taskId →
      CallMove deployment state index call (.messageGet index now)
        { call with phase := .claiming taskId now }
  | raised (slot : Nat) (message : QueueMessage) (now : Time)
      (taskId : String) (row : RequestTask) :
      call.phase = .received →
      call.message = some slot →
      state.queue[slot]? = some message →
      message.body.taskId? = some taskId →
      row ∈ state.database.tasks →
      row.id = taskId →
      row.incomparable deployment.dialect = true →
      CallMove deployment state index call (.messageGet index now) call.close
  | busy (taskId : String) (now : Time) :
      call.phase = .claiming taskId now →
      (∀ row ∈ state.database.tasks, row.id = taskId →
        row.claimable now = false) →
      CallMove deployment state index call (.messageClaim index)
        { call with phase := .returned false }
  | skipped (taskId : String) (todo : List String) :
      call.phase = .ready →
      call.todo = taskId :: todo →
      (∀ row ∈ state.database.tasks, row.id = taskId →
        row.leasedBy call.workerId = false) →
      CallMove deployment state index call (.selectTask index)
        { call with todo, phase := call.resume false }
  | worked (taskId : String) (work : Work) :
      call.phase = .working taskId →
      CallMove deployment state index call (.work index work)
        { call with phase := .worked taskId work }
  | vanished (taskId : String) :
      call.phase = .duplicate taskId →
      (∀ row ∈ state.database.tasks, row.id ≠ taskId) →
      CallMove deployment state index call (.refreshSelect index)
        { call with phase := .returned true }
  | uploaded (now : Time) (requestId : String)
      (own : Option String) (reference : String) :
      call.phase = .refreshing requestId own none →
      CallMove deployment state index call (.upload index true now)
        { call with phase := .refreshing requestId own (some reference) }
  | failed (now : Time) :
      CallMove deployment state index call (.upload index false now) call.close
  | crashed : CallMove deployment state index call (.crash index) call.close

/-- The call after `recordTask`. -/
def Call.afterRecord (deployment : Deployment) (call : Call)
    (taskId : String) (work : Work) (task : RequestTask)
    (request : PrivacyRequest) : Call :=
  if work.ending = .cancelled then call.close
  else
    { call with
      session := (call.session.putTask (task.settle deployment.settings
        call.executor work.ending)).putRequest request.verify
      phase := .recorded taskId }

/-- The request that a call is about to refresh, the task it has recorded, and
the session it uses: its own, or a new one for a duplicate. -/
inductive Call.RefreshTarget (call : Call) (database : Database) :
    String → Option String → Session → Prop where
  | recorded (taskId : String) (task : RequestTask) :
      call.phase = .recorded taskId →
      call.session.task taskId = some task →
      RefreshTarget call database task.requestId (some taskId) call.session
  | duplicate (taskId : String) (row : RequestTask) :
      call.phase = .duplicate taskId →
      row ∈ database.tasks →
      row.id = taskId →
      RefreshTarget call database row.requestId none .empty

inductive Effect (deployment : Deployment) (state : State) :
    Action → State → Prop where
  | created (intake : Intake) :
      intake.drawnIds.Nodup →
      state.database.unused intake.drawnIds = true →
      findByIdempotency state.database intake.tenantId
        intake.idempotencyKey = none →
      Effect deployment state (.create intake)
        { state with
          database := intake.insertRows deployment.runtime state.database }
  | relayed (action : Action) (relays : List Relay)
      (extra : List QueueMessage) (outbox : List OutboxEvent) :
      RelayMove deployment state action relays extra outbox →
      Effect deployment state action
        { state with
          relays
          queue := state.queue ++ extra
          database := { state.database with outbox } }
  | opened (workerId : String) (message : Nat) (executor : Bool) :
      message < state.queue.length →
      Effect deployment state (.deliver workerId message executor)
        { state with calls := state.calls ++ [{
            workerId, message := some message, executor, session := .empty
            todo := [], phase := .received }] }
  | moved (action : Action) (index : Nat) (call next : Call)
      (artifacts : ArtifactStore) :
      state.calls[index]? = some call →
      CallMove deployment state index call action next →
      Effect deployment state action
        { (state.put index next) with artifacts }
  | messageClaimed (index : Nat) (call : Call) (taskId : String) (now : Time) :
      state.calls[index]? = some call →
      call.phase = .claiming taskId now →
      state.database.Claims now [taskId] →
      state.startable deployment.dialect
        (state.database.requestIdsOf [taskId]) = true →
      Effect deployment state (.messageClaim index)
        { (state.put index { call with
            session := .empty, todo := [taskId], phase := .ready }) with
          database := state.database.markClaimed [taskId] call.workerId
            (now + deployment.settings.leaseSeconds) now }
  | batchClaimed (arguments : ClaimArguments) (session : Session)
      (taskIds : List String) :
      (claimTasks deployment.settings deployment.dialect arguments
        state.database).2.2 = taskIds →
      state.database.Claims arguments.now taskIds →
      (∀ taskId copy, session.task taskId = some copy →
        ∃ row ∈ state.database.tasks, row.id = taskId ∧ taskId ∈ taskIds ∧
          copy = row.claim arguments.workerId
            (arguments.leaseUntil deployment.settings)) →
      session.request = Session.empty.request →
      session.members = Session.empty.members →
      state.startable deployment.dialect
        (state.database.requestIdsOf taskIds) = true →
      Effect deployment state (.processOnce arguments)
        { state with
          database := state.database.markClaimed taskIds arguments.workerId
            (arguments.leaseUntil deployment.settings) arguments.now
          calls := state.calls ++ [{
            workerId := arguments.workerId, message := none, executor := false
            session, todo := taskIds, phase := .ready }] }
  | selected (index : Nat) (call : Call) (taskId : String)
      (todo : List String) (row : RequestTask) :
      state.calls[index]? = some call →
      call.phase = .ready →
      call.todo = taskId :: todo →
      row ∈ state.database.tasks →
      row.id = taskId →
      row.leasedBy call.workerId = true →
      Effect deployment state (.selectTask index)
        (state.put index { call with
          session := (call.session.loadTasks [row]).loadRequests
            (state.database.requests.filter fun request =>
              decide (request.id = row.requestId))
          todo
          phase := .working taskId })
  | recorded (index : Nat) (call : Call) (taskId : String) (work : Work)
      (task : RequestTask) (request : PrivacyRequest) (now : Time) :
      state.calls[index]? = some call →
      call.phase = .worked taskId work →
      call.session.task taskId = some task →
      call.session.request task.requestId = some request →
      (request.verify = request ∨
        state.rowFree deployment.dialect request.id = true) →
      Effect deployment state (.recordTask index now)
        { (state.put index
            (call.afterRecord deployment taskId work task request)) with
          database := recordOutcome deployment.runtime deployment.settings
            call.executor work task request now state.database }
  | locked (index : Nat) (call : Call) (requestId : String)
      (own : Option String) (session : Session) :
      state.calls[index]? = some call →
      call.RefreshTarget state.database requestId own session →
      state.rowFree deployment.dialect requestId = true →
      Effect deployment state (.refreshSelect index)
        (state.put index { call with
          session := session.loadRefresh state.database requestId
          phase := .refreshing requestId own none })
  | refreshed (index : Nat) (call : Call) (requestId : String)
      (own reference : Option String) (request : PrivacyRequest)
      (noticeId : String) (now : Time) :
      state.calls[index]? = some call →
      call.phase = .refreshing requestId own reference →
      call.session.request requestId = some request →
      (request.needsArtifact (call.session.derivedStatus requestId) = true →
        reference.isSome = true) →
      state.database.unused [noticeId] = true →
      Effect deployment state (.refreshCommit index noticeId now)
        { (state.put index { call with
            session := call.session.putRequest (request.refresh
              (call.session.derivedStatus requestId) reference)
            phase := call.resume (call.refreshResult own) }) with
          database := commitRefresh deployment.runtime call.session request
            reference noticeId now state.database }
  | acked (index : Nat) (call : Call) (slot : Nat) (message : QueueMessage) :
      state.calls[index]? = some call →
      call.message = some slot →
      state.queue[slot]? = some message →
      call.phase = .returned true →
      Effect deployment state (.ack index)
        { (state.put index call.close) with
          queue := state.queue.set slot { message with acked := true } }
  | extended (workerId taskId : String) (now : Time) :
      Effect deployment state (.extendLease workerId taskId now)
        { state with
          database := extendTaskLease deployment.settings workerId taskId now
            state.database }

/-! ## Reading `step` -/

section Inversion

variable {deployment : Deployment} {state next : State}

private theorem effect_create {intake : Intake}
    (stepped : createStep deployment state intake = some next) :
    Effect deployment state (.create intake) next := by
  simp only [createStep] at stepped
  split at stepped
  next guards =>
    cases stepped
    simp only [Bool.and_eq_true, decide_eq_true_eq,
      Option.isNone_iff_eq_none] at guards
    exact .created intake guards.1.1 guards.1.2 guards.2
  next => cases stepped

private theorem effect_relayPublish {index : Nat} {accepted confirmed : Bool}
    {now : Time}
    (stepped : relayPublishStep state index accepted confirmed now =
      some next) :
    Effect deployment state (.relayPublish index accepted confirmed now)
      next := by
  simp only [relayPublishStep, Option.bind_eq_bind,
    Option.bind_eq_some_iff] at stepped
  obtain ⟨relay, found, stepped⟩ := stepped
  split at stepped
  next event remaining isOpen rest =>
    split at stepped
    next => cases stepped
    next honest =>
      cases stepped
      refine .relayed _ _ _ _ (.published index relay event remaining accepted
        confirmed now found isOpen rest ?_)
      intro isConfirmed
      simpa [isConfirmed] using honest
  next => cases stepped

private theorem effect_relayCommit {index : Nat}
    (stepped : relayCommitStep state index = some next) :
    Effect deployment state (.relayCommit index) next := by
  simp only [relayCommitStep, Option.bind_eq_bind,
    Option.bind_eq_some_iff] at stepped
  obtain ⟨relay, found, stepped⟩ := stepped
  split at stepped
  next isOpen rest =>
    cases stepped
    have move : RelayMove deployment state _ _ _ _ :=
      .committed index relay found isOpen rest
    simpa [State.putRelay] using Effect.relayed (.relayCommit index) _ _ _ move
  next => cases stepped

private theorem effect_relayCrash {index : Nat}
    (stepped : relayCrashStep state index = some next) :
    Effect deployment state (.relayCrash index) next := by
  simp only [relayCrashStep, Option.bind_eq_bind,
    Option.bind_eq_some_iff] at stepped
  obtain ⟨relay, found, stepped⟩ := stepped
  cases stepped
  have move : RelayMove deployment state _ _ _ _ := .crashed index relay found
  simpa [State.putRelay] using Effect.relayed (.relayCrash index) _ _ _ move

private theorem effect_messageGet {index : Nat} {now : Time}
    (stepped : messageGetStep deployment state index now = some next) :
    Effect deployment state (.messageGet index now) next := by
  simp only [messageGetStep, Option.bind_eq_bind,
    Option.bind_eq_some_iff] at stepped
  obtain ⟨call, found, slot, subscribed, message, delivered, stepped⟩ := stepped
  split at stepped
  next received =>
    split at stepped
    next noTask =>
      cases stepped
      refine .moved _ index call _ state.artifacts found (.ignored slot
        message now received subscribed delivered ?_)
      intro taskId names
      rw [noTask] at names
      cases names
    next taskId names =>
      split at stepped
      next missing =>
        cases stepped
        refine .moved _ index call _ state.artifacts found (.ignored slot
          message now received subscribed delivered ?_)
        intro other namesOther
        rw [names] at namesOther
        cases namesOther
        exact Table.get_eq_none_iff.mp missing
      next row located =>
        obtain ⟨member, same⟩ := Table.get_mem located
        split at stepped
        next terminal =>
          cases stepped
          exact .moved _ index call _ state.artifacts found (.terminal
            slot message now taskId row received subscribed delivered names
            member same terminal)
        next =>
          split at stepped
          next incomparable =>
            cases stepped
            exact .moved _ index call _ state.artifacts found (.raised slot
              message now taskId row received subscribed delivered names member
              same incomparable)
          next =>
            cases stepped
            exact .moved _ index call _ state.artifacts found (.unfinished
              slot message now taskId received subscribed delivered names)
  next => cases stepped

private theorem effect_messageClaim {index : Nat}
    (unique : Table.KeyUnique RequestTask.id state.database.tasks)
    (stepped : messageClaimStep deployment state index = some next) :
    Effect deployment state (.messageClaim index) next := by
  simp only [messageClaimStep, Option.bind_eq_bind,
    Option.bind_eq_some_iff] at stepped
  obtain ⟨call, found, stepped⟩ := stepped
  split at stepped
  next taskId now phase =>
    split at stepped
    next unclaimed =>
      cases stepped
      exact .moved _ index call _ state.artifacts found
        (.busy taskId now phase (claimMessageTask_eq_none unclaimed))
    next database claimed =>
      split at stepped
      next startable =>
        cases stepped
        obtain ⟨rfl, claims⟩ := claimMessageTask_eq_some unique claimed
        exact .messageClaimed index call taskId now found phase claims startable
      next => cases stepped
  next => cases stepped

private theorem effect_processOnce {arguments : ClaimArguments}
    (unique : Table.KeyUnique RequestTask.id state.database.tasks)
    (stepped : processOnceStep deployment state arguments = some next) :
    Effect deployment state (.processOnce arguments) next := by
  obtain ⟨session, taskIds, result, claims, copies, requests, members⟩ :=
    claimTasks_spec deployment.settings deployment.dialect arguments unique
  simp only [processOnceStep, result] at stepped
  split at stepped
  next startable =>
    cases stepped
    exact .batchClaimed arguments session taskIds (by rw [result]) claims
      copies requests members startable
  next => cases stepped

private theorem effect_selectTask {index : Nat}
    (stepped : selectTaskStep state index = some next) :
    Effect deployment state (.selectTask index) next := by
  simp only [selectTaskStep, Option.bind_eq_bind,
    Option.bind_eq_some_iff] at stepped
  obtain ⟨call, found, stepped⟩ := stepped
  split at stepped
  next taskId todo phase rest =>
    split at stepped
    next missing =>
      cases stepped
      refine .moved _ index call _ state.artifacts found
        (.skipped taskId todo phase rest ?_)
      intro row member same
      have mismatch := List.find?_eq_none.mp missing row member
      simpa [same] using mismatch
    next row located =>
      cases stepped
      have matching := List.find?_some located
      rw [Bool.and_eq_true, decide_eq_true_iff] at matching
      exact .selected index call taskId todo row found phase rest
        (List.mem_of_find?_eq_some located) matching.1 matching.2
  next => cases stepped

private theorem effect_work {index : Nat} {work : Work}
    (stepped : workStep state index work = some next) :
    Effect deployment state (.work index work) next := by
  simp only [workStep, Option.bind_eq_bind,
    Option.bind_eq_some_iff] at stepped
  obtain ⟨call, found, stepped⟩ := stepped
  split at stepped
  next taskId phase =>
    simp only [Option.bind_eq_some_iff] at stepped
    obtain ⟨task, _, request, _, stepped⟩ := stepped
    split at stepped
    next =>
      cases stepped
      exact .moved _ index call _ state.artifacts found
        (.worked taskId work phase)
    next => cases stepped
  next => cases stepped

private theorem effect_recordTask {index : Nat} {now : Time}
    (stepped : recordTaskStep deployment state index now = some next) :
    Effect deployment state (.recordTask index now) next := by
  simp only [recordTaskStep, Option.bind_eq_bind,
    Option.bind_eq_some_iff] at stepped
  obtain ⟨call, found, stepped⟩ := stepped
  split at stepped
  next taskId work phase =>
    simp only [Option.bind_eq_some_iff] at stepped
    obtain ⟨task, held, request, requestHeld, stepped⟩ := stepped
    split at stepped
    next free =>
      have effect : Effect deployment state (.recordTask index now) _ :=
        .recorded index call taskId work task request now found phase held
          requestHeld free
      unfold Call.afterRecord at effect
      split at stepped
      next cancelled =>
        cases stepped
        rw [if_pos cancelled] at effect
        exact effect
      next uncancelled =>
        cases stepped
        rw [if_neg uncancelled] at effect
        exact effect
    next => cases stepped
  next => cases stepped

private theorem effect_refreshSelect {index : Nat}
    (stepped : refreshSelectStep deployment state index = some next) :
    Effect deployment state (.refreshSelect index) next := by
  simp only [refreshSelectStep, Option.bind_eq_bind,
    Option.bind_eq_some_iff] at stepped
  obtain ⟨call, found, stepped⟩ := stepped
  split at stepped
  next taskId phase =>
    simp only [Option.bind_eq_some_iff] at stepped
    obtain ⟨task, held, stepped⟩ := stepped
    split at stepped
    next free =>
      cases stepped
      exact .locked index call _ _ _ found (.recorded taskId task phase held)
        free
    next => cases stepped
  next taskId phase =>
    split at stepped
    next missing =>
      cases stepped
      exact .moved _ index call _ state.artifacts found
        (.vanished taskId phase (Table.get_eq_none_iff.mp missing))
    next row located =>
      obtain ⟨member, same⟩ := Table.get_mem located
      split at stepped
      next free =>
        cases stepped
        exact .locked index call _ _ _ found
          (.duplicate taskId row phase member same) free
      next => cases stepped
  next => cases stepped

private theorem effect_upload {index : Nat} {succeeded : Bool} {now : Time}
    (stepped : uploadStep deployment state index succeeded now = some next) :
    Effect deployment state (.upload index succeeded now) next := by
  simp only [uploadStep, Option.bind_eq_bind,
    Option.bind_eq_some_iff] at stepped
  obtain ⟨call, found, stepped⟩ := stepped
  split at stepped
  next requestId own phase =>
    simp only [Option.bind_eq_some_iff] at stepped
    obtain ⟨request, _, stepped⟩ := stepped
    split at stepped
    next =>
      split at stepped
      next isTrue =>
        cases stepped
        rw [isTrue]
        exact .moved _ index call _ _ found
          (.uploaded now requestId own _ phase)
      next isFalse =>
        cases stepped
        rw [Bool.eq_false_iff.mpr isFalse]
        exact .moved _ index call _ state.artifacts found (.failed now)
    next => cases stepped
  next => cases stepped

private theorem effect_refreshCommit {index : Nat} {noticeId : String}
    {now : Time}
    (stepped : refreshCommitStep deployment state index noticeId now =
      some next) :
    Effect deployment state (.refreshCommit index noticeId now) next := by
  simp only [refreshCommitStep, Option.bind_eq_bind,
    Option.bind_eq_some_iff] at stepped
  obtain ⟨call, found, stepped⟩ := stepped
  split at stepped
  next requestId own reference phase =>
    simp only [Option.bind_eq_some_iff] at stepped
    obtain ⟨request, held, stepped⟩ := stepped
    split at stepped
    next guards =>
      cases stepped
      rw [Bool.and_eq_true, Bool.or_eq_true, Bool.not_eq_true'] at guards
      refine .refreshed index call requestId own reference request noticeId now
        found phase held ?_ guards.2
      intro needed
      rcases guards.1 with unneeded | uploaded
      · rw [needed] at unneeded
        cases unneeded
      · exact uploaded
    next => cases stepped
  next => cases stepped

private theorem effect_ack {index : Nat}
    (stepped : ackStep state index = some next) :
    Effect deployment state (.ack index) next := by
  simp only [ackStep, Option.bind_eq_bind,
    Option.bind_eq_some_iff] at stepped
  obtain ⟨call, found, slot, subscribed, message, delivered, stepped⟩ := stepped
  split at stepped
  next returned =>
    cases stepped
    exact .acked index call slot message found subscribed delivered returned
  next => cases stepped

/-- Every step has one of the listed effects. -/
theorem effect_of_step {action : Action}
    (unique : Table.KeyUnique RequestTask.id state.database.tasks)
    (stepped : step deployment state action = some next) :
    Effect deployment state action next := by
  cases action with
  | create intake => exact effect_create stepped
  | relaySelect batchSize =>
      cases stepped
      have move : RelayMove deployment state _ _ _ _ := .selected batchSize
      simpa [relaySelectStep] using
        Effect.relayed (.relaySelect batchSize) _ _ _ move
  | relayPublish relay accepted confirmed now =>
      exact effect_relayPublish stepped
  | relayCommit relay => exact effect_relayCommit stepped
  | relayCrash relay => exact effect_relayCrash stepped
  | deliver workerId message executor =>
      simp only [step, deliverStep] at stepped
      split at stepped
      next bound =>
        cases stepped
        exact .opened workerId message executor bound
      next => cases stepped
  | messageGet call now => exact effect_messageGet stepped
  | messageClaim call => exact effect_messageClaim unique stepped
  | processOnce arguments => exact effect_processOnce unique stepped
  | selectTask call => exact effect_selectTask stepped
  | work call work => exact effect_work stepped
  | recordTask call now => exact effect_recordTask stepped
  | refreshSelect call => exact effect_refreshSelect stepped
  | upload call succeeded now => exact effect_upload stepped
  | refreshCommit call noticeId now => exact effect_refreshCommit stepped
  | ack call => exact effect_ack stepped
  | crash index =>
      simp only [step, crashStep, Option.bind_eq_bind,
        Option.bind_eq_some_iff] at stepped
      obtain ⟨call, found, stepped⟩ := stepped
      cases stepped
      exact .moved _ index call _ state.artifacts found (.crashed)
  | extendLease workerId taskId now =>
      cases stepped
      exact .extended workerId taskId now

end Inversion

/-! ## Frames -/

/-- The task that `execute_task` has in hand. -/
def Call.current (call : Call) : Option String :=
  match call.phase with
  | .working taskId | .worked taskId _ => some taskId
  | _ => none

@[simp] theorem Call.current_close (call : Call) :
    call.close.current = none := rfl

theorem Call.current_resume (call : Call) (session : Session)
    (todo : List String) (result : Bool) :
    Call.current { call with
      session, todo, phase := call.resume result } = none := by
  unfold Call.current Call.resume
  cases call.message <;> rfl

/-- A resumed call holds no row lock. -/
theorem Call.refreshes_resume (call : Call) (result : Bool)
    (requestId : String) :
    (call.resume result).refreshes requestId = false := by
  unfold Call.resume
  cases call.message <;> rfl

theorem Call.resume_ne_recorded (call : Call) (result : Bool)
    (taskId : String) : call.resume result ≠ .recorded taskId := by
  unfold Call.resume
  cases call.message with
  | none => simp
  | some slot => simp

section AfterRecord

variable (deployment : Deployment) (call : Call) (taskId : String)
  (work : Work) (task : RequestTask) (request : PrivacyRequest)

@[simp] theorem Call.afterRecord_workerId :
    (call.afterRecord deployment taskId work task request).workerId =
      call.workerId := by
  unfold Call.afterRecord
  split
  next => rfl
  next => rfl

@[simp] theorem Call.afterRecord_message :
    (call.afterRecord deployment taskId work task request).message =
      call.message := by
  unfold Call.afterRecord
  split
  next => rfl
  next => rfl

@[simp] theorem Call.afterRecord_executor :
    (call.afterRecord deployment taskId work task request).executor =
      call.executor := by
  unfold Call.afterRecord
  split
  next => rfl
  next => rfl

/-- A cancelled execution ends its call. -/
theorem Call.afterRecord_phase :
    (call.afterRecord deployment taskId work task request).phase = .closed ∨
      (call.afterRecord deployment taskId work task request).phase =
        .recorded taskId := by
  unfold Call.afterRecord
  split
  next => exact .inl rfl
  next => exact .inr rfl

theorem Call.todo_afterRecord :
    (call.afterRecord deployment taskId work task request).todo <:+
      call.todo := by
  unfold Call.afterRecord
  split
  next => exact List.nil_suffix
  next => exact List.suffix_rfl

theorem Call.current_afterRecord :
    (call.afterRecord deployment taskId work task request).current = none := by
  unfold Call.current
  rcases call.afterRecord_phase deployment taskId work task request with
    closed | recorded
  · rw [closed]
  · rw [recorded]

theorem Call.afterRecord_ne_refreshing (requestId : String)
    (own reference : Option String) :
    (call.afterRecord deployment taskId work task request).phase ≠
      .refreshing requestId own reference := by
  intro refreshing
  rcases call.afterRecord_phase deployment taskId work task request with
    closed | recorded
  · rw [closed] at refreshing
    cases refreshing
  · rw [recorded] at refreshing
    cases refreshing

theorem Call.refreshes_afterRecord (requestId : String) :
    (call.afterRecord deployment taskId work task
      request).phase.refreshes requestId = false := by
  rcases call.afterRecord_phase deployment taskId work task request with
    closed | recorded
  · rw [closed]
    rfl
  · rw [recorded]
    rfl

end AfterRecord

section CallMove

variable {deployment : Deployment} {state : State} {index : Nat}
  {call next : Call} {action : Action}

/-- A move closes the session or leaves it as it is, and takes up no task. -/
theorem CallMove.frame
    (move : CallMove deployment state index call action next) :
    next = call.close ∨ next.session = call.session ∧
      (next.current = call.current ∨ next.current = none) := by
  cases move with
  | failed | raised | crashed => exact .inl rfl
  | worked taskId work phase =>
      refine .inr ⟨rfl, .inl ?_⟩
      simp [Call.current, phase]
  | skipped => exact .inr ⟨rfl, .inr (call.current_resume _ _ _)⟩
  | _ => exact .inr ⟨rfl, .inr rfl⟩

theorem CallMove.workerId
    (move : CallMove deployment state index call action next) :
    next.workerId = call.workerId ∧ next.message = call.message := by
  cases move <;> exact ⟨rfl, rfl⟩

theorem CallMove.todo
    (move : CallMove deployment state index call action next) :
    next.todo <:+ call.todo := by
  cases move with
  | failed | raised | crashed => exact List.nil_suffix
  | skipped taskId todo phase rest =>
      rw [rest]
      exact List.suffix_cons taskId todo
  | _ => exact List.suffix_rfl

/-- A move never records an outcome. -/
theorem CallMove.phase_ne_recorded
    (move : CallMove deployment state index call action next)
    (taskId : String) : next.phase ≠ .recorded taskId := by
  cases move with
  | skipped => exact call.resume_ne_recorded false taskId
  | _ =>
      intro phase
      cases phase

/-- A move keeps the row lock or gives it up. -/
theorem CallMove.refreshing
    (move : CallMove deployment state index call action next)
    {requestId : String} {own reference : Option String}
    (phase : next.phase = .refreshing requestId own reference) :
    call.phase = .refreshing requestId own none ∧
      next = { call with phase := .refreshing requestId own reference } := by
  cases move with
  | uploaded now lockedId lockedOwn uploaded before =>
      cases phase
      exact ⟨before, rfl⟩
  | skipped =>
      have free := call.refreshes_resume false requestId
      have same : call.resume false = .refreshing requestId own reference :=
        phase
      rw [same] at free
      simp [Phase.refreshes] at free
  | _ => cases phase

end CallMove

theorem State.rowFree_iff {state : State} {dialect : Dialect}
    {requestId : String} :
    state.rowFree dialect requestId = true ↔ dialect = .sqlite ∨
      ∀ call ∈ state.calls, call.phase.refreshes requestId = false := by
  simp [State.rowFree]

/-- On PostgreSQL a free row is locked by nobody. -/
theorem State.unlocked_of_rowFree {state : State} {dialect : Dialect}
    (postgresql : dialect = .postgresql) {requestId : String}
    (free : state.rowFree dialect requestId = true) :
    ∀ call ∈ state.calls, call.phase.refreshes requestId = false := by
  rcases State.rowFree_iff.mp free with isSqlite | unlocked
  · rw [postgresql] at isSqlite
    cases isSqlite
  · exact unlocked

/-- A call of the state after a slot was overwritten. -/
theorem State.mem_put {state : State} {index : Nat} {call other : Call}
    (member : other ∈ (state.put index call).calls) :
    other = call ∨ other ∈ state.calls :=
  (List.mem_or_eq_of_mem_set member).symm

theorem State.put_self {state : State} {index : Nat} {old : Call}
    (found : state.calls[index]? = some old) (call : Call) :
    (state.put index call).calls[index]? = some call := by
  rw [State.put, getElem?_set_slot found, if_pos rfl]

theorem State.put_cases {state : State} {index : Nat} {old call : Call}
    (found : state.calls[index]? = some old) {other : Nat} {current : Call}
    (after : (state.put index call).calls[other]? = some current) :
    other = index ∧ current = call ∨
      other ≠ index ∧ state.calls[other]? = some current := by
  have lookup := getElem?_set_slot found call other
  rw [State.put] at after
  rw [lookup] at after
  split at after
  next same => exact .inl ⟨same, (Option.some.inj after).symm⟩
  next different => exact .inr ⟨different, after⟩

theorem State.append_cases {calls : List Call} {call : Call} {other : Nat}
    {current : Call} (after : (calls ++ [call])[other]? = some current) :
    other = calls.length ∧ current = call ∨
      other ≠ calls.length ∧ calls[other]? = some current := by
  rw [getElem?_append_slot] at after
  split at after
  next same => exact .inl ⟨same, (Option.some.inj after).symm⟩
  next different => exact .inr ⟨different, after⟩

theorem State.mem_append_call {calls : List Call} {call other : Call}
    (member : other ∈ calls ++ [call]) : other = call ∨ other ∈ calls :=
  (List.mem_append.mp member).symm.imp_left List.mem_singleton.mp

/-- The call, task and work that a `recordTask` would commit. -/
def State.recording (state : State) (index : Nat) :
    Option (Call × String × Work) :=
  match state.calls[index]? with
  | some call =>
      match call.phase with
      | .worked taskId work => some (call, taskId, work)
      | _ => none
  | none => none

/-! ## Loading -/

namespace Session

@[simp] theorem empty_task (taskId : String) :
    Session.empty.task taskId = none := rfl

@[simp] theorem empty_request (requestId : String) :
    Session.empty.request requestId = none := rfl

@[simp] theorem empty_members (requestId : String) :
    Session.empty.members requestId = none := rfl

theorem loadRefresh_task (session : Session) (database : Database)
    (requestId taskId : String) :
    (session.loadRefresh database requestId).task taskId =
      (session.task taskId).or
        (Table.get RequestTask.id taskId (database.tasksOf requestId)) := rfl

theorem loadRefresh_request (session : Session) (database : Database)
    (requestId other : String) :
    (session.loadRefresh database requestId).request other =
      (session.request other).or (Table.get PrivacyRequest.id other
        (database.requests.filter fun request =>
          decide (request.id = requestId))) := rfl

theorem loadRefresh_members (session : Session) (database : Database)
    (requestId other : String) :
    (session.loadRefresh database requestId).members other =
      if other = requestId then
        (session.members other).or
          (some ((database.tasksOf requestId).map RequestTask.id))
      else session.members other := rfl

end Session

/-! ## The artifact store -/

section ArtifactStore

variable {deployment : Deployment} {state next : State} {index : Nat}

private theorem artifacts_of_messageGet {now : Time}
    (stepped : messageGetStep deployment state index now = some next) :
    next.artifacts = state.artifacts := by
  simp only [messageGetStep, Option.bind_eq_bind,
    Option.bind_eq_some_iff] at stepped
  obtain ⟨call, _, slot, _, message, _, stepped⟩ := stepped
  grind [State.put]

private theorem artifacts_of_messageClaim
    (stepped : messageClaimStep deployment state index = some next) :
    next.artifacts = state.artifacts := by
  simp only [messageClaimStep, Option.bind_eq_bind,
    Option.bind_eq_some_iff] at stepped
  obtain ⟨call, _, stepped⟩ := stepped
  grind [State.put]

private theorem artifacts_of_selectTask
    (stepped : selectTaskStep state index = some next) :
    next.artifacts = state.artifacts := by
  simp only [selectTaskStep, Option.bind_eq_bind,
    Option.bind_eq_some_iff] at stepped
  obtain ⟨call, _, stepped⟩ := stepped
  grind [State.put]

private theorem artifacts_of_work {work : Work}
    (stepped : workStep state index work = some next) :
    next.artifacts = state.artifacts := by
  simp only [workStep, Option.bind_eq_bind,
    Option.bind_eq_some_iff] at stepped
  obtain ⟨call, _, stepped⟩ := stepped
  split at stepped
  next =>
    simp only [Option.bind_eq_some_iff] at stepped
    obtain ⟨task, _, request, _, stepped⟩ := stepped
    grind [State.put]
  next => cases stepped

private theorem artifacts_of_refreshSelect
    (stepped : refreshSelectStep deployment state index = some next) :
    next.artifacts = state.artifacts := by
  simp only [refreshSelectStep, Option.bind_eq_bind,
    Option.bind_eq_some_iff] at stepped
  obtain ⟨call, _, stepped⟩ := stepped
  split at stepped
  next =>
    simp only [Option.bind_eq_some_iff] at stepped
    obtain ⟨task, _, stepped⟩ := stepped
    grind [State.put]
  next => grind [State.put]
  next => cases stepped

/-- An upload, with the refresh that makes it. -/
theorem upload_cases {succeeded : Bool} {now : Time}
    (stepped : step deployment state (.upload index succeeded now) =
      some next) :
    ∃ call requestId own request,
      state.calls[index]? = some call ∧
      call.phase = .refreshing requestId own none ∧
      call.session.request requestId = some request ∧
      request.needsArtifact (call.session.derivedStatus requestId) = true ∧
      next = if succeeded then
        let written := writeArtifact deployment request
          (call.session.tasksOf requestId) now state.artifacts
        { (state.put index { call with
            phase := .refreshing requestId own (some written.2) }) with
          artifacts := written.1 }
      else state.put index call.close := by
  simp only [step, uploadStep, Option.bind_eq_bind,
    Option.bind_eq_some_iff] at stepped
  obtain ⟨call, found, stepped⟩ := stepped
  split at stepped
  next requestId own phase =>
    simp only [Option.bind_eq_some_iff] at stepped
    obtain ⟨request, held, stepped⟩ := stepped
    split at stepped
    next needed =>
      refine ⟨call, requestId, own, request, found, phase, held, needed, ?_⟩
      cases succeeded with
      | true => exact (Option.some.inj stepped).symm
      | false => exact (Option.some.inj stepped).symm
    next => cases stepped
  next => cases stepped

/-- Only a successful upload writes to the store. -/
theorem artifacts_of_step {action : Action}
    (unique : Table.KeyUnique RequestTask.id state.database.tasks)
    (stepped : step deployment state action = some next)
    (other : ∀ index now, action ≠ .upload index true now) :
    next.artifacts = state.artifacts := by
  cases effect_of_step unique stepped with
  | moved action index call after artifacts found move =>
      cases move with
      | ignored | terminal | unfinished | raised =>
          exact artifacts_of_messageGet stepped
      | busy => exact artifacts_of_messageClaim stepped
      | skipped => exact artifacts_of_selectTask stepped
      | worked => exact artifacts_of_work stepped
      | vanished => exact artifacts_of_refreshSelect stepped
      | uploaded now => exact absurd rfl (other index now)
      | failed =>
          obtain ⟨_, _, _, _, _, _, _, _, closed⟩ := upload_cases stepped
          rw [closed]
          rfl
      | crashed =>
          obtain ⟨_, _, closed⟩ := Option.bind_eq_some_iff.mp stepped
          rw [← Option.some.inj closed]
          rfl
  | _ => rfl

end ArtifactStore

end FleetPrivacy
