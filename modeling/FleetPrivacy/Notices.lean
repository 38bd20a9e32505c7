import FleetPrivacy.Holding

/-!
# Completion notices

The outbox row and the audit event that announce a finished request are written
by the refresh that judges `became_terminal` from the status its session holds.
They are unique as long as that status is not older than the committed one.
-/

namespace FleetPrivacy

open Transition

def finishedStatuses : List RequestStatus :=
  [.completed, .partially, .failed]

def finishedEventTypes : List String :=
  finishedStatuses.map fun status => (EventType.requestFinished status).value

def finishedActions : List String :=
  finishedStatuses.map fun status => (AuditAction.requestFinished status).value

def OutboxEvent.notices (requestId : String) (event : OutboxEvent) : Bool :=
  decide (event.aggregateId = requestId) &&
    decide (event.eventType ∈ finishedEventTypes)

def AuditEvent.notices (requestId : String) (event : AuditEvent) : Bool :=
  decide (event.requestId = requestId) &&
    decide (event.action ∈ finishedActions)

/-- How often the completion of a request is announced in the outbox and in
the audit chain. -/
def Database.notices (database : Database) (requestId : String) : Nat × Nat :=
  (database.outbox.countP (OutboxEvent.notices requestId),
    database.audit.countP (AuditEvent.notices requestId))

def Database.Finished (database : Database) (requestId : String) : Prop :=
  ∃ row, database.request requestId = some row ∧ row.status.Terminal

/-- The refresh of a request that is already terminal works without an open
copy of it. -/
def RequestCurrent (state : State) : Action → Prop
  | .refreshSelect index =>
      ∀ target ∈ state.refreshTarget index,
        ∀ request ∈ state.database.requests, request.id = target.1 →
          request.status.Terminal →
          ∀ copy ∈ target.2.request target.1, copy.status.Terminal
  | _ => True

instance (state : State) (action : Action) :
    Decidable (RequestCurrent state action) :=
  match action with
  | .refreshSelect index =>
      inferInstanceAs (Decidable (∀ target ∈ state.refreshTarget index,
        ∀ request ∈ state.database.requests, request.id = target.1 →
          request.status.Terminal →
          ∀ copy ∈ target.2.request target.1, copy.status.Terminal))
  | .create _ | .relaySelect _ | .relayPublish _ _ _ _ | .relayCommit _
  | .relayCrash _ | .deliver _ _ _ | .messageGet _ _ | .messageClaim _
  | .processOnce _ | .selectTask _ | .work _ _ | .recordTask _ _
  | .upload _ _ _ | .refreshCommit _ _ _ | .ack _ | .crash _
  | .extendLease _ _ _ => .isTrue trivial

/-! ## Which writes announce -/

theorem mem_finishedStatuses {status : RequestStatus} :
    status ∈ finishedStatuses ↔ status.Terminal := by
  cases status <;> simp [finishedStatuses, RequestStatus.Terminal]

theorem OutboxEvent.notices_iff {requestId : String} {event : OutboxEvent} :
    event.notices requestId = true ↔ event.aggregateId = requestId ∧
      event.eventType ∈ finishedEventTypes := by
  rw [notices, Bool.and_eq_true, decide_eq_true_iff, decide_eq_true_iff]

theorem AuditEvent.notices_iff {requestId : String} {event : AuditEvent} :
    event.notices requestId = true ↔ event.requestId = requestId ∧
      event.action ∈ finishedActions := by
  rw [notices, Bool.and_eq_true, decide_eq_true_iff, decide_eq_true_iff]

theorem Intake.not_notices {intake : Intake} {event : OutboxEvent}
    (member : event ∈ intake.events) (requestId : String) :
    event.notices requestId = false := by
  have foreign : event.eventType ∉ finishedEventTypes := by
    rcases mem_events member with rfl | ⟨source, position, _, rfl⟩
    · exact (by decide :
        EventType.requestCreated.value ∉ finishedEventTypes)
    · exact (by decide : EventType.taskReady.value ∉ finishedEventTypes)
  rw [OutboxEvent.notices, decide_eq_false foreign, Bool.and_false]

theorem auditAction_not_notices (task : RequestTask) :
    task.auditAction.value ∉ finishedActions := by
  unfold RequestTask.auditAction
  split
  next => decide
  next => cases task.status <;> decide

theorem countP_appendAudit (runtime : Runtime) (requestId : String)
    (tenantId owner action : String) (payload : Json)
    (rows : List AuditEvent) :
    (appendAudit runtime tenantId owner action payload rows).countP
        (AuditEvent.notices requestId) =
      rows.countP (AuditEvent.notices requestId) +
        if owner = requestId ∧ action ∈ finishedActions then 1 else 0 := by
  rw [appendAudit, List.countP_append, List.countP_singleton,
    if_congr AuditEvent.notices_iff rfl rfl]
  rfl

theorem countP_enqueueOutbox (requestId id tenantId aggregateId : String)
    (eventType : EventType) (payload : Json) (createdAt : Time)
    (rows : List OutboxEvent) :
    (enqueueOutbox id tenantId aggregateId eventType payload createdAt
        rows).countP (OutboxEvent.notices requestId) =
      rows.countP (OutboxEvent.notices requestId) +
        if aggregateId = requestId ∧ eventType.value ∈ finishedEventTypes then 1
        else 0 := by
  rw [enqueueOutbox, List.countP_append, List.countP_singleton,
    if_congr OutboxEvent.notices_iff rfl rfl]

theorem countP_markPublished (sent : List (String × Time))
    (outbox : List OutboxEvent) (requestId : String) :
    (markPublished sent outbox).countP (OutboxEvent.notices requestId) =
      outbox.countP (OutboxEvent.notices requestId) := by
  rw [markPublished, List.countP_map]
  apply List.countP_congr
  intro event _
  rw [Function.comp_apply]
  cases sent.lookup event.id with
  | none => exact Iff.rfl
  | some publishedAt => exact Iff.rfl

/-- A refresh announces its request when it becomes terminal in the session's
view. -/
theorem commitRefresh_notices (runtime : Runtime) (session : Session)
    (request : PrivacyRequest) (reference : Option String) (noticeId : String)
    (now : Time) (database : Database) (requestId : String) :
    (commitRefresh runtime session request reference noticeId now
        database).notices requestId =
      if request.id = requestId ∧ request.becomesTerminal
          (session.derivedStatus request.id) = true then
        ((database.notices requestId).1 + 1, (database.notices requestId).2 + 1)
      else database.notices requestId := by
  unfold commitRefresh Database.notices
  dsimp only
  split
  next becomes =>
    have terminal : (session.derivedStatus request.id).Terminal :=
      of_decide_eq_true (Bool.and_eq_true _ _ ▸ becomes).1
    have eventType : (EventType.requestFinished
        (session.derivedStatus request.id)).value ∈ finishedEventTypes :=
      List.mem_map_of_mem (mem_finishedStatuses.mpr terminal)
    have action : (AuditAction.requestFinished
        (session.derivedStatus request.id)).value ∈ finishedActions :=
      List.mem_map_of_mem (mem_finishedStatuses.mpr terminal)
    rw [countP_enqueueOutbox, countP_appendAudit]
    by_cases own : request.id = requestId
    · rw [if_pos ⟨own, eventType⟩, if_pos ⟨own, action⟩, if_pos ⟨own, becomes⟩]
    · rw [if_neg (fun both => own both.1), if_neg (fun both => own both.1),
        if_neg (fun both => own both.1)]
      rfl
  next kept =>
    rw [if_neg (fun both => kept both.2)]

/-! ## The invariant -/

/-- What a call knows about the request it is about to refresh. -/
structure Call.Informed (call : Call) (database : Database) : Prop where
  refreshing : ∀ requestId own reference,
    call.phase = .refreshing requestId own reference →
    ∀ copy, call.session.request requestId = some copy →
    database.Finished requestId → copy.status.Terminal
  recorded : ∀ taskId task, call.phase = .recorded taskId →
    call.session.task taskId = some task →
    ∃ request, call.session.request task.requestId = some request ∧
      ¬ request.status.Terminal

structure Noticed (state : State) : Prop where
  once : ∀ requestId, state.database.Finished requestId →
    state.database.notices requestId = (1, 1)
  never : ∀ requestId, ¬ state.database.Finished requestId →
    state.database.notices requestId = (0, 0)
  calls : ∀ call ∈ state.calls, call.Informed state.database

/-- Phases in which a call is not about to refresh. -/
theorem Call.informed_of_phase {call : Call} {database : Database}
    (refreshing : ∀ requestId, call.phase.refreshes requestId = false)
    (recorded : ∀ taskId, call.phase ≠ .recorded taskId) :
    call.Informed database := by
  refine ⟨?_, ?_⟩
  · intro requestId own reference phase
    have free := refreshing requestId
    rw [phase] at free
    simp [Phase.refreshes] at free
  · intro taskId task phase
    exact absurd phase (recorded taskId)

theorem Call.Informed.of_finished {call : Call} {before after : Database}
    (informed : call.Informed before)
    (finished : ∀ requestId, after.Finished requestId →
      before.Finished requestId) : call.Informed after := by
  refine ⟨?_, informed.recorded⟩
  intro requestId own reference phase copy held final
  exact informed.refreshing requestId own reference phase copy held
    (finished requestId final)

theorem CallMove.informed {deployment : Deployment} {state : State}
    {index : Nat} {call next : Call} {action : Action} {database : Database}
    (move : CallMove deployment state index call action next)
    (informed : call.Informed database) : next.Informed database := by
  refine ⟨?_, ?_⟩
  · intro requestId own reference phase
    obtain ⟨before, after⟩ := move.refreshing phase
    rw [after]
    exact informed.refreshing requestId own none before
  · intro taskId task phase
    exact absurd phase (move.phase_ne_recorded taskId)

namespace Noticed

variable {deployment : Deployment} {state next : State}

theorem finished_iff (leads : state.database.Leads next.database)
    (none_ : state.database.NoneFinished next.database) (requestId : String) :
    next.database.Finished requestId ↔ state.database.Finished requestId := by
  constructor
  · rintro ⟨current, found, terminal⟩
    exact none_ requestId current found terminal
  · rintro ⟨row, found, terminal⟩
    obtain ⟨current, currentFound, _, kept, _⟩ :=
      leads.request requestId row found
    exact ⟨current, currentFound, kept terminal ▸ terminal⟩

/-- Steps that finish no request announce none. -/
theorem carry (noticed : Noticed state)
    (leads : state.database.Leads next.database)
    (none_ : state.database.NoneFinished next.database)
    (notices : ∀ requestId, next.database.notices requestId =
      state.database.notices requestId)
    (calls : ∀ call ∈ next.calls,
      call ∈ state.calls ∨ call.Informed next.database) : Noticed next := by
  have finished := finished_iff leads none_
  refine ⟨?_, ?_, ?_⟩
  · intro requestId final
    rw [notices]
    exact noticed.once requestId ((finished requestId).mp final)
  · intro requestId unfinished
    rw [notices]
    exact noticed.never requestId (mt (finished requestId).mpr unfinished)
  · intro call member
    rcases calls call member with old | new
    · exact (noticed.calls call old).of_finished
        (fun requestId => (finished requestId).mp)
    · exact new

/-- The call in one slot changes; its new state is well informed. -/
theorem carry_put (noticed : Noticed state)
    (leads : state.database.Leads next.database)
    (none_ : state.database.NoneFinished next.database)
    (notices : ∀ requestId, next.database.notices requestId =
      state.database.notices requestId) {index : Nat} (call : Call)
    (calls : next.calls = (state.put index call).calls)
    (informed : call.Informed next.database) : Noticed next := by
  refine noticed.carry leads none_ notices ?_
  intro other member
  rw [calls] at member
  rcases State.mem_put member with new | old
  · rw [new]
    exact .inr informed
  · exact .inl old

/-- The writer of an outcome holds an open copy of the request. -/
theorem informed_afterRecord (core : Core state) {index : Nat} {call : Call}
    {taskId : String} {work : Work} {task : RequestTask}
    {request : PrivacyRequest} {now : Time} {database : Database}
    (fenced : Fenced state (.recordTask index now))
    (found : state.calls[index]? = some call)
    (phase : call.phase = .worked taskId work)
    (held : call.session.task taskId = some task)
    (requestHeld : call.session.request task.requestId = some request) :
    (call.afterRecord deployment taskId work task request).Informed
      database := by
  have member := List.mem_of_getElem? found
  have agrees := core.sessions call member
  have isTask := core.tidy.keyed call member taskId task held
  obtain ⟨row, rowFound, rowKey, _⟩ := agrees.task taskId task held
  obtain ⟨owner, ownerFound, ownerKey, _, ownerKept, _⟩ :=
    agrees.request task.requestId request requestHeld
  obtain ⟨rowMember, rowId⟩ := Database.task_mem rowFound
  have entry : state.recording index = some (call, taskId, work) := by
    simp [State.recording, found, phase]
  have running := (RequestTask.leasedBy_iff.mp
    (fenced _ entry row rowMember rowId)).1
  have rowOpen : ¬ row.status.Terminal := by
    rw [running]
    exact not_false
  rw [rowKey] at ownerFound
  have ownerOpen := core.request_open rowMember rowOpen ownerFound
  have copyOpen : ¬ request.verify.status.Terminal := by
    rcases request.verify_status with same | verifying
    · rw [same]
      intro terminal
      exact ownerOpen (ownerKept terminal ▸ terminal)
    · rw [verifying]
      exact not_false
  unfold Call.afterRecord
  split
  next => exact Call.informed_of_phase (fun _ => rfl) (by simp [Call.close])
  next =>
    refine ⟨?_, ?_⟩
    · intro requestId own reference other
      cases other
    · intro otherId copy other copyHeld
      cases other
      have isCopy : copy.requestId = request.id := by
        have settled : task.settle deployment.settings call.executor
            work.ending = copy := by
          simpa [Session.putRequest, Session.putTask, isTask] using copyHeld
        rw [← settled, RequestTask.settle_requestId, ownerKey]
      refine ⟨request.verify, ?_, copyOpen⟩
      simp [Session.putRequest, isCopy]

theorem informed_locked (core : Core state) {index : Nat} {call : Call}
    {requestId : String} {own : Option String} {session : Session}
    (current : RequestCurrent state (.refreshSelect index))
    (found : state.calls[index]? = some call)
    (target : call.RefreshTarget state.database requestId own session) :
    Call.Informed { call with
      session := session.loadRefresh state.database requestId
      phase := .refreshing requestId own none } state.database := by
  refine ⟨?_, ?_⟩
  · intro lockedId lockedOwn reference phase copy held finished
    cases phase
    obtain ⟨row, rowFound, terminal⟩ := finished
    obtain ⟨member, same⟩ := Database.request_mem rowFound
    dsimp only at held
    rw [Session.loadRefresh_request] at held
    rcases Option.or_eq_some_iff.mp held with kept | ⟨_, fresh⟩
    · have entry := target.refreshTarget core.tidy.tables found
      exact current _ entry row member same terminal copy kept
    · obtain ⟨inFilter, copyId⟩ := Table.get_mem fresh
      have isRow : copy = row := core.tidy.tables.requestIds.eq_of_mem
        (List.mem_filter.mp inFilter).1 member (copyId.trans same.symm)
      rw [isRow]
      exact terminal
  · intro taskId task phase
    cases phase

/-- Recorded calls hold open copies, so the condition lets them refresh open
requests only. -/
theorem fenced_of_requestCurrent (noticed : Noticed state) {index : Nat}
    (current : RequestCurrent state (.refreshSelect index)) :
    Fenced state (.refreshSelect index) := by
  intro target located request member same terminal
  have copies := current target located request member same terminal
  unfold State.refreshTarget at located
  split at located
  next call found =>
    split at located
    next taskId phase =>
      obtain ⟨task, held, rfl⟩ := Option.map_eq_some_iff.mp located
      obtain ⟨copy, copyHeld, copyOpen⟩ :=
        (noticed.calls call (List.mem_of_getElem? found)).recorded taskId task
          phase held
      exact absurd (copies copy copyHeld) copyOpen
    next taskId phase =>
      obtain ⟨row, _, rfl⟩ := Option.map_eq_some_iff.mp located
      intro task _ copy held
      cases held
    next => cases located
  next => cases located

/-- After its refresh a request has one notice of each kind if the derived
status is terminal, and none if it is not. -/
theorem notices_refresh (noticed : Noticed state) (core : Core state)
    {call : Call} {requestId : String} {own reference : Option String}
    {request owner : PrivacyRequest} (member : call ∈ state.calls)
    (phase : call.phase = .refreshing requestId own reference)
    (held : call.session.request requestId = some request)
    (ownerFound : state.database.request requestId = some owner)
    (runtime : Runtime) (noticeId : String) (now : Time) :
    (commitRefresh runtime call.session request reference noticeId now
        state.database).notices requestId =
      if (call.session.derivedStatus requestId).Terminal then (1, 1)
      else (0, 0) := by
  obtain ⟨row, rowFound, key, _, kept, _⟩ :=
    (core.sessions call member).request requestId request held
  rw [ownerFound] at rowFound
  cases rowFound
  have finished_iff : state.database.Finished requestId ↔
      owner.status.Terminal := by
    unfold Database.Finished
    rw [ownerFound]
    simp
  rw [commitRefresh_notices, key]
  rcases core.derived_status member phase ownerFound with
    ⟨derived, _⟩ | ⟨notDerived, open_⟩
  · rw [if_pos derived]
    by_cases copyTerminal : request.status.Terminal
    · have finished := finished_iff.mpr (kept copyTerminal ▸ copyTerminal)
      have quiet : request.becomesTerminal
          (call.session.derivedStatus requestId) = false := by
        simp [PrivacyRequest.becomesTerminal, copyTerminal]
      rw [quiet, noticed.once requestId finished]
      simp
    · have unfinished : ¬ state.database.Finished requestId := by
        intro finished
        exact copyTerminal ((noticed.calls call member).refreshing requestId
          own reference phase request held finished)
      have becomes : request.becomesTerminal
          (call.session.derivedStatus requestId) = true := by
        simp [PrivacyRequest.becomesTerminal, copyTerminal, derived]
      rw [becomes, noticed.never requestId unfinished]
      simp
  · have quiet : request.becomesTerminal
        (call.session.derivedStatus requestId) = false := by
      simp [PrivacyRequest.becomesTerminal, notDerived]
    rw [if_neg notDerived, quiet,
      noticed.never requestId (mt finished_iff.mp open_)]
    simp

/-- The commit of a refresh announces its request exactly when it makes it
terminal. -/
theorem refreshed (noticed : Noticed state) (core : Core state) {index : Nat}
    {call : Call} {requestId : String} {own reference : Option String}
    {request : PrivacyRequest} {noticeId : String} {now : Time}
    (found : state.calls[index]? = some call)
    (phase : call.phase = .refreshing requestId own reference)
    (held : call.session.request requestId = some request)
    (shape : next = { (state.put index { call with
        session := call.session.putRequest (request.refresh
          (call.session.derivedStatus requestId) reference)
        phase := call.resume (call.refreshResult own) }) with
      database := commitRefresh deployment.runtime call.session request
        reference noticeId now state.database }) :
    Noticed next := by
  have member := List.mem_of_getElem? found
  obtain ⟨owner, ownerFound, key, _⟩ :=
    (core.sessions call member).request requestId request held
  have others : ∀ otherId, otherId ≠ requestId →
      (next.database.Finished otherId ↔ state.database.Finished otherId) := by
    intro otherId different
    have lookup := Database.commitRefresh_request_of_ne deployment.runtime
      call.session reference noticeId now state.database
      (key.symm ▸ different : otherId ≠ request.id)
    rw [shape]
    unfold Database.Finished
    rw [lookup]
  have written := (Database.commitRefresh_revises deployment.runtime
    call.session request reference noticeId now state.database).request_eq
    requestId
  rw [key, ownerFound] at written
  have after : next.database.Finished requestId ↔
      (call.session.derivedStatus requestId).Terminal := by
    rw [shape]
    unfold Database.Finished
    rw [written]
    rcases core.refreshRow_status member phase held ownerFound now with
      same | ⟨notDerived, open_⟩
    · simp [same]
    · simp [notDerived, open_]
  have counts : next.database.notices requestId =
      if (call.session.derivedStatus requestId).Terminal then (1, 1)
      else (0, 0) := by
    rw [shape]
    exact noticed.notices_refresh core member phase held ownerFound
      deployment.runtime noticeId now
  have unchanged : ∀ otherId, otherId ≠ requestId →
      next.database.notices otherId = state.database.notices otherId := by
    intro otherId different
    rw [shape]
    dsimp only
    rw [commitRefresh_notices, key,
      if_neg (fun both => different both.1.symm)]
  refine ⟨?_, ?_, ?_⟩
  · intro otherId finished
    by_cases same : otherId = requestId
    · subst same
      rw [counts, if_pos (after.mp finished)]
    · rw [unchanged otherId same]
      exact noticed.once otherId ((others otherId same).mp finished)
  · intro otherId unfinished
    by_cases same : otherId = requestId
    · subst same
      rw [counts, if_neg (mt after.mpr unfinished)]
    · rw [unchanged otherId same]
      exact noticed.never otherId (mt (others otherId same).mpr unfinished)
  · intro other inNext
    obtain ⟨slot, located⟩ := List.getElem?_of_mem inNext
    rw [shape] at located
    rcases State.put_cases found located with ⟨_, new⟩ | ⟨away, old⟩
    · rw [new]
      exact Call.informed_of_phase (call.refreshes_resume _)
        (call.resume_ne_recorded _)
    · have informed := noticed.calls other (List.mem_of_getElem? old)
      refine ⟨?_, informed.recorded⟩
      intro lockedId lockedOwn lockedReference locked copy copyHeld finished
      have different := core.locks.elsewhere found phase away
        old (Phase.refreshes_iff.mpr ⟨_, _, locked⟩)
      exact informed.refreshing lockedId lockedOwn lockedReference locked copy
        copyHeld ((others lockedId different).mp finished)

/-- What the relays do to the outbox announces nothing. -/
private theorem relayMove_notices {action : Action} {relays : List Relay}
    {extra : List QueueMessage} {outbox : List OutboxEvent}
    (move : RelayMove deployment state action relays extra outbox)
    (requestId : String) :
    Database.notices { state.database with outbox } requestId =
      state.database.notices requestId := by
  cases move with
  | selected | published | crashed => rfl
  | committed index relay found isOpen rest =>
      unfold Database.notices
      dsimp only
      rw [countP_markPublished]

private theorem insertRows_notices (intake : Intake) (runtime : Runtime)
    (database : Database) (requestId : String) :
    (intake.insertRows runtime database).notices requestId =
      database.notices requestId := by
  have events : intake.events.countP (OutboxEvent.notices requestId) = 0 := by
    apply List.countP_eq_zero.mpr
    intro event member
    rw [Intake.not_notices member]
    exact Bool.false_ne_true
  have action : ¬ (intake.fresh.ids 0 = requestId ∧
      AuditAction.requestCreated.value ∈ finishedActions) := by
    rintro ⟨_, member⟩
    exact absurd member (by decide)
  unfold Database.notices Intake.insertRows
  dsimp only
  rw [List.countP_append, events, countP_appendAudit, if_neg action]
  rfl

private theorem recordOutcome_notices (runtime : Runtime) (settings : Settings)
    (executor : Bool) (work : Work) (task : RequestTask)
    (request : PrivacyRequest) (now : Time) (database : Database)
    (requestId : String) :
    (recordOutcome runtime settings executor work task request now
      database).notices requestId = database.notices requestId := by
  unfold Database.notices recordOutcome
  dsimp only
  rw [countP_appendAudit,
    if_neg (fun both => auditAction_not_notices _ both.2)]
  rfl

theorem step {action : Action} (noticed : Noticed state)
    (steady : Steady state) (fenced : Fenced state action)
    (current : RequestCurrent state action)
    (leads : state.database.Leads next.database)
    (stepped : FleetPrivacy.step deployment state action = some next) :
    Noticed next := by
  have core := steady.core
  have effect := effect_of_step core.tidy.tables.taskIds stepped
  have none_ := effect.noneFinished
  cases effect with
  | created intake nodup fresh absent =>
      exact noticed.carry leads (none_ (by simp)) (insertRows_notices intake _ _)
        (fun call member => .inl member)
  | relayed action relays extra outbox move =>
      refine noticed.carry leads (none_ ?_) (relayMove_notices move)
        (fun call member => .inl member)
      cases move <;> simp
  | opened workerId message executor bound =>
      refine noticed.carry leads (none_ (by simp)) (fun _ => rfl) ?_
      intro call member
      rcases State.mem_append_call member with new | old
      · rw [new]
        exact .inr (Call.informed_of_phase (fun _ => rfl) (by simp))
      · exact .inl old
  | moved action index call after artifacts found move =>
      refine noticed.carry_put leads (none_ ?_) (fun _ => rfl) after rfl
        (move.informed (noticed.calls call (List.mem_of_getElem? found)))
      cases move <;> simp
  | messageClaimed index call taskId now found phase claims startable =>
      exact noticed.carry_put leads (none_ (by simp)) (fun _ => rfl) _ rfl
        (Call.informed_of_phase (fun _ => rfl) (by simp))
  | batchClaimed arguments session taskIds selected claims copies requests
      members startable =>
      refine noticed.carry leads (none_ (by simp)) (fun _ => rfl) ?_
      intro call member
      rcases State.mem_append_call member with new | old
      · rw [new]
        exact .inr (Call.informed_of_phase (fun _ => rfl) (by simp))
      · exact .inl old
  | selected index call taskId todo row found phase rest member same leased =>
      exact noticed.carry_put leads (none_ (by simp)) (fun _ => rfl) _ rfl
        (Call.informed_of_phase (fun _ => rfl) (by simp))
  | recorded index call taskId work task request now found phase held
      requestHeld free =>
      exact noticed.carry_put leads (none_ (by simp))
        (recordOutcome_notices _ _ _ _ _ _ _ _) _ rfl
        (informed_afterRecord core fenced found phase held requestHeld)
  | locked index call requestId own session found target free =>
      exact noticed.carry_put leads (none_ (by simp)) (fun _ => rfl) _ rfl
        (informed_locked core current found target)
  | refreshed index call requestId own reference request noticeId now found
      phase held uploaded fresh =>
      exact noticed.refreshed core found phase held rfl
  | acked index call slot message found subscribed delivered returned =>
      exact noticed.carry_put leads (none_ (by simp)) (fun _ => rfl) _ rfl
        (Call.informed_of_phase (fun _ => rfl) (by simp [Call.close]))
  | extended workerId taskId now =>
      exact noticed.carry leads (none_ (by simp)) (fun _ => rfl)
        (fun call member => .inl member)

end Noticed

theorem Noticed.initial : Noticed State.initial := by
  refine ⟨?_, fun _ _ => rfl, ?_⟩
  · rintro requestId ⟨row, found, _⟩
    cases found
  · intro call member
    cases member

/-- Every request with tasks is announced at most once, and exactly once when
it is terminal. -/
def State.NoticedOnce (state : State) : Prop :=
  ∀ request ∈ state.database.requests,
    state.database.tasksOf request.id ≠ [] →
    (state.database.notices request.id).1 ≤ 1 ∧
      (state.database.notices request.id).2 ≤ 1 ∧
      (request.status.Terminal → state.database.notices request.id = (1, 1))

instance (state : State) : Decidable state.NoticedOnce :=
  inferInstanceAs (Decidable (∀ request ∈ state.database.requests,
    state.database.tasksOf request.id ≠ [] →
    (state.database.notices request.id).1 ≤ 1 ∧
      (state.database.notices request.id).2 ≤ 1 ∧
      (request.status.Terminal → state.database.notices request.id = (1, 1))))

/-- The steps after which the notices are unique. -/
def Announcing (state : State) (action : Action) : Prop :=
  LeasesLive state action ∧ RequestCurrent state action

instance (state : State) (action : Action) :
    Decidable (Announcing state action) :=
  inferInstanceAs (Decidable (_ ∧ _))

/-- On PostgreSQL a request is announced once. -/
theorem completion_is_announced_once (deployment : Deployment)
    (postgresql : deployment.dialect = .postgresql) {actions : List Action}
    {state : State}
    (execution : Runs (step deployment) Announcing State.initial actions
      state) : state.NoticedOnce := by
  have preserved : ∀ {before : State} {action : Action} {after : State},
      Steady before ∧ Noticed before → Announcing before action →
      step deployment before action = some after →
      Steady after ∧ Noticed after := by
    rintro before action after ⟨steady, noticed⟩ ⟨live, current⟩ stepped
    have refreshes : ∀ index, action = .refreshSelect index →
        Fenced before (.refreshSelect index) := by
      rintro index rfl
      exact noticed.fenced_of_requestCurrent current
    obtain ⟨next, leads⟩ := steady.step postgresql live refreshes stepped
    exact ⟨next, noticed.step steady (steady.fenced refreshes) current leads
      stepped⟩
  obtain ⟨steady, noticed⟩ := execution.invariant preserved
    ⟨Steady.initial, Noticed.initial⟩
  intro request member _
  have found := steady.core.tidy.tables.request_eq member
  by_cases terminal : request.status.Terminal
  · have once := noticed.once request.id ⟨request, found, terminal⟩
    rw [once]
    exact ⟨Nat.le_refl 1, Nat.le_refl 1, fun _ => rfl⟩
  · have unfinished : ¬ state.database.Finished request.id := by
      rintro ⟨row, rowFound, final⟩
      rw [found] at rowFound
      cases rowFound
      exact terminal final
    rw [noticed.never request.id unfinished]
    exact ⟨Nat.zero_le 1, Nat.zero_le 1, fun final => absurd final terminal⟩

/-! Two workers take the two messages of one request. -/

private def twoDeliveries : List Action :=
  .create (demoIntake 'a' .access ["jobs", "profile"] demoSources_nodup
    demoSources_allowed) :: demoRelay 0 3 ++
    [.deliver "w1" 1 false, .deliver "w2" 2 false]

private def oneAfterTheOther : List Action :=
  twoDeliveries ++ demoExecution 0 demoSuccess ++
    [.refreshSelect 0, .refreshCommit 0 "n" 13, .ack 0] ++
    demoExecution 1 demoSuccess ++
    [.refreshSelect 1, .upload 1 true 14, .refreshCommit 1 "n" 15, .ack 1]

theorem sequential_workers_announce_once :
    ∃ state, Runs (step demoDeployment) Announcing State.initial
        oneAfterTheOther state ∧
      state.database.requests.map PrivacyRequest.status = [.completed] ∧
      state.NoticedOnce := by
  have evaluated : (run (step demoDeployment) Announcing State.initial
      oneAfterTheOther).map (fun state =>
        state.database.requests.map PrivacyRequest.status) =
      some [.completed] := by
    decide +kernel
  obtain ⟨state, result, statuses⟩ := Option.map_eq_some_iff.mp evaluated
  have execution := runs_of_run result
  exact ⟨state, execution, statuses,
    completion_is_announced_once demoDeployment rfl execution⟩

/-! Both record their task before either refreshes. -/

private def bothRecordFirst : List Action :=
  twoDeliveries ++ demoExecution 0 demoSuccess ++ demoExecution 1 demoSuccess ++
    [.refreshSelect 0, .upload 0 true 13, .refreshCommit 0 "n" 14,
      .refreshSelect 1, .upload 1 true 15, .refreshCommit 1 "m" 16]

theorem concurrent_workers_announce_twice :
    ∃ state, Runs (step demoDeployment) QueueDriven State.initial
        bothRecordFirst state ∧ ¬ state.NoticedOnce := by
  have evaluated : (run (step demoDeployment) QueueDriven State.initial
      bothRecordFirst).map (fun state => decide state.NoticedOnce) =
      some false := by
    decide +kernel
  obtain ⟨state, result, repeated⟩ := Option.map_eq_some_iff.mp evaluated
  exact ⟨state, runs_of_run result, of_decide_eq_false repeated⟩

end FleetPrivacy
