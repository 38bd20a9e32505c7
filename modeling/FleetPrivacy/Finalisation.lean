import FleetPrivacy.Holding

/-!
# The last task finalises its request

Once all tasks of a request are terminal, its status is final or some call is
still going to write it.  The argument needs that a refresh after the last task
works without older copies of the siblings; a batch session keeps such copies,
and two batches can then leave a finished request `RUNNING`.
-/

namespace FleetPrivacy

open Transition

def Action.fails : Action → Bool
  | .crash _ => true
  | .upload _ succeeded _ => !succeeded
  | _ => false

/-- No lease of a live call runs out, no call crashes, no upload fails. -/
def Undisturbed (state : State) (action : Action) : Prop :=
  LeasesLive state action ∧ action.fails = false

instance (state : State) (action : Action) :
    Decidable (Undisturbed state action) :=
  inferInstanceAs (Decidable (_ ∧ _))

def Call.returned (call : Call) : Bool :=
  match call.phase with
  | .closed | .returned _ => true
  | .ready => call.todo.isEmpty
  | _ => false

/-- The status of a request whose tasks are all terminal. -/
def finalStatus (statuses : List TaskStatus) : RequestStatus :=
  if ∀ status ∈ statuses, status = .succeeded then .completed
  else if ∀ status ∈ statuses, status = .failed then .failed
  else .partially

/-- The request has tasks, and all of them are terminal. -/
def Database.AllTerminal (database : Database) (requestId : String) : Prop :=
  database.tasksOf requestId ≠ [] ∧
    ∀ task ∈ database.tasksOf requestId, task.status.Terminal

instance (database : Database) (requestId : String) :
    Decidable (database.AllTerminal requestId) :=
  inferInstanceAs (Decidable (_ ∧ _))

theorem deriveStatus_eq_finalStatus {statuses : List TaskStatus}
    (nonempty : statuses ≠ [])
    (terminal : ∀ status ∈ statuses, status.Terminal) :
    deriveStatus statuses = finalStatus statuses := by
  obtain ⟨first, member⟩ := List.exists_mem_of_ne_nil statuses nonempty
  have started : ¬ ∀ status ∈ statuses, status = .pending := by
    intro pending
    have final := terminal first member
    rw [pending first member] at final
    exact final
  have closed : ¬ (.pending ∈ statuses ∨ .running ∈ statuses) := by
    rintro (pending | running)
    · exact terminal _ pending
    · exact terminal _ running
  unfold deriveStatus finalStatus
  rw [if_neg started, if_neg closed]

/-! ## The invariant -/

/-- The call is about to write the final status of the request. -/
inductive Call.Finalises (call : Call) (requestId : String) : Prop where
  | recorded (taskId : String) (copy : RequestTask) :
      call.phase = .recorded taskId →
      call.session.task taskId = some copy →
      copy.requestId = requestId →
      Finalises call requestId
  | refreshing (own reference : Option String) :
      call.phase = .refreshing requestId own reference →
      call.session.SeesTerminal requestId →
      Finalises call requestId

def Settling (state : State) : Prop :=
  ∀ requestId row, state.database.request requestId = some row →
    state.database.AllTerminal requestId →
    row.status.Terminal ∨ ∃ call ∈ state.calls, call.Finalises requestId

/-- A call outside the two phases finalises nothing. -/
theorem Call.Finalises.phase {call : Call} {requestId : String}
    (finalises : call.Finalises requestId) :
    (∃ taskId, call.phase = .recorded taskId) ∨
      ∃ own reference, call.phase = .refreshing requestId own reference := by
  cases finalises with
  | recorded taskId copy phase held same => exact .inl ⟨taskId, phase⟩
  | refreshing own reference phase sees => exact .inr ⟨own, reference, phase⟩

/-- A call that refreshes finalises the request of its refresh. -/
theorem Call.Finalises.of_refreshing {call : Call}
    {requestId otherId : String} {own reference : Option String}
    (finalises : call.Finalises requestId)
    (phase : call.phase = .refreshing otherId own reference) :
    otherId = requestId ∧ call.session.SeesTerminal requestId := by
  cases finalises with
  | recorded taskId copy other =>
      rw [phase] at other
      cases other
  | refreshing otherOwn otherReference other sees =>
      rw [phase] at other
      cases other
      exact ⟨rfl, sees⟩

theorem Call.not_finalises_of_returned {call : Call}
    (returned : call.returned = true) (requestId : String) :
    ¬ call.Finalises requestId := by
  intro finalises
  unfold Call.returned at returned
  rcases finalises.phase with ⟨taskId, phase⟩ | ⟨own, reference, phase⟩
  · rw [phase] at returned
    cases returned
  · rw [phase] at returned
    cases returned

/-- A move without failure keeps what its call is about to finalise. -/
theorem CallMove.finalises {deployment : Deployment} {state : State}
    {index : Nat} {call next : Call} {action : Action}
    (move : CallMove deployment state index call action next)
    (fine : action.fails = false) {requestId : String}
    (finalises : call.Finalises requestId) : next.Finalises requestId := by
  have phases := finalises.phase
  cases move with
  | failed | crashed => cases fine
  | uploaded now lockedId own reference phase =>
      obtain ⟨rfl, sees⟩ := finalises.of_refreshing phase
      exact .refreshing own (some reference) rfl sees
  | ignored slot message now phase | terminal slot message now taskId row phase
  | unfinished slot message now taskId phase
  | raised slot message now taskId row phase | busy taskId now phase
  | skipped taskId todo phase | worked taskId work phase
  | vanished taskId phase =>
      rcases phases with ⟨_, other⟩ | ⟨_, _, other⟩
      · rw [phase] at other
        cases other
      · rw [phase] at other
        cases other

/-- What one call is about to finalise survives the replacement of a call that
hands it on. -/
theorem State.exists_finaliser_put {state : State} {index : Nat}
    {old new : Call} {requestId : String}
    (found : state.calls[index]? = some old)
    (handed : old.Finalises requestId → new.Finalises requestId)
    (before : ∃ call ∈ state.calls, call.Finalises requestId) :
    ∃ call ∈ (state.put index new).calls, call.Finalises requestId := by
  obtain ⟨call, member, finalises⟩ := before
  obtain ⟨slot, located⟩ := List.getElem?_of_mem member
  have lookup := getElem?_set_slot found new slot
  by_cases same : slot = index
  · rw [same, found] at located
    cases located
    rw [if_pos same] at lookup
    exact ⟨new, List.mem_of_getElem? lookup, handed finalises⟩
  · rw [if_neg same, located] at lookup
    exact ⟨call, List.mem_of_getElem? lookup, finalises⟩

theorem Database.Revises.allTerminal {before after : Database}
    {task : RequestTask → RequestTask}
    {request : PrivacyRequest → PrivacyRequest}
    (revises : Revises before after task request) {requestId : String}
    (open_ : ∀ row ∈ before.tasksOf requestId, (task row).status.Terminal →
      row.status.Terminal)
    (all : after.AllTerminal requestId) : before.AllTerminal requestId := by
  unfold AllTerminal at all
  rw [revises.tasksOf_eq] at all
  obtain ⟨nonempty, terminal⟩ := all
  refine ⟨?_, ?_⟩
  · intro empty
    rw [empty] at nonempty
    exact nonempty rfl
  · intro row member
    exact open_ row member (terminal _ (List.mem_map_of_mem member))

/-- The tasks of a new request are open. -/
theorem Database.insertRows_allTerminal {database : Database}
    {intake : Intake} {runtime : Runtime} (formed : database.WellFormed)
    (fresh : database.unused intake.drawnIds = true) {requestId : String}
    (all : (intake.insertRows runtime database).AllTerminal requestId) :
    (∃ row, database.request requestId = some row) ∧
      database.AllTerminal requestId := by
  cases found : database.request requestId with
  | some row =>
      refine ⟨⟨row, rfl⟩, ?_⟩
      unfold AllTerminal at all
      rw [insertRows_tasksOf fresh found] at all
      exact all
  | none =>
      obtain ⟨nonempty, terminal⟩ := all
      obtain ⟨task, member⟩ := List.exists_mem_of_ne_nil _ nonempty
      have final := terminal task member
      obtain ⟨inTable, owner⟩ := mem_tasksOf.mp member
      rcases List.mem_append.mp inTable with old | new
      · obtain ⟨row, rowFound⟩ := formed.owned task old
        rw [owner, found] at rowFound
        cases rowFound
      · obtain ⟨_, _, rfl⟩ := List.mem_map.mp new
        exact final.elim

namespace Settling

variable {deployment : Deployment} {state next : State}

/-- What was due for a request stays settled or is handed on. -/
theorem carry (settling : Settling state)
    (leads : state.database.Leads next.database) {requestId : String}
    {row : PrivacyRequest} (found : next.database.request requestId = some row)
    (before : (∃ old, state.database.request requestId = some old) ∧
      state.database.AllTerminal requestId)
    (calls : (∃ call ∈ state.calls, call.Finalises requestId) →
      ∃ call ∈ next.calls, call.Finalises requestId) :
    row.status.Terminal ∨ ∃ call ∈ next.calls, call.Finalises requestId := by
  obtain ⟨⟨old, oldFound⟩, all⟩ := before
  rcases settling requestId old oldFound all with terminal | finaliser
  · obtain ⟨current, currentFound, _, kept, _⟩ :=
      leads.request requestId old oldFound
    rw [found] at currentFound
    cases currentFound
    exact .inl (kept terminal ▸ terminal)
  · exact .inr (calls finaliser)

theorem carry_revised (settling : Settling state)
    {task : RequestTask → RequestTask}
    {request : PrivacyRequest → PrivacyRequest}
    (revises : Database.Revises state.database next.database task request)
    (open_ : ∀ row ∈ state.database.tasks, (task row).status.Terminal →
      row.status.Terminal)
    (leads : state.database.Leads next.database)
    (calls : ∀ requestId,
      (∃ call ∈ state.calls, call.Finalises requestId) →
      ∃ call ∈ next.calls, call.Finalises requestId) : Settling next := by
  intro requestId row found all
  refine settling.carry leads found ⟨?_, revises.allTerminal ?_ all⟩
    (calls requestId)
  · rw [revises.request_eq] at found
    obtain ⟨old, located, _⟩ := Option.map_eq_some_iff.mp found
    exact ⟨old, located⟩
  · intro old member
    exact open_ old (Database.mem_tasksOf.mp member).1

private theorem claimRow_open {taskIds : List String} {workerId : String}
    {leaseUntil : Time} (row : RequestTask)
    (terminal : (Database.claimRow taskIds workerId leaseUntil
      row).status.Terminal) : row.status.Terminal := by
  unfold Database.claimRow at terminal
  split at terminal
  next => exact terminal.elim
  next => exact terminal

theorem recorded (settling : Settling state) (core : Core state)
    (leads : state.database.Leads next.database) {index : Nat} {call : Call}
    {taskId : String} {work : Work} {task row : RequestTask}
    {request : PrivacyRequest} {now : Time}
    (found : state.calls[index]? = some call)
    (phase : call.phase = .worked taskId work)
    (held : call.session.task taskId = some task)
    (rowFound : state.database.task taskId = some row)
    (running : row.status = .running)
    (shape : next = { (state.put index
        (call.afterRecord deployment taskId work task request)) with
      database := recordOutcome deployment.runtime deployment.settings
        call.executor work task request now state.database }) :
    Settling next := by
  have member := List.mem_of_getElem? found
  have isTask := core.tidy.keyed call member taskId task held
  obtain ⟨current, currentFound, key, _⟩ :=
    (core.sessions call member).task taskId task held
  rw [rowFound] at currentFound
  cases currentFound
  obtain ⟨rowMember, rowId⟩ := Database.task_mem rowFound
  have revises := Database.recordOutcome_revises deployment.runtime
    deployment.settings call.executor work task request now state.database
  subst shape
  intro requestId owner ownerFound all
  by_cases own : task.requestId = requestId
  · by_cases cancelled : work.ending = .cancelled
    · -- A cancelled execution leaves its task `RUNNING`.
      have inTasks : row ∈ state.database.tasksOf requestId :=
        Database.mem_tasksOf.mpr ⟨rowMember, key.symm.trans own⟩
      have written := all.2 _ (by
        rw [revises.tasksOf_eq]
        exact List.mem_map_of_mem inTasks)
      rw [Database.recordRow,
        if_pos (decide_eq_true (rowId.trans isTask.symm))] at written
      have unchanged : (task.flush (task.settle deployment.settings
          call.executor work.ending) row).status = row.status := by
        simp [RequestTask.flush, RequestTask.settle, cancelled]
      rw [unchanged, running] at written
      exact written.elim
    · right
      have lookup := getElem?_set_slot found
        (call.afterRecord deployment taskId work task request) index
      rw [if_pos rfl] at lookup
      refine ⟨_, List.mem_of_getElem? lookup, ?_⟩
      rw [Call.afterRecord, if_neg cancelled]
      refine .recorded taskId (task.settle deployment.settings call.executor
        work.ending) rfl ?_ ?_
      · simp [Session.putRequest, Session.putTask, isTask]
      · rw [RequestTask.settle_requestId]
        exact own
  · refine settling.carry leads ownerFound ⟨?_, revises.allTerminal ?_ all⟩ ?_
    · dsimp only at ownerFound
      rw [revises.request_eq] at ownerFound
      obtain ⟨old, located, _⟩ := Option.map_eq_some_iff.mp ownerFound
      exact ⟨old, located⟩
    · intro other otherMember terminal
      obtain ⟨inTable, owned⟩ := Database.mem_tasksOf.mp otherMember
      rw [Database.recordRow, if_neg] at terminal
      · exact terminal
      · intro hit
        apply own
        have isRow : other = row := core.tidy.tables.taskIds.eq_of_mem inTable
          rowMember (((of_decide_eq_true hit).trans isTask).trans rowId.symm)
        rw [key, ← isRow]
        exact owned
    · apply State.exists_finaliser_put found
      intro finalises
      rcases finalises.phase with ⟨_, other⟩ | ⟨_, _, other⟩
      · rw [phase] at other
        cases other
      · rw [phase] at other
        cases other

theorem refreshed (settling : Settling state) (core : Core state)
    (leads : state.database.Leads next.database) {index : Nat} {call : Call}
    {requestId : String} {own reference : Option String}
    {request : PrivacyRequest} {noticeId : String} {now : Time}
    (found : state.calls[index]? = some call)
    (phase : call.phase = .refreshing requestId own reference)
    (held : call.session.request requestId = some request)
    (shape : next = { (state.put index { call with
        session := call.session.putRequest (request.refresh
          (call.session.derivedStatus requestId) reference)
        phase := call.resume (call.refreshResult own) }) with
      database := commitRefresh deployment.runtime call.session request
        reference noticeId now state.database }) :
    Settling next := by
  have member := List.mem_of_getElem? found
  have agrees := core.sessions call member
  obtain ⟨owner, ownerFound, key, _⟩ := agrees.request requestId request held
  have revises := Database.commitRefresh_revises deployment.runtime
    call.session request reference noticeId now state.database
  rw [key] at revises
  subst shape
  intro otherId row rowFound all
  have before := revises.allTerminal (fun _ _ terminal => terminal) all
  by_cases final : otherId = requestId ∧ call.session.SeesTerminal requestId
  · obtain ⟨rfl, sees⟩ := final
    have derived := core.derived_terminal member phase sees before.1
    dsimp only at rowFound
    rw [revises.request_eq, ownerFound] at rowFound
    cases rowFound
    rcases core.refreshRow_status member phase held ownerFound now with
      written | ⟨notDerived, _⟩
    · left
      rw [written]
      exact derived
    · exact absurd derived notDerived
  · refine settling.carry leads rowFound ⟨?_, before⟩ ?_
    · dsimp only at rowFound
      rw [revises.request_eq] at rowFound
      obtain ⟨old, located, _⟩ := Option.map_eq_some_iff.mp rowFound
      exact ⟨old, located⟩
    · apply State.exists_finaliser_put found
      intro finalises
      obtain ⟨rfl, sees⟩ := finalises.of_refreshing phase
      exact absurd ⟨rfl, sees⟩ final

/-- The refresh after the last task sees all tasks terminal. -/
theorem locked (settling : Settling state) (core : Core state)
    (leads : state.database.Leads next.database) {index : Nat} {call : Call}
    {requestId : String} {own : Option String} {session : Session}
    (current : ViewsCurrent state (.refreshSelect index))
    (found : state.calls[index]? = some call)
    (target : call.RefreshTarget state.database requestId own session)
    (shape : next = state.put index { call with
      session := session.loadRefresh state.database requestId
      phase := .refreshing requestId own none }) :
    Settling next := by
  subst shape
  intro otherId row rowFound all
  refine settling.carry leads rowFound ⟨⟨row, rowFound⟩, all⟩ ?_
  apply State.exists_finaliser_put found
  intro finalises
  cases target with
  | recorded taskId task phase held =>
      cases finalises with
      | recorded otherTask copy other otherHeld same =>
          rw [phase] at other
          cases other
          rw [held] at otherHeld
          cases otherHeld
          subst same
          refine .refreshing (some taskId) none rfl ?_
          have entry := (Call.RefreshTarget.recorded taskId task phase
            held).refreshTarget core.tidy.tables found
          apply (core.sessions call (List.mem_of_getElem? found)).seesTerminal
          · exact current _ entry all.2
          · exact all.2
      | refreshing otherOwn reference other =>
          rw [phase] at other
          cases other
  | duplicate taskId duplicate phase member same =>
      rcases finalises.phase with ⟨_, other⟩ | ⟨_, _, other⟩
      · rw [phase] at other
        cases other
      · rw [phase] at other
        cases other

/-- A call that finalises nothing may be overwritten. -/
theorem exists_finaliser_of_ne {index : Nat} {old new : Call}
    (found : state.calls[index]? = some old)
    (recorded : ∀ taskId, old.phase ≠ .recorded taskId)
    (refreshing : ∀ requestId own reference,
      old.phase ≠ .refreshing requestId own reference) (requestId : String)
    (before : ∃ call ∈ state.calls, call.Finalises requestId) :
    ∃ call ∈ (state.put index new).calls, call.Finalises requestId := by
  apply State.exists_finaliser_put found _ before
  intro finalises
  rcases finalises.phase with ⟨taskId, phase⟩ | ⟨own, reference, phase⟩
  · exact absurd phase (recorded taskId)
  · exact absurd phase (refreshing requestId own reference)

theorem step {action : Action} (settling : Settling state)
    (steady : Steady state) (fine : action.fails = false)
    (current : ViewsCurrent state action)
    (leads : state.database.Leads next.database)
    (stepped : FleetPrivacy.step deployment state action = some next) :
    Settling next := by
  have core := steady.core
  have same := Database.revises_refl state.database state.database.outbox
  cases effect_of_step core.tidy.tables.taskIds stepped with
  | created intake nodup fresh absent =>
      intro requestId row found all
      exact settling.carry leads found
        (Database.insertRows_allTerminal core.tidy.tables fresh all) id
  | relayed action relays extra outbox move =>
      exact settling.carry_revised (Database.revises_refl _ outbox)
        (fun _ _ terminal => terminal) leads (fun _ finaliser => finaliser)
  | opened workerId message executor bound =>
      refine settling.carry_revised same (fun _ _ terminal => terminal) leads ?_
      rintro requestId ⟨call, member, finalises⟩
      exact ⟨call, List.mem_append_left _ member, finalises⟩
  | moved action index call after artifacts found move =>
      exact settling.carry_revised same (fun _ _ terminal => terminal) leads
        (fun requestId => State.exists_finaliser_put found
          (move.finalises fine))
  | messageClaimed index call taskId now found phase claims startable =>
      refine settling.carry_revised (Database.markClaimed_revises ..)
        (fun row _ => claimRow_open row) leads ?_
      apply exists_finaliser_of_ne found
      · simp [phase]
      · simp [phase]
  | batchClaimed arguments session taskIds selected claims copies requests
      members startable =>
      refine settling.carry_revised (Database.markClaimed_revises ..)
        (fun row _ => claimRow_open row) leads ?_
      rintro requestId ⟨call, member, finalises⟩
      exact ⟨call, List.mem_append_left _ member, finalises⟩
  | selected index call taskId todo row found phase rest member hit leased =>
      refine settling.carry_revised same (fun _ _ terminal => terminal) leads ?_
      apply exists_finaliser_of_ne found
      · simp [phase]
      · simp [phase]
  | recorded index call taskId work task request now found phase held
      requestHeld free =>
      have busy : call.current = some taskId := by
        simp [Call.current, phase]
      obtain ⟨row, rowFound, leased⟩ :=
        (steady.holding.leases call (List.mem_of_getElem? found)).rows taskId
          (Call.mem_held_of_current busy)
      exact settling.recorded core leads found phase held rowFound
        (RequestTask.leasedBy_iff.mp leased).1 rfl
  | locked index call requestId own session found target free =>
      exact settling.locked core leads current found target rfl
  | refreshed index call requestId own reference request noticeId now found
      phase held uploaded fresh =>
      exact settling.refreshed core leads found phase held rfl
  | acked index call slot message found subscribed delivered returned =>
      refine settling.carry_revised same (fun _ _ terminal => terminal) leads ?_
      apply exists_finaliser_of_ne found
      · simp [returned]
      · simp [returned]
  | extended workerId taskId now =>
      refine settling.carry_revised (Database.extendTaskLease_revises ..) ?_
        leads (fun _ finaliser => finaliser)
      intro row _ terminal
      rw [Database.extendRow_status] at terminal
      exact terminal

end Settling

theorem Settling.initial : Settling State.initial := by
  intro requestId row found
  cases found

/-- The steps after which the last task finalises its request. -/
def Finalising (state : State) (action : Action) : Prop :=
  Undisturbed state action ∧ ViewsCurrent state action

instance (state : State) (action : Action) :
    Decidable (Finalising state action) :=
  inferInstanceAs (Decidable (_ ∧ _))

/-- Every request with tasks that are all terminal has its final status once
every call has returned. -/
def State.Finalised (state : State) : Prop :=
  (∀ call ∈ state.calls, call.returned = true) →
    ∀ request ∈ state.database.requests,
      state.database.AllTerminal request.id →
      request.status = finalStatus
        ((state.database.tasksOf request.id).map RequestTask.status)

instance (state : State) : Decidable state.Finalised :=
  inferInstanceAs (Decidable ((∀ call ∈ state.calls, call.returned = true) →
    ∀ request ∈ state.database.requests,
      state.database.AllTerminal request.id →
      request.status = finalStatus
        ((state.database.tasksOf request.id).map RequestTask.status)))

/-- On PostgreSQL every request is finalised by its last task. -/
theorem last_task_finalises_request (deployment : Deployment)
    (postgresql : deployment.dialect = .postgresql)
    {actions : List Action} {state : State}
    (execution : Runs (step deployment) Finalising State.initial actions
      state) : state.Finalised := by
  have preserved : ∀ {before : State} {action : Action} {after : State},
      Steady before ∧ Settling before → Finalising before action →
      step deployment before action = some after →
      Steady after ∧ Settling after := by
    rintro before action after ⟨steady, settling⟩ ⟨⟨live, fine⟩, current⟩
      stepped
    have refreshes : ∀ index, action = .refreshSelect index →
        Fenced before (.refreshSelect index) := by
      rintro index rfl
      exact steady.core.fenced_of_viewsCurrent current
    obtain ⟨next, leads⟩ := steady.step postgresql live refreshes stepped
    exact ⟨next, settling.step steady fine current leads stepped⟩
  obtain ⟨steady, settling⟩ := execution.invariant preserved
    ⟨Steady.initial, Settling.initial⟩
  intro returned request member all
  have found := steady.core.tidy.tables.request_eq member
  have nonempty : (state.database.tasksOf request.id).map
      RequestTask.status ≠ [] := by
    intro empty
    exact all.1 (List.map_eq_nil_iff.mp empty)
  have terminal : ∀ status ∈ (state.database.tasksOf request.id).map
      RequestTask.status, status.Terminal := by
    intro status inStatuses
    obtain ⟨task, inTasks, rfl⟩ := List.mem_map.mp inStatuses
    exact all.2 task inTasks
  rw [← deriveStatus_eq_finalStatus nonempty terminal]
  rcases settling request.id request found all with final | finaliser
  · exact steady.core.finished request.id request found final
  · obtain ⟨call, callMember, finalises⟩ := finaliser
    exact absurd finalises (Call.not_finalises_of_returned
      (returned call callMember) request.id)

/-! Three tasks of one request, in a batch of two and a batch of one. -/

private def threeTasks : Intake :=
  demoIntake 'a' .access ["devices", "jobs", "profile"] (by decide) (by decide)

private def batchOfTwo (workerId : String) : ClaimArguments :=
  { workerId, tenantId := none, batchSize := some 2, now := 0, locked := [] }

/-- One task of a call, up to the lock of its refresh. -/
private def executedTask (call : Nat) : List Action :=
  [.selectTask call, .work call demoSuccess, .recordTask call 5,
    .refreshSelect call]

private def claimBatches : List Action :=
  [.create threeTasks, .processOnce (batchOfTwo "w1"),
    .processOnce (batchOfTwo "w2")]

private def smallBatchLast : List Action :=
  claimBatches ++ executedTask 0 ++ [.refreshCommit 0 "n" 6] ++
    executedTask 0 ++ [.refreshCommit 0 "n" 7] ++
    executedTask 1 ++ [.upload 1 true 8, .refreshCommit 1 "n" 9]

theorem small_batch_finalises_request :
    ∃ state, Runs (step demoDeployment) Finalising State.initial
        smallBatchLast state ∧
      (state.database.requests.map PrivacyRequest.status = [.completed] ∧
        ∀ call ∈ state.calls, call.returned = true) ∧
      state.Finalised := by
  have evaluated : (run (step demoDeployment) Finalising State.initial
      smallBatchLast).map (fun state =>
        decide (state.database.requests.map PrivacyRequest.status =
          [.completed] ∧ ∀ call ∈ state.calls, call.returned = true)) =
      some true := by
    decide +kernel
  obtain ⟨state, result, reached⟩ := Option.map_eq_some_iff.mp evaluated
  have execution := runs_of_run result
  exact ⟨state, execution, of_decide_eq_true reached,
    last_task_finalises_request demoDeployment rfl execution⟩

/-! The batch of two ends last, with the copy of the third task that its first
refresh loaded. -/

private def largeBatchLast : List Action :=
  claimBatches ++ executedTask 0 ++ [.refreshCommit 0 "n" 6] ++
    executedTask 1 ++ [.refreshCommit 1 "n" 7] ++
    executedTask 0 ++ [.refreshCommit 0 "n" 8]

theorem large_batch_leaves_request_running :
    ∃ state, Runs (step demoDeployment) Undisturbed State.initial
        largeBatchLast state ∧ ¬ state.Finalised := by
  have evaluated : (run (step demoDeployment) Undisturbed State.initial
      largeBatchLast).map (fun state => decide state.Finalised) =
      some false := by
    decide +kernel
  obtain ⟨state, result, unfinished⟩ := Option.map_eq_some_iff.mp evaluated
  exact ⟨state, runs_of_run result, of_decide_eq_false unfinished⟩

end FleetPrivacy
