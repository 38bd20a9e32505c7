import FleetPrivacy.Tables

/-!
# Status and lease columns

A task should be `RUNNING` exactly while its two lease columns are set, so that
every open task can be claimed now or after its lease.  Cancelling an execution
breaks this: `finally` clears the lease of a task that stays `RUNNING`.
-/

namespace FleetPrivacy

open Transition

/-- The copy that the session already holds of the task which `selectTask` is
about to select. -/
def State.retained (state : State) (index : Nat) : Option RequestTask :=
  match state.calls[index]? with
  | some call =>
      match call.todo with
      | taskId :: _ => call.session.task taskId
      | [] => none
  | none => none

/-- Every task can be claimed now or once its lease has run out, and its status
and lease columns agree. -/
def State.LeasesInStep (state : State) : Prop :=
  ∀ task ∈ state.database.tasks,
    (task.status = .running ↔
      task.leaseOwner ≠ none ∧ task.leaseExpiresAt ≠ none) ∧
    (¬ task.status.Terminal →
      (∀ now, task.claimable now = true) ∨
        ∃ expiry, task.leaseExpiresAt = some expiry ∧
          ∀ now, expiry < now → task.claimable now = true)

/-- The steps that keep the columns in step: a cancelled execution commits only
when its row is no longer `RUNNING`, and `execute_task` finds no older copy of
its task that is not `RUNNING` in its session. -/
def KeepsLease (state : State) : Action → Prop
  | .recordTask index _ =>
      ∀ entry ∈ state.recording index, entry.2.2.ending = .cancelled →
        ∀ row ∈ state.database.tasks, row.id = entry.2.1 →
          row.status ≠ .running
  | .selectTask index =>
      ∀ copy ∈ state.retained index, copy.status = .running
  | _ => True

instance (state : State) (action : Action) :
    Decidable (KeepsLease state action) :=
  match action with
  | .recordTask index _ =>
      inferInstanceAs (Decidable (∀ entry ∈ state.recording index,
        entry.2.2.ending = .cancelled → ∀ row ∈ state.database.tasks,
          row.id = entry.2.1 → row.status ≠ .running))
  | .selectTask index =>
      inferInstanceAs (Decidable (∀ copy ∈ state.retained index,
        copy.status = .running))
  | .create _ | .relaySelect _ | .relayPublish _ _ _ _ | .relayCommit _
  | .relayCrash _ | .deliver _ _ _ | .messageGet _ _ | .messageClaim _
  | .processOnce _ | .work _ _ | .refreshSelect _ | .upload _ _ _
  | .refreshCommit _ _ _ | .ack _ | .crash _ | .extendLease _ _ _ =>
      .isTrue trivial

namespace RequestTask

def LeaseInStep (task : RequestTask) : Prop :=
  (∃ owner expiry, task.status = .running ∧ task.leaseOwner = some owner ∧
    task.leaseExpiresAt = some expiry) ∨
    task.status ≠ .running ∧ task.leaseOwner = none ∧
      task.leaseExpiresAt = none

theorem LeaseInStep.claim (workerId : String) (leaseUntil : Time)
    (task : RequestTask) : (task.claim workerId leaseUntil).LeaseInStep :=
  .inl ⟨workerId, leaseUntil, rfl, rfl, rfl⟩

/-- The write-back of a leased copy clears the lease columns; it leaves the
status alone only when the execution was cancelled. -/
theorem LeaseInStep.flush_settle {settings : Settings} {executor : Bool}
    {ending : Ending} {copy row : RequestTask}
    (inStep : copy.LeaseInStep) (running : copy.status = .running)
    (settled : ending = .cancelled → row.status ≠ .running) :
    (copy.flush (copy.settle settings executor ending) row).LeaseInStep := by
  rcases inStep with ⟨owner, expiry, _, owned, expires⟩ | ⟨other, _⟩
  · refine .inr ⟨?_, ?_, ?_⟩
    · by_cases cancelled : ending = .cancelled
      · rw [cancelled]
        simpa [flush, settle] using settled cancelled
      · have changed :
            (copy.settle settings executor ending).status ≠ .running :=
          settle_status_ne_running cancelled copy
        have differs : (copy.settle settings executor ending).status ≠
            copy.status := by
          rw [running]
          exact changed
        simpa [flush, flushColumn_of_ne differs] using changed
    · simp [flush, owned, flushColumn]
    · simp [flush, expires, flushColumn]
  · exact absurd running other

end RequestTask

structure LeaseInvariant (state : State) : Prop where
  rows : ∀ task ∈ state.database.tasks, task.LeaseInStep
  copies : ∀ call ∈ state.calls, ∀ taskId copy,
    call.session.task taskId = some copy → copy.LeaseInStep
  current : ∀ call ∈ state.calls, ∀ taskId, call.current = some taskId →
    ∃ copy, call.session.task taskId = some copy ∧ copy.status = .running

namespace LeaseInvariant

variable {deployment : Deployment} {state next : State}

/-- Copies after a load are the old ones or rows of the table. -/
private theorem loaded {session : Session} {rows : List RequestTask}
    (held : ∀ taskId copy, session.task taskId = some copy →
      copy.LeaseInStep)
    (stored : ∀ row ∈ rows, row.LeaseInStep) {taskId : String}
    {copy : RequestTask}
    (found : (session.task taskId).or
      (Table.get RequestTask.id taskId rows) = some copy) :
    copy.LeaseInStep := by
  rcases Option.or_eq_some_iff.mp found with kept | ⟨_, fresh⟩
  · exact held taskId copy kept
  · exact stored copy (Table.get_mem fresh).1

/-- A step that replaces or adds one call and revises the task rows. -/
private theorem replace (invariant : LeaseInvariant state) (call : Call)
    (rows : ∀ task ∈ next.database.tasks, task.LeaseInStep)
    (calls : ∀ other ∈ next.calls, other = call ∨ other ∈ state.calls)
    (copies : ∀ taskId copy, call.session.task taskId = some copy →
      copy.LeaseInStep)
    (current : ∀ taskId, call.current = some taskId →
      ∃ copy, call.session.task taskId = some copy ∧
        copy.status = .running) :
    LeaseInvariant next := by
  refine ⟨rows, ?_, ?_⟩
  · intro other member
    rcases calls other member with replaced | kept
    · rw [replaced]
      exact copies
    · exact invariant.copies other kept
  · intro other member
    rcases calls other member with replaced | kept
    · rw [replaced]
      exact current
    · exact invariant.current other kept

private theorem idle {call : Call} (none_ : call.current = none)
    (taskId : String) (busy : call.current = some taskId) :
    ∃ copy, call.session.task taskId = some copy ∧ copy.status = .running := by
  rw [none_] at busy
  cases busy

private theorem claimRow_inStep (invariant : LeaseInvariant state)
    {taskIds : List String} {workerId : String} {leaseUntil now : Time} :
    ∀ task ∈ (state.database.markClaimed taskIds workerId leaseUntil
      now).tasks, task.LeaseInStep := by
  intro task member
  obtain ⟨old, oldMember, rfl⟩ := Table.mem_updateWhere.mp member
  split
  next => exact RequestTask.LeaseInStep.claim workerId leaseUntil old
  next => exact invariant.rows old oldMember

private theorem moved (invariant : LeaseInvariant state) {action : Action}
    {index : Nat} {call after : Call} {artifacts : ArtifactStore}
    (found : state.calls[index]? = some call)
    (move : CallMove deployment state index call action after) :
    LeaseInvariant { (state.put index after) with artifacts } := by
  have member := List.mem_of_getElem? found
  refine invariant.replace after invariant.rows
    (fun other => State.mem_put) ?_ ?_
  · intro taskId copy held
    rcases move.frame with closed | ⟨same, _⟩
    · rw [closed] at held
      cases held
    · rw [same] at held
      exact invariant.copies call member taskId copy held
  · intro taskId busy
    rcases move.frame with closed | ⟨same, kept | none_⟩
    · rw [closed] at busy
      cases busy
    · rw [kept] at busy
      rw [same]
      exact invariant.current call member taskId busy
    · exact idle none_ taskId busy

private theorem selected (invariant : LeaseInvariant state) {index : Nat}
    {call : Call} {taskId : String} {todo : List String} {row : RequestTask}
    (permitted : KeepsLease state (.selectTask index))
    (found : state.calls[index]? = some call)
    (rest : call.todo = taskId :: todo) (member : row ∈ state.database.tasks)
    (same : row.id = taskId) (leased : row.leasedBy call.workerId = true)
    (requests : List PrivacyRequest) :
    LeaseInvariant (state.put index { call with
      session := (call.session.loadTasks [row]).loadRequests requests
      todo
      phase := .working taskId }) := by
  have callMember := List.mem_of_getElem? found
  have stored : ∀ other ∈ [row], other.LeaseInStep := by
    intro other isRow
    rw [List.mem_singleton.mp isRow]
    exact invariant.rows row member
  refine invariant.replace _ invariant.rows
    (fun other => State.mem_put) ?_ ?_
  · intro otherId copy held
    exact loaded (invariant.copies call callMember) stored held
  · intro otherId busy
    cases busy
    have running : ∀ copy, call.session.task taskId = some copy →
        copy.status = .running := by
      intro copy held
      apply permitted copy
      simp [State.retained, found, rest, held]
    cases held : call.session.task taskId with
    | some copy =>
        refine ⟨copy, ?_, running copy held⟩
        simp [Session.loadRequests, Session.loadTasks, held]
    | none =>
        refine ⟨row, ?_, (RequestTask.leasedBy_iff.mp leased).1⟩
        simp [Session.loadRequests, Session.loadTasks, held, Table.get, same]

private theorem recorded (tidy : state.Tidy)
    (invariant : LeaseInvariant state) {index : Nat}
    {call : Call} {taskId : String} {work : Work} {task : RequestTask}
    {request : PrivacyRequest} {now : Time}
    (permitted : KeepsLease state (.recordTask index now))
    (found : state.calls[index]? = some call)
    (phase : call.phase = .worked taskId work)
    (held : call.session.task taskId = some task) :
    LeaseInvariant { (state.put index
        (call.afterRecord deployment taskId work task request)) with
      database := recordOutcome deployment.runtime deployment.settings
        call.executor work task request now state.database } := by
  have callMember := List.mem_of_getElem? found
  have isTask := tidy.keyed call callMember taskId task held
  have inStep := invariant.copies call callMember taskId task held
  have running : task.status = .running := by
    obtain ⟨copy, current, running⟩ := invariant.current call callMember taskId
      (by simp [Call.current, phase])
    rw [held] at current
    cases current
    exact running
  have entry : state.recording index = some (call, taskId, work) := by
    simp [State.recording, found, phase]
  refine invariant.replace _ ?_
    (fun other => State.mem_put) ?_ ?_
  · intro row member
    obtain ⟨old, oldMember, rfl⟩ := Table.mem_updateWhere.mp member
    split
    next hit =>
      apply inStep.flush_settle running
      intro cancelled
      exact permitted _ entry cancelled old oldMember
        ((of_decide_eq_true hit).trans isTask)
    next => exact invariant.rows old oldMember
  · intro otherId copy heldAfter
    unfold Call.afterRecord at heldAfter
    split at heldAfter
    next => cases heldAfter
    next uncancelled =>
      by_cases own : otherId = task.id
      · have settled : copy = task.settle deployment.settings call.executor
            work.ending := by
          simpa [Session.putRequest, Session.putTask, own] using heldAfter.symm
        rw [settled]
        exact .inr ⟨RequestTask.settle_status_ne_running uncancelled task,
          by simp, by simp⟩
      · have kept : call.session.task otherId = some copy := by
          simpa [Session.putRequest, Session.putTask, own] using heldAfter
        exact invariant.copies call callMember otherId copy kept
  · exact idle (Call.current_afterRecord ..)

theorem step {action : Action} (tidy : state.Tidy)
    (invariant : LeaseInvariant state) (permitted : KeepsLease state action)
    (stepped : FleetPrivacy.step deployment state action = some next) :
    LeaseInvariant next := by
  cases effect_of_step tidy.tables.taskIds stepped with
  | created intake nodup fresh absent =>
      refine ⟨?_, invariant.copies, invariant.current⟩
      intro task member
      rcases List.mem_append.mp member with old | new
      · exact invariant.rows task old
      · obtain ⟨⟨source, position⟩, _, rfl⟩ := List.mem_map.mp new
        exact .inr ⟨by simp [Intake.task], rfl, rfl⟩
  | relayed action relays extra outbox move =>
      exact ⟨invariant.rows, invariant.copies, invariant.current⟩
  | opened workerId message executor bound =>
      refine invariant.replace _ invariant.rows
        (fun other => State.mem_append_call) ?_ (idle rfl)
      intro taskId copy held
      cases held
  | moved action index call after artifacts found move =>
      exact invariant.moved found move
  | messageClaimed index call taskId now found phase claims startable =>
      refine invariant.replace _ invariant.claimRow_inStep
        (fun other => State.mem_put) ?_ (idle rfl)
      intro otherId copy held
      cases held
  | batchClaimed arguments session taskIds selected claims copies requests
      members startable =>
      refine invariant.replace _ invariant.claimRow_inStep
        (fun other => State.mem_append_call) ?_ (idle rfl)
      intro taskId copy held
      obtain ⟨row, _, _, _, rfl⟩ := copies taskId copy held
      exact RequestTask.LeaseInStep.claim _ _ row
  | selected index call taskId todo row found phase rest member same leased =>
      exact invariant.selected permitted found rest member same leased _
  | recorded index call taskId work task request now found phase held
      requestHeld free =>
      exact invariant.recorded tidy permitted found phase held
  | locked index call requestId own session found target free =>
      refine invariant.replace _ invariant.rows
        (fun other => State.mem_put) ?_ (idle rfl)
      intro taskId copy held
      have stored : ∀ row ∈ state.database.tasksOf requestId,
          row.LeaseInStep := by
        intro row member
        exact invariant.rows row (Database.mem_tasksOf.mp member).1
      rw [Session.loadRefresh_task] at held
      refine loaded ?_ stored held
      cases target with
      | recorded => exact invariant.copies call (List.mem_of_getElem? found)
      | duplicate =>
          intro otherId other none_
          cases none_
  | refreshed index call requestId own reference request noticeId now found
      phase held uploaded fresh =>
      refine invariant.replace _ ?_ (fun other => State.mem_put)
        (invariant.copies call (List.mem_of_getElem? found))
        (idle (call.current_resume _ _ _))
      intro task member
      rw [Database.commitRefresh_tasks] at member
      exact invariant.rows task member
  | acked index call slot message found subscribed delivered returned =>
      refine invariant.replace _ invariant.rows
        (fun other => State.mem_put) ?_ (idle call.current_close)
      intro taskId copy held
      cases held
  | extended workerId taskId now =>
      refine ⟨?_, invariant.copies, invariant.current⟩
      intro task member
      obtain ⟨old, oldMember, rfl⟩ := Table.mem_updateWhere.mp member
      split
      next hit =>
        have leased := RequestTask.leasedBy_iff.mp
          (Bool.and_eq_true _ _ ▸ hit).2
        exact .inl ⟨workerId, _, leased.1, leased.2, rfl⟩
      next => exact invariant.rows old oldMember

end LeaseInvariant

theorem LeaseInvariant.initial : LeaseInvariant State.initial := by
  refine ⟨?_, ?_, ?_⟩
  · intro task member
    cases member
  · intro call member
    cases member
  · intro call member
    cases member

theorem LeaseInvariant.leasesInStep {state : State}
    (invariant : LeaseInvariant state) : state.LeasesInStep := by
  intro task member
  rcases invariant.rows task member with
    ⟨owner, expiry, running, owned, expires⟩ | ⟨idle, unowned, unexpired⟩
  · refine ⟨by simp [running, owned, expires], ?_⟩
    intro _
    refine .inr ⟨expiry, expires, ?_⟩
    intro now later
    exact RequestTask.claimable_iff.mpr
      (.inr ⟨running, expiry, expires, later⟩)
  · refine ⟨by simp [idle, unowned], ?_⟩
    intro unfinished
    refine .inl fun now => RequestTask.claimable_iff.mpr (.inl ?_)
    cases status : task.status with
    | pending => rfl
    | running => exact absurd status idle
    | succeeded => exact absurd (by simp [status, TaskStatus.Terminal]) unfinished
    | failed => exact absurd (by simp [status, TaskStatus.Terminal]) unfinished

/-- Along every run whose steps keep the lease, no task is ever left
unclaimable. -/
theorem no_task_left_unclaimable (deployment : Deployment)
    {actions : List Action} {state : State}
    (execution : Runs (step deployment) KeepsLease State.initial actions
      state) : state.LeasesInStep := by
  have preserved : ∀ {before : State} {action : Action} {after : State},
      before.Tidy ∧ LeaseInvariant before → KeepsLease before action →
      step deployment before action = some after →
      after.Tidy ∧ LeaseInvariant after := by
    rintro before action after ⟨tidy, invariant⟩ permitted stepped
    exact ⟨tidy.step stepped, invariant.step tidy permitted stepped⟩
  have reached := execution.invariant preserved
    ⟨State.tidy_initial, LeaseInvariant.initial⟩
  exact reached.2.leasesInStep

/-! One task is claimed, executed and recorded. -/

private def completedExecution : List Action :=
  [.create demoRequest, .processOnce (demoClaim "w1" 0), .selectTask 0,
    .work 0 demoSuccess, .recordTask 0 1]

theorem completed_execution_keeps_leases :
    ∃ state, Runs (step demoDeployment) KeepsLease State.initial
        completedExecution state ∧
      state.database.tasks.map RequestTask.status = [.succeeded] ∧
      state.LeasesInStep := by
  have evaluated : (run (step demoDeployment) KeepsLease State.initial
      completedExecution).map (fun state =>
        state.database.tasks.map RequestTask.status) = some [.succeeded] := by
    decide +kernel
  obtain ⟨state, result, statuses⟩ := Option.map_eq_some_iff.mp evaluated
  have execution := runs_of_run result
  exact ⟨state, execution, statuses,
    no_task_left_unclaimable demoDeployment execution⟩

/-! The same execution, cancelled while the source works. -/

private def cancelledExecution : List Action :=
  [.create demoRequest, .processOnce (demoClaim "w1" 0), .selectTask 0,
    .work 0 { ending := .cancelled, deleted := [], deletedAt := 0 },
    .recordTask 0 1]

theorem cancellation_strands_task :
    ∃ state, Runs (step demoDeployment) Always State.initial
        cancelledExecution state ∧
      ¬ state.LeasesInStep := by
  have evaluated : (run (step demoDeployment) Always State.initial
      cancelledExecution).map (fun state =>
        state.database.tasks.map fun task =>
          (task.status, task.leaseOwner, task.leaseExpiresAt)) =
      some [(.running, none, none)] := by
    decide +kernel
  obtain ⟨state, result, columns⟩ := Option.map_eq_some_iff.mp evaluated
  refine ⟨state, runs_of_run result, ?_⟩
  intro inStep
  obtain ⟨task, tasks, row⟩ := List.map_eq_singleton_iff.mp columns
  have member : task ∈ state.database.tasks := by
    rw [tasks]
    exact List.mem_singleton_self task
  have running : task.status = .running := congrArg Prod.fst row
  have unowned : task.leaseOwner = none :=
    congrArg (fun columns => columns.2.1) row
  exact ((inStep task member).1.mp running).1 unowned

end FleetPrivacy
