import FleetPrivacy.Holding
import FleetPrivacy.Sessions

/-!
# Executions under a live lease

While leases live, nobody but its holder writes the row of a held task.  The
copy that an execution works on then shows its row up to the expiry of the
lease, and the outcome that it commits is the settled row.
-/

namespace FleetPrivacy

open Transition

/-- The copy shows the row up to the expiry of its lease; both have one. -/
structure RequestTask.Current (copy row : RequestTask) : Prop where
  columns : { copy with leaseExpiresAt := row.leaseExpiresAt } = row
  copyLeased : copy.leaseExpiresAt ≠ none
  rowLeased : row.leaseExpiresAt ≠ none

namespace RequestTask.Current

theorem refl {row : RequestTask} (leased : row.leaseExpiresAt ≠ none) :
    row.Current row :=
  ⟨rfl, leased, leased⟩

theorem trans {first second third : RequestTask}
    (left : first.Current second) (right : second.Current third) :
    first.Current third := by
  refine ⟨?_, left.copyLeased, right.rowLeased⟩
  have columns := right.columns
  rw [← left.columns] at columns
  exact columns

/-- The write-back of a current copy settles the row. -/
theorem flush_settle {copy row : RequestTask} (current : copy.Current row)
    (settings : Settings) (executor : Bool) (ending : Ending) :
    copy.flush (copy.settle settings executor ending) row =
      row.settle settings executor ending := by
  have lease : flushColumn copy.leaseExpiresAt none row.leaseExpiresAt =
      none := flushColumn_of_ne (Ne.symm current.copyLeased) _
  have shape : copy =
      { row with leaseExpiresAt := copy.leaseExpiresAt } := by
    rw [← current.columns]
  rw [shape] at lease ⊢
  cases ending with
  | returned payload =>
      simp only [RequestTask.flush, RequestTask.settle, flushColumn_fresh,
        lease]
  | raised message =>
      simp only [RequestTask.flush, RequestTask.settle, flushColumn_fresh,
        lease]
  | cancelled =>
      simp only [RequestTask.flush, RequestTask.settle, flushColumn_fresh,
        lease]

end RequestTask.Current

/-- The copies of held tasks are current. -/
def Call.Follows (call : Call) (database : Database) : Prop :=
  ∀ taskId ∈ call.held, ∀ row, database.task taskId = some row →
    row.leaseExpiresAt ≠ none ∧
      ∀ copy, call.session.task taskId = some copy → copy.Current row

def Executing (state : State) : Prop :=
  ∀ call ∈ state.calls, call.Follows state.database

namespace Executing

variable {deployment : Deployment} {state next : State}

/-- One call is replaced or added; the rows that the others hold are at most
extended. -/
theorem replace (executing : Executing state) (index : Nat) (call : Call)
    (calls : ∀ (other : Nat) (current : Call),
      next.calls[other]? = some current →
      other = index ∧ current = call ∨
        other ≠ index ∧ state.calls[other]? = some current)
    (kept : ∀ (other : Nat) (current : Call), other ≠ index →
      state.calls[other]? = some current → ∀ taskId ∈ current.held,
      next.database.task taskId = state.database.task taskId)
    (follows : call.Follows next.database) : Executing next := by
  intro current inNext
  obtain ⟨slot, found⟩ := List.getElem?_of_mem inNext
  rcases calls slot current found with ⟨_, new⟩ | ⟨away, old⟩
  · rw [new]
    exact follows
  · intro taskId held row rowFound
    rw [kept slot current away old taskId held] at rowFound
    exact executing current (List.mem_of_getElem? old) taskId held row rowFound

/-- A call that holds less, with the same copies of what it holds. -/
theorem shrink (executing : Executing state) {index : Nat} {call after : Call}
    (found : state.calls[index]? = some call)
    (calls : ∀ (other : Nat) (current : Call),
      next.calls[other]? = some current →
      other = index ∧ current = after ∨
        other ≠ index ∧ state.calls[other]? = some current)
    (tasks : ∀ taskId, next.database.task taskId = state.database.task taskId)
    (fewer : ∀ taskId ∈ after.held, taskId ∈ call.held)
    (copies : ∀ taskId ∈ after.held, ∀ copy,
      after.session.task taskId = some copy →
      call.session.task taskId = some copy ∨
        state.database.task taskId = some copy) : Executing next := by
  apply executing.replace index after calls
  · intro other current _ _ taskId _
    exact tasks taskId
  · intro taskId held row rowFound
    rw [tasks] at rowFound
    obtain ⟨leased, current⟩ := executing call (List.mem_of_getElem? found)
      taskId (fewer taskId held) row rowFound
    refine ⟨leased, ?_⟩
    intro copy copyHeld
    rcases copies taskId held copy copyHeld with old | fresh
    · exact current copy old
    · rw [rowFound] at fresh
      cases fresh
      exact .refl leased

/-- A call claims tasks that nobody holds, with copies of the claimed rows. -/
theorem claimed (executing : Executing state) (holding : Holding state)
    (tidy : state.Tidy) {now : Time} (unexpired : state.Unexpired now)
    {taskIds : List String} (claims : state.database.Claims now taskIds)
    (leaseUntil : Time) (index : Nat) (call : Call)
    (calls : ∀ (other : Nat) (current : Call),
      next.calls[other]? = some current →
      other = index ∧ current = call ∨
        other ≠ index ∧ state.calls[other]? = some current)
    (written : next.database = state.database.markClaimed taskIds call.workerId
      leaseUntil now)
    (holds : call.held = taskIds)
    (copies : ∀ taskId copy, call.session.task taskId = some copy →
      ∃ row ∈ state.database.tasks, row.id = taskId ∧ taskId ∈ taskIds ∧
        copy = row.claim call.workerId leaseUntil) : Executing next := by
  have revises := Database.markClaimed_revises state.database taskIds
    call.workerId leaseUntil now
  have unheld := holding.unheld_of_claims unexpired tidy.tables.taskIds claims
  apply executing.replace index call calls
  · intro other current _ found taskId held
    rw [written]
    apply Database.markClaimed_task_of_not_mem
    intro taken
    exact unheld taskId taken current (List.mem_of_getElem? found) held
  · intro taskId held row rowFound
    rw [holds] at held
    rw [written, revises.task_eq] at rowFound
    obtain ⟨old, oldFound, isRow⟩ := Option.map_eq_some_iff.mp rowFound
    obtain ⟨oldMember, oldId⟩ := Database.task_mem oldFound
    rw [Database.claimRow, if_pos (decide_eq_true (oldId ▸ held))] at isRow
    have leased : row.leaseExpiresAt ≠ none := by
      rw [← isRow]
      exact Option.some_ne_none leaseUntil
    refine ⟨leased, ?_⟩
    intro copy copyHeld
    obtain ⟨source, sourceMember, sourceId, _, rfl⟩ :=
      copies taskId copy copyHeld
    have same : source = old := tidy.tables.taskIds.eq_of_mem sourceMember
      oldMember (sourceId.trans oldId.symm)
    rw [same, isRow]
    exact .refl leased

/-- The execution gives its task up; other rows stay. -/
theorem recorded (executing : Executing state) (holding : Holding state)
    (tidy : state.Tidy) {index : Nat} {call : Call} {taskId : String}
    {work : Work} {task : RequestTask} {request : PrivacyRequest} {now : Time}
    (found : state.calls[index]? = some call)
    (phase : call.phase = .worked taskId work)
    (held : call.session.task taskId = some task) :
    Executing { (state.put index
        (call.afterRecord deployment taskId work task request)) with
      database := recordOutcome deployment.runtime deployment.settings
        call.executor work task request now state.database } := by
  have member := List.mem_of_getElem? found
  have isTask := tidy.keyed call member taskId task held
  have shape := Call.held_of_worked phase
  have nodup := (holding.leases call member).nodup
  rw [shape, List.nodup_cons] at nodup
  have kept : ∀ otherId, otherId ≠ taskId →
      (recordOutcome deployment.runtime deployment.settings call.executor work
        task request now state.database).task otherId =
        state.database.task otherId := by
    intro otherId different
    apply Database.recordOutcome_task_of_ne
    rw [isTask]
    exact different
  refine executing.replace index _ (fun other current => State.put_cases found)
    ?_ ?_
  · intro other current away otherFound otherId holds
    apply kept
    rintro rfl
    apply away
    apply holding.exclusive other index current call otherId otherFound found
      holds
    rw [shape]
    exact List.mem_cons_self
  · intro otherId holds row rowFound
    unfold Call.afterRecord at holds ⊢
    split at holds
    next => cases holds
    next uncancelled =>
      rw [if_neg uncancelled]
      have inTodo : otherId ∈ call.todo := holds
      have different : otherId ≠ taskId := by
        rintro rfl
        exact nodup.1 inTodo
      rw [kept otherId different] at rowFound
      obtain ⟨leased, current⟩ := executing call member otherId (by
        rw [shape]
        exact List.mem_cons_of_mem taskId inTodo) row rowFound
      refine ⟨leased, ?_⟩
      intro copy copyHeld
      apply current copy
      simpa [Session.putRequest, Session.putTask, isTask, different]
        using copyHeld

/-- An extension changes the expiry of the row only. -/
theorem extended (executing : Executing state) (workerId taskId : String)
    (now : Time) :
    Executing { state with
      database := extendTaskLease deployment.settings workerId taskId now
        state.database } := by
  intro call member otherId held row rowFound
  rw [(Database.extendTaskLease_revises ..).task_eq] at rowFound
  obtain ⟨old, oldFound, isRow⟩ := Option.map_eq_some_iff.mp rowFound
  obtain ⟨leased, current⟩ := executing call member otherId held old oldFound
  have extends_ : old.Current row := by
    rw [← isRow]
    unfold Database.extendRow
    split
    next => exact ⟨rfl, leased, Option.some_ne_none _⟩
    next => exact .refl leased
  refine ⟨extends_.rowLeased, ?_⟩
  intro copy copyHeld
  exact (current copy copyHeld).trans extends_

theorem effect {action : Action} (executing : Executing state)
    (holding : Holding state) (tidy : state.Tidy)
    (live : LeasesLive state action)
    (effect : Effect deployment state action next) : Executing next := by
  cases effect with
  | created intake nodup fresh absent =>
      intro call member taskId held row rowFound
      obtain ⟨old, oldFound, _⟩ :=
        (holding.leases call member).rows taskId held
      rw [Database.insertRows_task, oldFound] at rowFound
      exact executing call member taskId held row (oldFound.trans rowFound)
  | relayed action relays extra outbox move => exact executing
  | opened workerId message executor bound =>
      refine executing.replace state.calls.length _
        (fun other current => State.append_cases) ?_ ?_
      · intro other current _ _ taskId _
        rfl
      · intro taskId held
        cases held
  | moved action index call after artifacts found move =>
      refine executing.shrink found (fun other current => State.put_cases found)
        (fun _ => rfl) (fun taskId held => move.held.mem held) ?_
      intro taskId held copy copyHeld
      rcases move.frame with closed | ⟨same, _⟩
      · rw [closed] at copyHeld
        cases copyHeld
      · rw [same] at copyHeld
        exact .inl copyHeld
  | messageClaimed index call taskId now found phase claims startable =>
      have unexpired : state.Unexpired now := by
        apply live now
        simp [State.claimClock, found, phase]
      refine executing.claimed holding tidy unexpired claims _ index _
        (fun other current => State.put_cases found) rfl rfl ?_
      intro otherId copy copyHeld
      cases copyHeld
  | batchClaimed arguments session taskIds selected claims copies requests
      members startable =>
      have unexpired : state.Unexpired arguments.now := live arguments.now rfl
      exact executing.claimed holding tidy unexpired claims _
        state.calls.length _ (fun other current => State.append_cases) rfl rfl
        copies
  | selected index call taskId todo row found phase rest member same leased =>
      refine executing.shrink found (fun other current => State.put_cases found)
        (fun _ => rfl) ?_ ?_
      · intro otherId held
        rw [Call.held_of_ready phase, rest]
        exact held
      · intro otherId held copy copyHeld
        rcases Option.or_eq_some_iff.mp copyHeld with old | ⟨_, fresh⟩
        · exact .inl old
        · obtain ⟨isRow, key⟩ := Table.get_mem fresh
          rw [List.mem_singleton.mp isRow] at key ⊢
          refine .inr ?_
          rw [← key]
          exact tidy.tables.task_eq member
  | recorded index call taskId work task request now found phase held
      requestHeld free =>
      exact executing.recorded holding tidy found phase held
  | locked index call requestId own session found target free =>
      refine executing.shrink found (fun other current => State.put_cases found)
        (fun _ => rfl) (fun taskId held => List.mem_append_right _ held) ?_
      intro taskId held copy copyHeld
      dsimp only at copyHeld
      rw [Session.loadRefresh_task] at copyHeld
      rcases Option.or_eq_some_iff.mp copyHeld with old | ⟨_, fresh⟩
      · cases target with
        | recorded => exact .inl old
        | duplicate => cases old
      · obtain ⟨isRow, key⟩ := Table.get_mem fresh
        refine .inr ?_
        rw [← key]
        exact tidy.tables.task_eq (Database.mem_tasksOf.mp isRow).1
  | refreshed index call requestId own reference request noticeId now found
      phase held uploaded fresh =>
      refine executing.shrink found (fun other current => State.put_cases found)
        ?_ ?_ ?_
      · intro taskId
        exact Database.commitRefresh_task ..
      · intro taskId held
        rw [Call.held_of_idle (call.current_resume _ _ _)] at held
        exact List.mem_append_right _ held
      · intro taskId held copy copyHeld
        exact .inl copyHeld
  | acked index call slot message found subscribed delivered returned =>
      refine executing.replace index _
        (fun other current => State.put_cases found) ?_ ?_
      · intro other current _ _ taskId _
        rfl
      · intro taskId held
        cases held
  | extended workerId taskId now => exact executing.extended workerId taskId now

theorem initial : Executing State.initial := by
  intro call member
  cases member

/-- The row of an execution that is about to commit, and what it becomes. -/
theorem recordRow_eq (executing : Executing state) (tidy : state.Tidy)
    (settings : Settings) {index : Nat} {call : Call} {taskId : String} {work : Work}
    {task row : RequestTask} (found : state.calls[index]? = some call)
    (phase : call.phase = .worked taskId work)
    (held : call.session.task taskId = some task)
    (rowFound : state.database.task taskId = some row) :
    Database.recordRow settings call.executor work.ending task
        row =
      row.settle settings call.executor work.ending := by
  have member := List.mem_of_getElem? found
  have isTask := tidy.keyed call member taskId task held
  have hit : row.id = task.id := (Database.task_mem rowFound).2.trans isTask.symm
  obtain ⟨_, current⟩ := executing call member taskId (by
    rw [Call.held_of_worked phase]
    exact List.mem_cons_self) row rowFound
  rw [Database.recordRow, if_pos (decide_eq_true hit)]
  exact (current task held).flush_settle settings call.executor
    work.ending

end Executing

/-! ## Results in sessions -/

/-- A terminal copy shows the committed result. -/
def RequestTask.Confirms (copy row : RequestTask) : Prop :=
  copy.status.Terminal →
    row.status = copy.status ∧ row.resultSummary = copy.resultSummary

theorem RequestTask.Confirms.refl (row : RequestTask) : row.Confirms row :=
  fun _ => ⟨rfl, rfl⟩

/-- What a settled copy shows, the settled row has. -/
theorem RequestTask.Current.settle_confirms {copy row : RequestTask}
    (current : copy.Current row) (settings : Settings) (executor : Bool)
    (ending : Ending) :
    (copy.settle settings executor ending).Confirms
      (row.settle settings executor ending) := by
  have shape : copy =
      { row with leaseExpiresAt := copy.leaseExpiresAt } := by
    rw [← current.columns]
  intro _
  rw [shape]
  cases ending with
  | returned payload => exact ⟨rfl, rfl⟩
  | raised message => exact ⟨rfl, rfl⟩
  | cancelled => exact ⟨rfl, rfl⟩

def Confirmed (state : State) : Prop :=
  ∀ call ∈ state.calls, call.session.Copies RequestTask.Confirms
    (fun _ _ => True) state.database

/-- What a copy confirms stays as it is. -/
theorem Confirmed.carries {deployment : Deployment} {state next : State}
    {action : Action} (holding : Holding state) (tidy : state.Tidy)
    (effect : Effect deployment state action next) :
    Database.Carries RequestTask.Confirms RequestTask.Confirms
      (fun _ _ => True) (fun _ _ => True) state.database next.database := by
  have confirms : ∀ {taskId : String} {row current copy : RequestTask},
      state.database.task taskId = some row →
      next.database.task taskId = some current →
      copy.Confirms row → copy.Confirms current := by
    intro taskId row current copy found after confirms terminal
    obtain ⟨status, result⟩ := confirms terminal
    rw [holding.task_kept tidy effect found (status ▸ terminal)] at after
    cases after
    exact ⟨status, result⟩
  rcases effect.revision with
    ⟨intake, _, _, inserted⟩ | ⟨task, request, revises, _⟩
  · constructor
    · intro taskId row found
      have after : next.database.task taskId = some row := by
        rw [inserted, Database.insertRows_task, found]
        rfl
      exact ⟨row, after, fun _ => confirms found after⟩
    · intro requestId row found
      refine ⟨row, ?_, fun _ _ => trivial⟩
      rw [inserted, Database.insertRows_request, found]
      rfl
  · constructor
    · intro taskId row found
      have after : next.database.task taskId = some (task row) := by
        rw [revises.task_eq, found]
        rfl
      exact ⟨task row, after, fun _ => confirms found after⟩
    · intro requestId row found
      refine ⟨request row, ?_, fun _ _ => trivial⟩
      rw [revises.request_eq, found]
      rfl

theorem Confirmed.effect {deployment : Deployment} {state next : State}
    {action : Action} (confirmed : Confirmed state)
    (executing : Executing state) (holding : Holding state)
    (grounded : state.Grounded)
    (effect : Effect deployment state action next) : Confirmed next := by
  have tidy := grounded.tidy
  have carries := Confirmed.carries holding tidy effect
  apply effect.copies tidy RequestTask.Confirms.refl (fun _ => trivial)
    carries ?_ confirmed
  constructor
  · intro index now call taskId work task request isRecord found phase held
      requestHeld
    subst isRecord
    obtain ⟨again, otherId, otherWork, copy, owner, againFound, againPhase,
      heldCopy, heldOwner, shape⟩ := effect.of_recordTask
    rw [found] at againFound
    cases againFound
    rw [phase] at againPhase
    cases againPhase
    rw [held] at heldCopy
    cases heldCopy
    rw [requestHeld] at heldOwner
    cases heldOwner
    have member := List.mem_of_getElem? found
    have isTask := tidy.keyed call member taskId task held
    have revises := Database.recordOutcome_revises deployment.runtime
      deployment.settings call.executor work task request now state.database
    obtain ⟨row, rowFound, _⟩ :=
      (confirmed call member).task taskId task held
    obtain ⟨_, current⟩ := executing call member taskId (by
      rw [Call.held_of_worked phase]
      exact List.mem_cons_self) row rowFound
    constructor
    · refine ⟨row.settle deployment.settings call.executor work.ending, ?_,
        (current task held).settle_confirms _ _ _⟩
      rw [shape, isTask]
      dsimp only
      rw [revises.task_eq, rowFound, Option.map_some,
        executing.recordRow_eq tidy _ found phase held rowFound]
    · obtain ⟨owner, ownerFound, _⟩ :=
        (confirmed call member).request task.requestId request requestHeld
      obtain ⟨_, _, key, _⟩ := grounded.request_of_copy member requestHeld
      obtain ⟨later, laterFound, _⟩ :=
        carries.request task.requestId owner ownerFound
      rw [key]
      exact ⟨later, laterFound, trivial⟩
  · intro index noticeId now call requestId own reference request _ found _
      held _
    have member := List.mem_of_getElem? found
    obtain ⟨owner, ownerFound, key, _⟩ := grounded.request_of_copy member held
    obtain ⟨later, laterFound, _⟩ :=
      carries.request requestId owner ownerFound
    rw [key]
    exact ⟨later, laterFound, trivial⟩

theorem Confirmed.initial : Confirmed State.initial := by
  intro call member
  cases member

end FleetPrivacy
