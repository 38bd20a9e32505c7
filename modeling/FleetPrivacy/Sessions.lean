import FleetPrivacy.Tables

/-!
# What the sessions hold

Every copy in a session was loaded from a committed row or written together
with it.  `Session.Copies` relates the copies to the rows as they are now; the
effect of one action on such a relation is argued once, for all relations.
The second part is the lock of a request row, which has one holder.
-/

namespace FleetPrivacy

open Transition

/-- Copies and committed rows are related, by primary key. -/
structure Session.Copies (ofTask : RequestTask → RequestTask → Prop)
    (ofRequest : PrivacyRequest → PrivacyRequest → Prop) (session : Session)
    (database : Database) : Prop where
  task : ∀ taskId copy, session.task taskId = some copy →
    ∃ row, database.task taskId = some row ∧ ofTask copy row
  request : ∀ requestId copy, session.request requestId = some copy →
    ∃ row, database.request requestId = some row ∧ ofRequest copy row

section Copies

variable {ofTask ofTask' : RequestTask → RequestTask → Prop}
  {ofRequest ofRequest' : PrivacyRequest → PrivacyRequest → Prop}
  {session : Session} {database : Database}

namespace Session

theorem copies_empty (database : Database) :
    Session.empty.Copies ofTask ofRequest database := by
  constructor
  · intro taskId copy held
    cases held
  · intro requestId copy held
    cases held

theorem Copies.loadTasks (copies : session.Copies ofTask ofRequest database)
    (reflexive : ∀ row, ofTask row row) (formed : database.WellFormed)
    {rows : List RequestTask} (stored : ∀ row ∈ rows, row ∈ database.tasks) :
    (session.loadTasks rows).Copies ofTask ofRequest database := by
  refine ⟨?_, copies.request⟩
  intro taskId copy held
  rcases Option.or_eq_some_iff.mp held with kept | ⟨_, fresh⟩
  · exact copies.task taskId copy kept
  · obtain ⟨member, same⟩ := Table.get_mem fresh
    refine ⟨copy, ?_, reflexive copy⟩
    rw [← same]
    exact formed.task_eq (stored copy member)

theorem Copies.loadRequests (copies : session.Copies ofTask ofRequest database)
    (reflexive : ∀ row, ofRequest row row) (formed : database.WellFormed)
    {rows : List PrivacyRequest}
    (stored : ∀ row ∈ rows, row ∈ database.requests) :
    (session.loadRequests rows).Copies ofTask ofRequest database := by
  refine ⟨copies.task, ?_⟩
  intro requestId copy held
  rcases Option.or_eq_some_iff.mp held with kept | ⟨_, fresh⟩
  · exact copies.request requestId copy kept
  · obtain ⟨member, same⟩ := Table.get_mem fresh
    refine ⟨copy, ?_, reflexive copy⟩
    rw [← same]
    exact formed.request_eq (stored copy member)

theorem Copies.loadRefresh (copies : session.Copies ofTask ofRequest database)
    (taskReflexive : ∀ row, ofTask row row)
    (requestReflexive : ∀ row, ofRequest row row)
    (formed : database.WellFormed) (requestId : String) :
    (session.loadRefresh database requestId).Copies ofTask ofRequest
      database := by
  have requests := copies.loadRequests requestReflexive formed
    (fun row member => (List.mem_filter.mp member).1 : ∀ row ∈
      database.requests.filter fun request =>
        decide (request.id = requestId), row ∈ database.requests)
  have tasks := requests.loadTasks taskReflexive formed
    (fun row member => (Database.mem_tasksOf.mp member).1 : ∀ row ∈
      database.tasksOf requestId, row ∈ database.tasks)
  exact ⟨tasks.task, tasks.request⟩

theorem Copies.putTask (copies : session.Copies ofTask ofRequest database)
    {copy : RequestTask} (related : ∃ row, database.task copy.id = some row ∧
      ofTask copy row) :
    (session.putTask copy).Copies ofTask ofRequest database := by
  refine ⟨?_, copies.request⟩
  intro taskId other held
  by_cases own : taskId = copy.id
  · simp only [Session.putTask, own, if_true, Option.some.injEq] at held
    rw [own, ← held]
    exact related
  · simp only [Session.putTask, own, if_false] at held
    exact copies.task taskId other held

theorem Copies.putRequest (copies : session.Copies ofTask ofRequest database)
    {copy : PrivacyRequest}
    (related : ∃ row, database.request copy.id = some row ∧
      ofRequest copy row) :
    (session.putRequest copy).Copies ofTask ofRequest database := by
  refine ⟨copies.task, ?_⟩
  intro requestId other held
  by_cases own : requestId = copy.id
  · simp only [Session.putRequest, own, if_true, Option.some.injEq] at held
    rw [own, ← held]
    exact related
  · simp only [Session.putRequest, own, if_false] at held
    exact copies.request requestId other held

end Session

/-- Rows stay, and what was related to a row is related to it afterwards. -/
structure Database.Carries (ofTask ofTask' : RequestTask → RequestTask → Prop)
    (ofRequest ofRequest' : PrivacyRequest → PrivacyRequest → Prop)
    (before after : Database) : Prop where
  task : ∀ taskId row, before.task taskId = some row →
    ∃ next, after.task taskId = some next ∧
      ∀ copy, ofTask copy row → ofTask' copy next
  request : ∀ requestId row, before.request requestId = some row →
    ∃ next, after.request requestId = some next ∧
      ∀ copy, ofRequest copy row → ofRequest' copy next

theorem Session.Copies.carried {before after : Database}
    (copies : session.Copies ofTask ofRequest before)
    (carries : Database.Carries ofTask ofTask' ofRequest ofRequest' before
      after) :
    session.Copies ofTask' ofRequest' after := by
  constructor
  · intro taskId copy held
    obtain ⟨row, found, related⟩ := copies.task taskId copy held
    obtain ⟨next, nextFound, kept⟩ := carries.task taskId row found
    exact ⟨next, nextFound, kept copy related⟩
  · intro requestId copy held
    obtain ⟨row, found, related⟩ := copies.request requestId copy held
    obtain ⟨next, nextFound, kept⟩ := carries.request requestId row found
    exact ⟨next, nextFound, kept copy related⟩

theorem Database.Revises.carries {before after : Database}
    {task : RequestTask → RequestTask}
    {request : PrivacyRequest → PrivacyRequest}
    (revises : Database.Revises before after task request)
    (tasks : ∀ row ∈ before.tasks, ∀ copy, ofTask copy row →
      ofTask' copy (task row))
    (requests : ∀ row ∈ before.requests, ∀ copy, ofRequest copy row →
      ofRequest' copy (request row)) :
    Database.Carries ofTask ofTask' ofRequest ofRequest' before after := by
  constructor
  · intro taskId row found
    refine ⟨task row, ?_, tasks row (Database.task_mem found).1⟩
    rw [revises.task_eq, found]
    rfl
  · intro requestId row found
    refine ⟨request row, ?_, requests row (Database.request_mem found).1⟩
    rw [revises.request_eq, found]
    rfl

theorem Database.carries_insertRows {intake : Intake} {runtime : Runtime}
    {before : Database}
    (tasks : ∀ copy row, ofTask copy row → ofTask' copy row)
    (requests : ∀ copy row, ofRequest copy row → ofRequest' copy row) :
    Database.Carries ofTask ofTask' ofRequest ofRequest' before
      (intake.insertRows runtime before) := by
  constructor
  · intro taskId row found
    refine ⟨row, ?_, fun copy => tasks copy row⟩
    rw [Database.insertRows_task, found]
    rfl
  · intro requestId row found
    refine ⟨row, ?_, fun copy => requests copy row⟩
    rw [Database.insertRows_request, found]
    rfl

variable (ofTask' ofRequest') in
/-- What a call writes stays related to its row: the settled task and the
verified request of an outcome, the request of a refresh. -/
structure Effect.Writes (deployment : Deployment) (state : State)
    (action : Action) (after : Database) : Prop where
  settled : ∀ index now call taskId work task request,
    action = .recordTask index now →
    state.calls[index]? = some call →
    call.phase = .worked taskId work →
    call.session.task taskId = some task →
    call.session.request task.requestId = some request →
    (∃ row, after.task task.id = some row ∧ ofTask'
        (task.settle deployment.settings call.executor work.ending) row) ∧
      ∃ row, after.request request.id = some row ∧
        ofRequest' request.verify row
  refreshed : ∀ index noticeId now call requestId own reference request,
    action = .refreshCommit index noticeId now →
    state.calls[index]? = some call →
    call.phase = .refreshing requestId own reference →
    call.session.request requestId = some request →
    (request.needsArtifact (call.session.derivedStatus requestId) = true →
      reference.isSome = true) →
    ∃ row, after.request request.id = some row ∧ ofRequest'
      (request.refresh (call.session.derivedStatus requestId) reference) row

/-- One action keeps every relation that its row changes and its own writes
keep. -/
theorem Effect.copies {deployment : Deployment} {state next : State}
    {action : Action} (effect : Effect deployment state action next)
    (tidy : state.Tidy) (taskReflexive : ∀ row, ofTask' row row)
    (requestReflexive : ∀ row, ofRequest' row row)
    (carries : Database.Carries ofTask ofTask' ofRequest ofRequest'
      state.database next.database)
    (writes : Effect.Writes ofTask' ofRequest' deployment state action
      next.database)
    (before : ∀ call ∈ state.calls,
      call.session.Copies ofTask ofRequest state.database) :
    ∀ call ∈ next.calls,
      call.session.Copies ofTask' ofRequest' next.database := by
  have formed := effect.wellFormed tidy.tables
  have kept : ∀ call ∈ state.calls,
      call.session.Copies ofTask' ofRequest' next.database :=
    fun call member => (before call member).carried carries
  have replaced : ∀ {index : Nat} {new : Call},
      new.session.Copies ofTask' ofRequest' next.database →
      ∀ call ∈ (state.put index new).calls,
        call.session.Copies ofTask' ofRequest' next.database := by
    intro index new related call member
    rcases State.mem_put member with isNew | old
    · rw [isNew]
      exact related
    · exact kept call old
  cases effect with
  | created | relayed | extended => exact kept
  | opened =>
      intro call member
      rcases State.mem_append_call member with isNew | old
      · rw [isNew]
        exact Session.copies_empty _
      · exact kept call old
  | moved action index call after artifacts found move =>
      apply replaced
      rcases move.frame with closed | ⟨same, _⟩
      · rw [closed]
        exact Session.copies_empty _
      · rw [same]
        exact kept call (List.mem_of_getElem? found)
  | messageClaimed => exact replaced (Session.copies_empty _)
  | batchClaimed arguments session taskIds selected claims copies requests =>
      intro call member
      rcases State.mem_append_call member with isNew | old
      · rw [isNew]
        constructor
        · intro taskId copy held
          obtain ⟨row, inTable, same, taken, isCopy⟩ := copies taskId copy held
          refine ⟨copy, ?_, taskReflexive copy⟩
          have hit : decide (row.id ∈ taskIds) = true :=
            decide_eq_true (same ▸ taken)
          rw [(Database.markClaimed_revises ..).task_eq, ← same,
            tidy.tables.task_eq inTable, isCopy]
          exact congrArg some (if_pos hit)
        · intro requestId copy held
          dsimp only at held
          rw [requests] at held
          cases held
      · exact kept call old
  | selected index call taskId todo row found phase rest member =>
      apply replaced
      have tasks := (kept call (List.mem_of_getElem? found)).loadTasks
        taskReflexive formed (by simpa using member : ∀ other ∈ [row],
          other ∈ state.database.tasks)
      exact tasks.loadRequests requestReflexive formed
        (fun other inFilter => (List.mem_filter.mp inFilter).1)
  | recorded index call taskId work task request now found phase held
      requestHeld =>
      apply replaced
      obtain ⟨settled, verified⟩ := writes.settled index now call taskId work
        task request rfl found phase held requestHeld
      unfold Call.afterRecord
      split
      next => exact Session.copies_empty _
      next =>
        have related := kept call (List.mem_of_getElem? found)
        apply Session.Copies.putRequest
        · apply related.putTask
          rw [RequestTask.settle_id]
          exact settled
        · rw [PrivacyRequest.verify_id]
          exact verified
  | locked index call requestId own session found target =>
      apply replaced
      apply Session.Copies.loadRefresh _ taskReflexive requestReflexive formed
      cases target with
      | recorded => exact kept call (List.mem_of_getElem? found)
      | duplicate => exact Session.copies_empty _
  | refreshed index call requestId own reference request noticeId now found
      phase held uploaded =>
      apply replaced
      apply (kept call (List.mem_of_getElem? found)).putRequest
      rw [PrivacyRequest.refresh_id]
      exact writes.refreshed index noticeId now call requestId own reference
        request rfl found phase held uploaded
  | acked => exact replaced (Session.copies_empty _)

end Copies

/-! ## Columns that never change -/

def RequestTask.identity (task : RequestTask) :
    String × String × String × String :=
  (task.id, task.requestId, task.tenantId, task.source)

def PrivacyRequest.identity (request : PrivacyRequest) :
    String × String × String × RequestKind × List String :=
  (request.id, request.tenantId, request.subjectKeyHash, request.kind,
    request.requestedSources)

@[simp] theorem PrivacyRequest.verify_identity (request : PrivacyRequest) :
    request.verify.identity = request.identity := by
  unfold PrivacyRequest.verify
  split
  next => rfl
  next => rfl

/-- The changes of a request that are not those of a refresh: it does not become
terminal, and keeps its artifact path and version. -/
structure PrivacyRequest.Keeps (before after : PrivacyRequest) : Prop where
  identity : after.identity = before.identity
  path : after.artifactPath = before.artifactPath
  version : after.version = before.version
  status : after.status = before.status ∨ ¬ after.status.Terminal

theorem PrivacyRequest.Keeps.open_ {before after : PrivacyRequest}
    (keeps : before.Keeps after) (terminal : after.status.Terminal) :
    before.status.Terminal := by
  rcases keeps.status with same | open_
  · rw [← same]
    exact terminal
  · exact absurd terminal open_

namespace Database

theorem claimRow_identity (taskIds : List String) (workerId : String)
    (leaseUntil : Time) (row : RequestTask) :
    (claimRow taskIds workerId leaseUntil row).identity = row.identity := by
  unfold claimRow
  split
  next => rfl
  next => rfl

theorem recordRow_identity (settings : Settings) (executor : Bool)
    (ending : Ending) (task row : RequestTask) :
    (recordRow settings executor ending task row).identity = row.identity := by
  unfold recordRow
  split
  next => rfl
  next => rfl

theorem extendRow_identity (workerId taskId : String) (leaseUntil : Time)
    (row : RequestTask) :
    (extendRow workerId taskId leaseUntil row).identity = row.identity := by
  unfold extendRow
  split
  next => rfl
  next => rfl

theorem startRow_keeps (requestIds : List String) (now : Time)
    (row : PrivacyRequest) : row.Keeps (startRow requestIds now row) := by
  unfold startRow
  split
  next => exact ⟨rfl, rfl, rfl, .inr id⟩
  next => exact ⟨rfl, rfl, rfl, .inl rfl⟩

theorem verifyRow_keeps (request : PrivacyRequest) (now : Time)
    (row : PrivacyRequest) : row.Keeps (verifyRow request now row) := by
  unfold verifyRow
  split
  next =>
    unfold PrivacyRequest.verify
    cases request.kind with
    | access =>
        exact ⟨rfl, flushColumn_unchanged _ _, flushColumn_unchanged _ _,
          .inl (flushColumn_unchanged _ _)⟩
    | delete =>
        refine ⟨rfl, flushColumn_unchanged _ _, flushColumn_unchanged _ _, ?_⟩
        simp only [PrivacyRequest.flush, flushColumn]
        split
        next => exact .inl rfl
        next => exact .inr id
  next => exact ⟨rfl, rfl, rfl, .inl rfl⟩

theorem refreshRow_identity (request : PrivacyRequest) (status : RequestStatus)
    (reference : Option String) (now : Time) (row : PrivacyRequest) :
    (refreshRow request status reference now row).identity = row.identity := by
  unfold refreshRow
  split
  next => rfl
  next => rfl

theorem refreshRow_path {request : PrivacyRequest} {status : RequestStatus}
    {reference : Option String}
    (uploaded : request.needsArtifact status = true → reference.isSome = true)
    (now : Time) {row : PrivacyRequest} (path : row.artifactPath ≠ none) :
    (refreshRow request status reference now row).artifactPath ≠ none := by
  unfold refreshRow
  split
  next => exact PrivacyRequest.path_flush_refresh uploaded path now
  next => exact path

end Database

/-- Rows are revised in place, with their identity, or added by an intake. -/
theorem Effect.revision {deployment : Deployment} {state next : State}
    {action : Action} (effect : Effect deployment state action next) :
    (∃ intake : Intake, action = .create intake ∧
        state.database.unused intake.drawnIds = true ∧
        next.database =
          intake.insertRows deployment.runtime state.database) ∨
      ∃ task request,
        Database.Revises state.database next.database task request ∧
        (∀ row, (task row).identity = row.identity) ∧
        (∀ row, (request row).identity = row.identity) ∧
        ((∀ index noticeId now, action ≠ .refreshCommit index noticeId now) →
          ∀ row : PrivacyRequest, row.Keeps (request row)) := by
  cases effect with
  | created intake nodup fresh absent => exact .inl ⟨intake, rfl, fresh, rfl⟩
  | relayed | opened | moved | selected | locked | acked =>
      exact .inr ⟨_, _, Database.revises_refl _ _, fun _ => rfl, fun _ => rfl,
        fun _ _ => ⟨rfl, rfl, rfl, .inl rfl⟩⟩
  | messageClaimed | batchClaimed =>
      exact .inr ⟨_, _, Database.markClaimed_revises ..,
        Database.claimRow_identity _ _ _,
        fun row => (Database.startRow_keeps _ _ row).identity,
        fun _ => Database.startRow_keeps _ _⟩
  | recorded =>
      exact .inr ⟨_, _, Database.recordOutcome_revises ..,
        Database.recordRow_identity _ _ _ _,
        fun row => (Database.verifyRow_keeps _ _ row).identity,
        fun _ => Database.verifyRow_keeps _ _⟩
  | refreshed index call requestId own reference request noticeId now =>
      exact .inr ⟨_, _, Database.commitRefresh_revises .., fun _ => rfl,
        Database.refreshRow_identity _ _ _ _,
        fun other => absurd rfl (other index noticeId now)⟩
  | extended =>
      exact .inr ⟨_, _, Database.extendTaskLease_revises ..,
        Database.extendRow_identity _ _ _, fun _ => rfl,
        fun _ _ => ⟨rfl, rfl, rfl, .inl rfl⟩⟩

/-- The commit of a refresh, with the call that makes it. -/
theorem Effect.of_refreshCommit {deployment : Deployment} {state next : State}
    {index : Nat} {noticeId : String} {now : Time}
    (effect : Effect deployment state (.refreshCommit index noticeId now)
      next) :
    ∃ call requestId own reference request,
      state.calls[index]? = some call ∧
      call.phase = .refreshing requestId own reference ∧
      call.session.request requestId = some request ∧
      (request.needsArtifact (call.session.derivedStatus requestId) = true →
        reference.isSome = true) ∧
      state.database.unused [noticeId] = true ∧
      next = { (state.put index { call with
          session := call.session.putRequest (request.refresh
            (call.session.derivedStatus requestId) reference)
          phase := call.resume (call.refreshResult own) }) with
        database := commitRefresh deployment.runtime call.session request
          reference noticeId now state.database } := by
  generalize isRefresh : Action.refreshCommit index noticeId now = action at effect
  cases effect with
  | refreshed slot call requestId own reference request notice time found phase
      held uploaded fresh =>
      cases isRefresh
      exact ⟨call, requestId, own, reference, request, found, phase, held,
        uploaded, fresh, rfl⟩
  | relayed action relays extra outbox move => cases move <;> cases isRefresh
  | moved action slot call after artifacts found move =>
      cases move <;> cases isRefresh
  | _ => cases isRefresh

/-- The commit of an outcome, with the call that makes it. -/
theorem Effect.of_recordTask {deployment : Deployment} {state next : State}
    {index : Nat} {now : Time}
    (effect : Effect deployment state (.recordTask index now) next) :
    ∃ call taskId work task request,
      state.calls[index]? = some call ∧
      call.phase = .worked taskId work ∧
      call.session.task taskId = some task ∧
      call.session.request task.requestId = some request ∧
      next = { (state.put index
          (call.afterRecord deployment taskId work task request)) with
        database := recordOutcome deployment.runtime deployment.settings
          call.executor work task request now state.database } := by
  generalize isRecord : Action.recordTask index now = action at effect
  cases effect with
  | recorded slot call taskId work task request time found phase held
      requestHeld free =>
      cases isRecord
      exact ⟨call, taskId, work, task, request, found, phase, held,
        requestHeld, rfl⟩
  | relayed action relays extra outbox move => cases move <;> cases isRecord
  | moved action slot call after artifacts found move =>
      cases move <;> cases isRecord
  | _ => cases isRecord

/-! ## Row locks -/

/-- The lock of a request row has one holder. -/
def State.Exclusive (state : State) : Prop :=
  ∀ (first second : Nat) (left right : Call) (requestId : String),
    state.calls[first]? = some left → state.calls[second]? = some right →
    left.phase.refreshes requestId = true →
    right.phase.refreshes requestId = true → first = second

theorem State.exclusive_initial : State.initial.Exclusive := by
  intro first second left right requestId found
  cases found

theorem Phase.refreshes_iff {phase : Phase} {requestId : String} :
    phase.refreshes requestId = true ↔
      ∃ own reference, phase = .refreshing requestId own reference := by
  cases phase with
  | refreshing lockedId own reference => simp [Phase.refreshes]
  | _ => simp [Phase.refreshes]

/-- Another slot that holds a row lock holds that of another row. -/
theorem State.Exclusive.elsewhere {state : State} (exclusive : state.Exclusive)
    {index other : Nat} {call current : Call} {requestId lockedId : String}
    {own reference : Option String}
    (found : state.calls[index]? = some call)
    (phase : call.phase = .refreshing requestId own reference)
    (away : other ≠ index) (located : state.calls[other]? = some current)
    (locks : current.phase.refreshes lockedId = true) :
    lockedId ≠ requestId := by
  rintro rfl
  apply away
  exact exclusive other index current call lockedId located found locks
    (Phase.refreshes_iff.mpr ⟨own, reference, phase⟩)

/-- One slot is written; its new call takes no lock that another one holds. -/
theorem State.Exclusive.replace {state next : State}
    (exclusive : state.Exclusive) (index : Nat) (call : Call)
    (calls : ∀ (other : Nat) (current : Call),
      next.calls[other]? = some current →
      other = index ∧ current = call ∨
        other ≠ index ∧ state.calls[other]? = some current)
    (lock : ∀ requestId, call.phase.refreshes requestId = true →
      ∀ (other : Nat) (current : Call), other ≠ index →
        state.calls[other]? = some current →
        current.phase.refreshes requestId = false) : next.Exclusive := by
  intro first second left right requestId leftFound rightFound leftLocks
    rightLocks
  rcases calls first left leftFound with ⟨isFirst, new⟩ | ⟨notFirst, old⟩
  · rcases calls second right rightFound with
      ⟨isSecond, _⟩ | ⟨notSecond, rightOld⟩
    · exact isFirst.trans isSecond.symm
    · rw [new] at leftLocks
      have free := lock requestId leftLocks second right notSecond rightOld
      rw [rightLocks] at free
      cases free
  · rcases calls second right rightFound with ⟨_, new⟩ | ⟨_, rightOld⟩
    · rw [new] at rightLocks
      have free := lock requestId rightLocks first left notFirst old
      rw [leftLocks] at free
      cases free
    · exact exclusive first second left right requestId old rightOld
        leftLocks rightLocks

theorem State.Exclusive.replace_unlocked {state next : State}
    (exclusive : state.Exclusive) (index : Nat) (call : Call)
    (calls : ∀ (other : Nat) (current : Call),
      next.calls[other]? = some current →
      other = index ∧ current = call ∨
        other ≠ index ∧ state.calls[other]? = some current)
    (unlocked : ∀ requestId, call.phase.refreshes requestId = false) :
    next.Exclusive := by
  apply exclusive.replace index call calls
  intro requestId locks
  rw [unlocked] at locks
  cases locks

/-- On PostgreSQL no action gives a held lock away. -/
theorem State.Exclusive.step {deployment : Deployment} {state next : State}
    {action : Action} (exclusive : state.Exclusive)
    (postgresql : deployment.dialect = .postgresql)
    (effect : Effect deployment state action next) : next.Exclusive := by
  cases effect with
  | created | relayed | extended => exact exclusive
  | opened | batchClaimed =>
      exact exclusive.replace_unlocked state.calls.length _
        (fun other current => State.append_cases) (fun _ => rfl)
  | messageClaimed index call taskId now found
  | selected index call taskId todo row found
  | acked index call slot message found =>
      exact exclusive.replace_unlocked index _
        (fun other current => State.put_cases found) (fun _ => rfl)
  | moved action index call after artifacts found move =>
      apply exclusive.replace index after
        (fun other current => State.put_cases found)
      intro requestId locks other current different otherFound
      obtain ⟨own, reference, phase⟩ := Phase.refreshes_iff.mp locks
      obtain ⟨before, _⟩ := move.refreshing phase
      rw [Bool.eq_false_iff]
      intro busy
      apply different
      apply exclusive other index current call requestId otherFound found busy
      exact Phase.refreshes_iff.mpr ⟨own, none, before⟩
  | recorded index call taskId work task request now found =>
      apply exclusive.replace_unlocked index _
        (fun other current => State.put_cases found)
      intro requestId
      unfold Call.afterRecord
      split
      next => rfl
      next => rfl
  | locked index call requestId own session found target free =>
      apply exclusive.replace index _
        (fun other current => State.put_cases found)
      intro lockedId locks other current _ otherFound
      have same : requestId = lockedId := of_decide_eq_true locks
      rw [← same]
      exact State.unlocked_of_rowFree postgresql free current
        (List.mem_of_getElem? otherFound)
  | refreshed index call requestId own reference request noticeId now found =>
      exact exclusive.replace_unlocked index _
        (fun other current => State.put_cases found)
        (call.refreshes_resume _)

/-- A call that holds a row lock held it before, with the same session, or has
just been granted it. -/
theorem Effect.refreshing {deployment : Deployment} {state next : State}
    {action : Action} (effect : Effect deployment state action next)
    {slot : Nat} {call : Call} {requestId : String}
    {own reference : Option String} (located : next.calls[slot]? = some call)
    (phase : call.phase = .refreshing requestId own reference) :
    (∃ old before, state.calls[slot]? = some old ∧
        old.phase = .refreshing requestId own before ∧
        old.session = call.session ∧
        ∀ noticeId now, action ≠ .refreshCommit slot noticeId now) ∨
      ∃ old session, action = .refreshSelect slot ∧
        state.calls[slot]? = some old ∧
        old.RefreshTarget state.database requestId own session ∧
        call.session = session.loadRefresh state.database requestId ∧
        next.database = state.database := by
  have resumed : ∀ {old : Call} {result : Bool},
      old.resume result ≠ .refreshing requestId own reference := by
    intro old result same
    have free := old.refreshes_resume result requestId
    rw [same] at free
    simp [Phase.refreshes] at free
  cases effect with
  | created | extended =>
      exact .inl ⟨call, reference, located, phase, rfl, by simp⟩
  | relayed action relays extra outbox move =>
      refine .inl ⟨call, reference, located, phase, rfl, ?_⟩
      intro noticeId now isRefresh
      cases move <;> cases isRefresh
  | opened | batchClaimed =>
      rcases State.append_cases located with ⟨_, new⟩ | ⟨_, old⟩
      · rw [new] at phase
        cases phase
      · exact .inl ⟨call, reference, old, phase, rfl, by simp⟩
  | messageClaimed index old taskId now found
  | selected index old taskId todo row found
  | acked index old position message found =>
      rcases State.put_cases found located with ⟨_, new⟩ | ⟨_, kept⟩
      · rw [new] at phase
        cases phase
      · exact .inl ⟨call, reference, kept, phase, rfl, by simp⟩
  | moved action index old after artifacts found move =>
      have notRefresh : ∀ noticeId now,
          action ≠ .refreshCommit slot noticeId now := by
        intro noticeId now isRefresh
        cases move <;> cases isRefresh
      rcases State.put_cases found located with ⟨isIndex, new⟩ | ⟨_, kept⟩
      · rw [new] at phase
        obtain ⟨before, shape⟩ := move.refreshing phase
        refine .inl ⟨old, none, isIndex ▸ found, before, ?_, notRefresh⟩
        rw [new, shape]
      · exact .inl ⟨call, reference, kept, phase, rfl, notRefresh⟩
  | recorded index old taskId work task request now found =>
      rcases State.put_cases found located with ⟨_, new⟩ | ⟨_, kept⟩
      · rw [new] at phase
        exact absurd phase (old.afterRecord_ne_refreshing deployment taskId
          work task request requestId own _)
      · exact .inl ⟨call, reference, kept, phase, rfl, by simp⟩
  | locked index old lockedId lockedOwn session found target free =>
      rcases State.put_cases found located with ⟨isIndex, new⟩ | ⟨_, kept⟩
      · rw [new] at phase
        cases phase
        refine .inr ⟨old, session, isIndex ▸ rfl, isIndex ▸ found, target, ?_,
          rfl⟩
        rw [new]
      · exact .inl ⟨call, reference, kept, phase, rfl, by simp⟩
  | refreshed index old lockedId lockedOwn uploadedTo request noticeId now
      found =>
      rcases State.put_cases found located with ⟨_, new⟩ | ⟨away, kept⟩
      · rw [new] at phase
        exact absurd phase resumed
      · refine .inl ⟨call, reference, kept, phase, rfl, ?_⟩
        intro noticeId now same
        cases same
        exact away rfl

/-! ## Work in hand -/

/-- A call with a task in hand had it before, unless it has just selected it or
just finished its source work. -/
theorem Effect.working {deployment : Deployment} {state next : State}
    {action : Action} (effect : Effect deployment state action next)
    {slot : Nat} {call : Call} {taskId : String}
    (located : next.calls[slot]? = some call)
    (busy : call.current = some taskId) :
    state.calls[slot]? = some call ∨
      (∃ old row todo, action = .selectTask slot ∧
        state.calls[slot]? = some old ∧ old.phase = .ready ∧
        old.todo = taskId :: todo ∧ row ∈ state.database.tasks ∧
        row.id = taskId ∧ row.leasedBy old.workerId = true ∧
        call = { old with
          session := (old.session.loadTasks [row]).loadRequests
            (state.database.requests.filter fun request =>
              decide (request.id = row.requestId))
          todo
          phase := .working taskId }) ∨
      ∃ old work, action = .work slot work ∧ state.calls[slot]? = some old ∧
        old.phase = .working taskId ∧
        call = { old with phase := .worked taskId work } := by
  have idle : ∀ {old : Call} {result : Bool} {session : Session}
      {todo : List String},
      call ≠ { old with session, todo, phase := old.resume result } := by
    intro old result session todo same
    rw [same, old.current_resume] at busy
    cases busy
  cases effect with
  | created | relayed | extended => exact .inl located
  | opened | batchClaimed =>
      rcases State.append_cases located with ⟨_, new⟩ | ⟨_, kept⟩
      · rw [new] at busy
        cases busy
      · exact .inl kept
  | messageClaimed index old _ _ found
  | locked index old _ _ _ found
  | acked index old _ _ found =>
      rcases State.put_cases found located with ⟨_, new⟩ | ⟨_, kept⟩
      · rw [new] at busy
        cases busy
      · exact .inl kept
  | moved action index old after artifacts found move =>
      rcases State.put_cases found located with ⟨isIndex, new⟩ | ⟨_, kept⟩
      · subst isIndex
        rw [new] at busy ⊢
        cases move with
        | worked workedId work phase =>
            have same : workedId = taskId := Option.some.inj busy
            subst same
            exact .inr (.inr ⟨old, work, rfl, found, phase, rfl⟩)
        | skipped => exact absurd new idle
        | _ => cases busy
      · exact .inl kept
  | selected index old selectedId todo row found phase rest member same
      leased =>
      rcases State.put_cases found located with ⟨isIndex, new⟩ | ⟨_, kept⟩
      · subst isIndex
        rw [new] at busy
        have isTask : selectedId = taskId := Option.some.inj busy
        subst isTask
        exact .inr (.inl ⟨old, row, todo, rfl, found, phase, rest, member, same,
          leased, new⟩)
      · exact .inl kept
  | recorded index old workedId work task request now found =>
      rcases State.put_cases found located with ⟨_, new⟩ | ⟨_, kept⟩
      · rw [new] at busy
        unfold Call.afterRecord at busy
        split at busy
        next => cases busy
        next => cases busy
      · exact .inl kept
  | refreshed index old lockedId own reference request noticeId now found =>
      rcases State.put_cases found located with ⟨_, new⟩ | ⟨_, kept⟩
      · exact absurd new idle
      · exact .inl kept

/-- Only the commit of an outcome writes the device records. -/
theorem Effect.records {deployment : Deployment} {state next : State}
    {action : Action} (effect : Effect deployment state action next)
    (other : ∀ index now, action ≠ .recordTask index now) :
    next.database.records = state.database.records := by
  cases effect with
  | recorded index call taskId work task request now =>
      exact absurd rfl (other index now)
  | refreshed =>
      dsimp only [commitRefresh]
      split
      next => rfl
      next => rfl
  | _ => rfl

/-! ## Grounded states -/

def RequestTask.Shows (copy row : RequestTask) : Prop :=
  copy.identity = row.identity

/-- The copy shows the row's identity, and no artifact that the row does not
have. -/
def PrivacyRequest.Shows (copy row : PrivacyRequest) : Prop :=
  copy.identity = row.identity ∧
    (copy.artifactPath ≠ none → row.artifactPath ≠ none)

/-- What holds of sessions and artifact paths in every reachable state without
any condition. -/
structure State.Grounded (state : State) : Prop where
  tidy : state.Tidy
  copies : ∀ call ∈ state.calls, call.session.Copies RequestTask.Shows
    PrivacyRequest.Shows state.database
  /-- A completed access request has an artifact path. -/
  paths : ∀ row ∈ state.database.requests, row.kind = .access →
    (row.status = .completed ∨ row.status = .partially) →
    row.artifactPath ≠ none

namespace State.Grounded

variable {deployment : Deployment} {state next : State}

theorem request_of_copy (grounded : state.Grounded) {call : Call}
    (member : call ∈ state.calls) {requestId : String}
    {copy : PrivacyRequest}
    (held : call.session.request requestId = some copy) :
    ∃ row, state.database.request requestId = some row ∧ copy.id = requestId ∧
      copy.Shows row := by
  obtain ⟨row, found, shows⟩ :=
    (grounded.copies call member).request requestId copy held
  have key := congrArg Prod.fst shows.1
  exact ⟨row, found, key.trans (Database.request_mem found).2, shows⟩

/-- What the refreshed copy shows, the refreshed row has. -/
theorem shows_refresh {request row : PrivacyRequest} {status : RequestStatus}
    {reference : Option String} (shows : request.Shows row) (now : Time) :
    (request.refresh status reference).Shows
      (request.flush (request.refresh status reference) row now) :=
  ⟨shows.1, fun path => PrivacyRequest.path_flush shows.2 path now⟩

/-- Related copies stay related under every action. -/
theorem carries (grounded : state.Grounded) {action : Action}
    (effect : Effect deployment state action next) :
    Database.Carries RequestTask.Shows RequestTask.Shows PrivacyRequest.Shows
      PrivacyRequest.Shows state.database next.database := by
  by_cases refresh : ∃ index noticeId now,
      action = .refreshCommit index noticeId now
  · obtain ⟨index, noticeId, now, isRefresh⟩ := refresh
    subst isRefresh
    obtain ⟨call, requestId, own, reference, request, found, _, held, uploaded,
      _, rfl⟩ := effect.of_refreshCommit
    obtain ⟨_, _, key, _⟩ := grounded.request_of_copy
      (List.mem_of_getElem? found) held
    apply (Database.commitRefresh_revises ..).carries
    · intro row _ copy related
      exact related
    · intro row _ copy shows
      refine ⟨shows.1.trans (Database.refreshRow_identity ..).symm, ?_⟩
      intro present
      rw [key]
      exact Database.refreshRow_path uploaded now (shows.2 present)
  · rcases effect.revision with
      ⟨intake, _, _, inserted⟩ | ⟨task, request, revises, tasks, _, keeps⟩
    · rw [inserted]
      exact Database.carries_insertRows (fun _ _ => id) (fun _ _ => id)
    · apply revises.carries
      · intro row _ copy related
        exact related.trans (tasks row).symm
      · intro row _ copy shows
        have kept := keeps (fun index noticeId now isRefresh =>
          refresh ⟨index, noticeId, now, isRefresh⟩) row
        refine ⟨shows.1.trans kept.identity.symm, ?_⟩
        rw [kept.path]
        exact shows.2

theorem paths_step (grounded : state.Grounded) {action : Action}
    (effect : Effect deployment state action next) :
    ∀ row ∈ next.database.requests, row.kind = .access →
      (row.status = .completed ∨ row.status = .partially) →
      row.artifactPath ≠ none := by
  by_cases refresh : ∃ index noticeId now,
      action = .refreshCommit index noticeId now
  · obtain ⟨index, noticeId, now, isRefresh⟩ := refresh
    subst isRefresh
    obtain ⟨call, requestId, own, reference, request, found, _, held, uploaded,
      _, rfl⟩ := effect.of_refreshCommit
    obtain ⟨owner, ownerFound, key, shows⟩ := grounded.request_of_copy
      (List.mem_of_getElem? found) held
    intro row member
    dsimp only at member
    rw [Database.commitRefresh_requests] at member
    obtain ⟨old, oldMember, rfl⟩ := List.mem_map.mp member
    by_cases hit : old.id = request.id
    · have isOwner : old = owner :=
        grounded.tidy.tables.requestIds.eq_of_mem oldMember
          (Database.request_mem ownerFound).1
          ((hit.trans key).trans (Database.request_mem ownerFound).2.symm)
      rw [isOwner] at hit ⊢
      rw [Database.refreshRow, if_pos (decide_eq_true hit), key]
      intro access status
      have kind : request.kind = owner.kind :=
        congrArg (fun columns => columns.2.2.2.1) shows.1
      exact PrivacyRequest.path_flush_finished kind shows.2 uploaded
        (grounded.paths owner (Database.request_mem ownerFound).1) access
        status
    · rw [Database.refreshRow, if_neg (by simpa using hit)]
      exact grounded.paths old oldMember
  · intro row member access status
    rcases effect.revision with
      ⟨intake, _, _, inserted⟩ | ⟨task, request, revises, _, _, keeps⟩
    · rw [inserted] at member
      rcases List.mem_append.mp member with old | new
      · exact grounded.paths row old access status
      · rw [List.mem_singleton.mp new] at status
        exact absurd (RequestStatus.terminal_of_finished status) id
    · rw [revises.requests] at member
      obtain ⟨old, oldMember, rfl⟩ := List.mem_map.mp member
      have kept := keeps (fun index noticeId now isRefresh =>
        refresh ⟨index, noticeId, now, isRefresh⟩) old
      rcases kept.status with same | open_
      · rw [kept.path]
        apply grounded.paths old oldMember
        · rw [← access]
          exact (congrArg (fun columns => columns.2.2.2.1)
            kept.identity).symm
        · rw [← same]
          exact status
      · exact absurd (RequestStatus.terminal_of_finished status) open_

theorem effect {action : Action} (grounded : state.Grounded)
    (effect : Effect deployment state action next) : next.Grounded := by
  have tidy := grounded.tidy.effect effect
  have carries := grounded.carries effect
  refine ⟨tidy, ?_, ?_⟩
  · refine effect.copies grounded.tidy (fun _ => rfl) (fun _ => ⟨rfl, id⟩)
      carries ?_ grounded.copies
    constructor
    · intro index now call taskId work task request _ found _ held requestHeld
      have member := List.mem_of_getElem? found
      have isTask := grounded.tidy.keyed call member taskId task held
      obtain ⟨row, rowFound, related⟩ :=
        (grounded.copies call member).task taskId task held
      obtain ⟨owner, ownerFound, key, shows⟩ :=
        grounded.request_of_copy member requestHeld
      obtain ⟨after, afterFound, kept⟩ := carries.task taskId row rowFound
      obtain ⟨later, laterFound, stillShows⟩ :=
        carries.request task.requestId owner ownerFound
      refine ⟨⟨after, isTask ▸ afterFound, ?_⟩, later, key ▸ laterFound, ?_⟩
      · have same : (task.settle deployment.settings call.executor
            work.ending).identity = task.identity := by
          cases work.ending <;> rfl
        exact same.trans (kept task related)
      · obtain ⟨identity, path⟩ := stillShows request shows
        refine ⟨request.verify_identity.trans identity, ?_⟩
        rw [PrivacyRequest.verify_artifactPath]
        exact path
    · intro index noticeId now call requestId own reference request isRefresh
        found phase held uploaded
      subst isRefresh
      obtain ⟨again, lockedId, lockedOwn, uploadedTo, copy, againFound,
        againPhase, heldCopy, _, _, rfl⟩ := effect.of_refreshCommit
      rw [found] at againFound
      cases againFound
      rw [phase] at againPhase
      cases againPhase
      rw [held] at heldCopy
      cases heldCopy
      obtain ⟨row, rowFound, key, shows⟩ := grounded.request_of_copy
        (List.mem_of_getElem? found) held
      have hit : decide (row.id = request.id) = true :=
        decide_eq_true ((Database.request_mem rowFound).2.trans key.symm)
      refine ⟨_, ?_, shows_refresh shows now⟩
      rw [(Database.commitRefresh_revises ..).request_eq, key, rowFound]
      exact congrArg some (if_pos hit)
  · exact grounded.paths_step effect

theorem step {action : Action} (grounded : state.Grounded)
    (stepped : FleetPrivacy.step deployment state action = some next) :
    next.Grounded :=
  grounded.effect (effect_of_step grounded.tidy.tables.taskIds stepped)

theorem initial : State.initial.Grounded := by
  refine ⟨State.tidy_initial, ?_, ?_⟩
  · intro call member
    cases member
  · intro row member
    cases member

end State.Grounded

end FleetPrivacy
