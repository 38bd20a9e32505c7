import FleetPrivacy.ColumnWidths
import FleetPrivacy.ExactDeletion
import FleetPrivacy.TenantIsolation

/-!
# Requests that finish

Requests created through the API, seeded records and whole `process_once`
calls with the database backend, one after another.  Between two calls no task
is `RUNNING` and every request shows the status that its tasks derive.  A pass
that claims something uses up pending tasks, so the passes come to an end.  A
request is terminal then, unless it was accepted without any source: only the
execution of a task refreshes a request.
-/

namespace FleetPrivacy

open Transition

/-! ## Calls -/

inductive SequentialCall where
  | create (tenantId : String) (command : CreateBody)
      (idempotencyKey : String) (fresh : Fresh)
  | seed (tenantId subjectKey : String) (recordsPerSource : Int)
      (fresh : Fresh)
  | processOnce (workerId : String) (tenantId : Option String)
      (batchSize : Option Nat) (fresh : Fresh)

/-- The arguments of a pass that no other call overlaps. -/
def passArguments (workerId : String) (tenantId : Option String)
    (batchSize : Option Nat) (fresh : Fresh) : ClaimArguments :=
  { workerId, tenantId, batchSize, now := fresh.clock 0, locked := [] }

/-- `uuid4` returns new ids for the rows of a valid command. -/
def drawsUnused (database : Database) (tenantId : String)
    (command : CreateBody) (idempotencyKey : String) (fresh : Fresh) : Bool :=
  match PrivacyRequestCreate.validate command with
  | .error _ => true
  | .ok command =>
      let intake : Intake := { tenantId, idempotencyKey, command, fresh }
      decide intake.drawnIds.Nodup && database.unused intake.drawnIds

def sequentialStep (deployment : Deployment) (storage : Storage) :
    SequentialCall → Option Storage
  | .create tenantId command idempotencyKey fresh =>
      if drawsUnused storage.database tenantId command idempotencyKey fresh then
        some (handle deployment storage
          { tenantId, call := .createRequest command idempotencyKey
            fresh }).1
      else none
  | .seed tenantId subjectKey recordsPerSource fresh =>
      some (handle deployment storage
        { tenantId, call := .seed subjectKey recordsPerSource, fresh }).1
  | .processOnce workerId tenantId batchSize fresh =>
      some (processOnce deployment
        (passArguments workerId tenantId batchSize fresh) fresh storage).1

/-- The number of tasks that a pass claims, unless it raises. -/
def SequentialCall.claimed (deployment : Deployment) (storage : Storage) :
    SequentialCall → Option Nat
  | .processOnce workerId tenantId batchSize fresh =>
      (FleetPrivacy.processOnce deployment
        (passArguments workerId tenantId batchSize fresh) fresh
        storage).2.map Prod.fst
  | _ => none

/-- The sources of a command that `create_request` accepts. -/
def SequentialCall.acceptedSources : SequentialCall → Option (List String)
  | .create _ command _ _ =>
      match PrivacyRequestCreate.validate command with
      | .error _ => none
      | .ok accepted => some accepted.sources
  | _ => none

/-- Each pass that claims something is observed. -/
def observeClaims (deployment : Deployment) (storage : Storage)
    (call : SequentialCall) : List Nat :=
  ((call.claimed deployment storage).filter fun count =>
    decide (0 < count)).toList

/-- A pass over each tenant that has tasks claims nothing, and that not for a
batch size of zero. -/
def Storage.Exhausted (deployment : Deployment) (storage : Storage) : Prop :=
  ∀ task ∈ storage.database.tasks, ∃ workerId batchSize fresh,
    0 < (passArguments workerId (some task.tenantId) batchSize fresh).limit
        deployment.settings ∧
      SequentialCall.claimed deployment storage
        (.processOnce workerId (some task.tenantId) batchSize fresh) = some 0

/-- The status that `refresh_request_status` derives for the request. -/
def Database.derivedStatus (database : Database) (requestId : String) :
    RequestStatus :=
  deriveStatus ((database.tasksOf requestId).map RequestTask.status)

/-- Every request is terminal, with the status derived from its tasks. -/
def Storage.Finished (storage : Storage) : Prop :=
  ∀ request ∈ storage.database.requests, request.status.Terminal ∧
    request.status = storage.database.derivedStatus request.id

/-! ## Sessions without outdated copies -/

/-- The copy differs from the committed row in `updated_at` at most. -/
structure PrivacyRequest.ShownBy (copy row : PrivacyRequest) : Prop where
  identity : copy.identity = row.identity
  status : copy.status = row.status
  path : copy.artifactPath = row.artifactPath

theorem PrivacyRequest.ShownBy.refl (row : PrivacyRequest) : row.ShownBy row :=
  ⟨rfl, rfl, rfl⟩

theorem PrivacyRequest.ShownBy.id {copy row : PrivacyRequest}
    (shown : copy.ShownBy row) : copy.id = row.id :=
  congrArg Prod.fst shown.identity

theorem PrivacyRequest.refresh_identity (request : PrivacyRequest)
    (status : RequestStatus) (reference : Option String) :
    (request.refresh status reference).identity = request.identity := rfl

/-- What a flush writes is what the session holds afterwards. -/
theorem PrivacyRequest.ShownBy.flush {copy current row : PrivacyRequest}
    (shown : copy.ShownBy row) (same : current.identity = copy.identity)
    (now : Time) : current.ShownBy (copy.flush current row now) := by
  constructor
  · exact same.trans shown.identity
  · simp only [PrivacyRequest.flush, ← shown.status, flushColumn_fresh]
  · simp only [PrivacyRequest.flush, ← shown.path, flushColumn_fresh]

structure Session.Current (session : Session) (database : Database) :
    Prop where
  copies : session.Copies Eq PrivacyRequest.ShownBy database
  members : ∀ requestId ids, session.members requestId = some ids →
    (∃ row, database.request requestId = some row) ∧
      ids = (database.tasksOf requestId).map RequestTask.id ∧
      ∀ taskId ∈ ids, ∃ copy, session.task taskId = some copy

namespace Session.Current

variable {session : Session} {database : Database}

theorem agrees (current : session.Current database) :
    session.Agrees database := by
  constructor
  · intro taskId copy held
    obtain ⟨row, found, same⟩ := current.copies.task taskId copy held
    exact ⟨row, found, by rw [same], fun _ => by rw [same]⟩
  · intro requestId copy held
    obtain ⟨row, found, shown⟩ := current.copies.request requestId copy held
    have kind : copy.kind = row.kind :=
      congrArg (fun columns => columns.2.2.2.1) shown.identity
    refine ⟨row, found, shown.id.trans (Database.request_mem found).2, kind,
      fun _ => shown.status.symm, ?_⟩
    rw [shown.path]
    exact id
  · exact current.members

theorem request_id (current : session.Current database) {requestId : String}
    {copy : PrivacyRequest} (held : session.request requestId = some copy) :
    copy.id = requestId := by
  obtain ⟨_, _, same, _⟩ := current.agrees.request requestId copy held
  exact same

theorem loadRefresh (current : session.Current database)
    (formed : database.WellFormed) {requestId : String}
    {owner : PrivacyRequest}
    (found : database.request requestId = some owner) :
    (session.loadRefresh database requestId).Current database :=
  ⟨current.copies.loadRefresh (fun _ => rfl) PrivacyRequest.ShownBy.refl formed
      requestId,
    (current.agrees.loadRefresh formed found).members⟩

/-- A refresh derives the status of the committed tasks. -/
theorem derivedStatus_eq (current : session.Current database)
    (formed : database.WellFormed) {requestId : String} {ids : List String}
    (held : session.members requestId = some ids) :
    session.derivedStatus requestId = database.derivedStatus requestId := by
  unfold Session.derivedStatus Database.derivedStatus
  congr 1
  apply current.agrees.map_tasksOf RequestTask.status held
  intro row member copy _ kept
  obtain ⟨other, found, same⟩ := current.copies.task row.id copy kept
  rw [formed.task_eq (Database.mem_tasksOf.mp member).1] at found
  cases found
  rw [same]

theorem task_id (current : session.Current database) {taskId : String}
    {copy : RequestTask} (held : session.task taskId = some copy) :
    copy.id = taskId := by
  obtain ⟨row, found, same⟩ := current.copies.task taskId copy held
  rw [same]
  exact (Database.task_mem found).2

/-- The tables are revised, and the copies with them. -/
theorem revise {next : Session} {after : Database}
    {task : RequestTask → RequestTask}
    {request : PrivacyRequest → PrivacyRequest}
    (current : session.Current database)
    (revises : Database.Revises database after task request)
    (tasks : ∀ taskId copy, next.task taskId = some copy →
      ∃ old, session.task taskId = some old ∧ copy = task old)
    (requests : ∀ requestId copy, next.request requestId = some copy →
      ∃ old, session.request requestId = some old ∧
        ∀ row, old.ShownBy row → copy.ShownBy (request row))
    (kept : ∀ taskId copy, session.task taskId = some copy →
      ∃ after, next.task taskId = some after)
    (members : next.members = session.members) : next.Current after := by
  refine ⟨⟨?_, ?_⟩, ?_⟩
  · intro taskId copy held
    obtain ⟨old, oldHeld, written⟩ := tasks taskId copy held
    obtain ⟨row, found, same⟩ := current.copies.task taskId old oldHeld
    refine ⟨task row, ?_, by rw [written, same]⟩
    rw [revises.task_eq, found, Option.map_some]
  · intro requestId copy held
    obtain ⟨old, oldHeld, shows⟩ := requests requestId copy held
    obtain ⟨row, found, shown⟩ :=
      current.copies.request requestId old oldHeld
    refine ⟨request row, ?_, shows row shown⟩
    rw [revises.request_eq, found, Option.map_some]
  · intro requestId ids held
    rw [members] at held
    obtain ⟨⟨row, found⟩, same, loaded⟩ := current.members requestId ids held
    refine ⟨⟨request row, ?_⟩, ?_, ?_⟩
    · rw [revises.request_eq, found, Option.map_some]
    · rw [revises.ids_eq]
      exact same
    · intro taskId member
      obtain ⟨copy, copyHeld⟩ := loaded taskId member
      exact kept taskId copy copyHeld

/-- A changed copy shows the row that its flush writes. -/
theorem shownBy_flush (current : session.Current database)
    {request changed : PrivacyRequest}
    (held : session.request request.id = some request)
    (same : changed.identity = request.identity) (now : Time)
    {written : PrivacyRequest → PrivacyRequest}
    (flushed : ∀ row, written row =
      if decide (row.id = request.id) then request.flush changed row now
      else row) (requestId : String) (copy : PrivacyRequest)
    (put : (session.putRequest changed).request requestId = some copy) :
    ∃ old, session.request requestId = some old ∧
      ∀ row, old.ShownBy row → copy.ShownBy (written row) := by
  have key : changed.id = request.id := congrArg Prod.fst same
  by_cases own : requestId = request.id
  · simp only [Session.putRequest, key, own, if_true,
      Option.some.injEq] at put
    refine ⟨request, by rw [own]; exact held, ?_⟩
    intro row shows
    rw [← put, flushed, if_pos (decide_eq_true shows.id.symm)]
    exact shows.flush same now
  · simp only [Session.putRequest, key, own, if_false] at put
    refine ⟨copy, put, ?_⟩
    intro row shows
    have miss : row.id ≠ request.id := by
      rw [← shows.id, current.request_id put]
      exact own
    rw [flushed, if_neg (by simpa using miss)]
    exact shows

end Session.Current

/-! ## One task -/

section Execution

variable {deployment : Deployment} {session : Session} {storage : Storage}

/-- What a refresh changes: the row of its request shows the derived status. -/
structure Storage.Refreshed (before after : Storage) (requestId : String) :
    Prop where
  formed : after.database.WellFormed
  tasks : after.database.tasks = before.database.tasks
  requests : ∀ otherId row, after.database.request otherId = some row →
    ∃ old, before.database.request otherId = some old ∧
      row.identity = old.identity ∧
      row.status = if otherId = requestId then
        before.database.derivedStatus requestId else old.status

/-- The select of a refresh finds its request and loads the tasks. -/
theorem Session.loadRefresh_held (session : Session)
    (formed : storage.database.WellFormed) {requestId : String}
    {owner : PrivacyRequest}
    (found : storage.database.request requestId = some owner) :
    (∃ ids, (session.loadRefresh storage.database requestId).members requestId =
      some ids) ∧
    ∃ request, (session.loadRefresh storage.database requestId).request
      requestId = some request := by
  constructor
  · rw [Session.loadRefresh_members, if_pos rfl]
    cases session.members requestId with
    | none => exact ⟨_, rfl⟩
    | some ids => exact ⟨ids, rfl⟩
  · rw [Session.loadRefresh_request]
    cases session.request requestId with
    | none => exact ⟨owner, formed.get_select found⟩
    | some copy => exact ⟨copy, rfl⟩

theorem refreshRequestStatus_current (deployment : Deployment)
    (formed : storage.database.WellFormed)
    (current : session.Current storage.database) {requestId : String}
    {owner : PrivacyRequest}
    (found : storage.database.request requestId = some owner)
    (draws : TaskDraws) :
    storage.Refreshed (refreshRequestStatus deployment draws requestId session
      storage).1 requestId ∧
    (refreshRequestStatus deployment draws requestId session
      storage).2.Current (refreshRequestStatus deployment draws requestId
        session storage).1.database := by
  have loaded := current.loadRefresh formed found
  obtain ⟨_, ownerKey⟩ := Database.request_mem found
  obtain ⟨⟨ids, members⟩, request, held⟩ :=
    session.loadRefresh_held formed found
  have derived := loaded.derivedStatus_eq formed members
  obtain rfl := loaded.request_id held
  unfold refreshRequestStatus
  simp only [held]
  have revises := Database.commitRefresh_revises deployment.runtime
    (session.loadRefresh storage.database request.id) request
    (if request.needsArtifact ((session.loadRefresh storage.database
        request.id).derivedStatus request.id) = true then
      some (writeArtifact deployment request
        ((session.loadRefresh storage.database request.id).tasksOf request.id)
        draws.generatedAt storage.artifacts).2
      else none) draws.noticeId draws.refreshedAt storage.database
  obtain ⟨row, rowFound, shown⟩ :=
    loaded.copies.request request.id request held
  rw [found] at rowFound
  cases rowFound
  refine ⟨⟨formed.revise revises, Database.commitRefresh_tasks .., ?_⟩, ?_⟩
  · intro otherId other otherFound
    rw [revises.request_eq] at otherFound
    obtain ⟨old, oldFound, written⟩ := Option.map_eq_some_iff.mp otherFound
    refine ⟨old, oldFound, ?_, ?_⟩
    · rw [← written]
      exact Database.refreshRow_identity _ _ _ _ old
    · rw [← written]
      by_cases own : otherId = request.id
      · rw [own, found] at oldFound
        cases oldFound
        rw [Database.refreshRow, if_pos (decide_eq_true ownerKey), if_pos own,
          ← derived]
        exact (shown.flush (request.refresh_identity _ _) _).status.symm
      · have miss : old.id ≠ request.id := by
          rw [(Database.request_mem oldFound).2]
          exact own
        simp [Database.refreshRow, miss, own]
  · apply loaded.revise revises
    · intro taskId copy copyHeld
      exact ⟨copy, copyHeld, rfl⟩
    · exact loaded.shownBy_flush held (request.refresh_identity _ _) _
        fun _ => rfl
    · intro taskId copy copyHeld
      exact ⟨copy, copyHeld⟩
    · rfl

theorem Session.Current.load (current : session.Current storage.database)
    (formed : storage.database.WellFormed) {row : RequestTask}
    (member : row ∈ storage.database.tasks) :
    ((session.loadTasks [row]).loadRequests
      (storage.database.requests.filter fun request =>
        decide (request.id = row.requestId))).Current storage.database := by
  have task : ∀ other ∈ [row], other ∈ storage.database.tasks := by
    intro other isRow
    rw [List.mem_singleton.mp isRow]
    exact member
  have requests : ∀ request ∈ storage.database.requests.filter fun request =>
      decide (request.id = row.requestId),
      request ∈ storage.database.requests :=
    fun request inFilter => (List.mem_filter.mp inFilter).1
  constructor
  · exact (current.copies.loadTasks (fun _ => rfl) formed task).loadRequests
      PrivacyRequest.ShownBy.refl formed requests
  · exact ((current.agrees.loadTasks formed task).loadRequests formed
      requests).members

theorem Session.Current.fits (current : session.Current storage.database)
    {row : RequestTask} (found : storage.database.task row.id = some row) :
    session.Fits storage.database row := by
  constructor
  · intro copy held
    obtain ⟨other, otherFound, same⟩ := current.copies.task row.id copy held
    rw [found] at otherFound
    cases otherFound
    exact same
  · intro copy held
    obtain ⟨owner, owned, shown⟩ :=
      current.copies.request row.requestId copy held
    exact ⟨owner, owned, shown.identity⟩

/-- The copies that an outcome changes are written back with it. -/
theorem Session.Current.record (deployment : Deployment)
    (current : session.Current storage.database)
    {row : RequestTask} {request : PrivacyRequest}
    (heldTask : session.task row.id = some row)
    (heldRequest : session.request row.requestId = some request)
    (work : Work) (now : Time) :
    ((session.putTask (row.settle deployment.settings false
      work.ending)).putRequest request.verify).Current
        (recordOutcome deployment.runtime deployment.settings false work row
          request now storage.database) := by
  have key := current.request_id heldRequest
  apply current.revise (Database.recordOutcome_revises ..)
  · intro taskId copy held
    by_cases own : taskId = row.id
    · simp only [Session.putRequest, Session.putTask, RequestTask.settle_id,
        own, if_true, Option.some.injEq] at held
      refine ⟨row, by rw [own]; exact heldTask, ?_⟩
      rw [← held, Database.recordRow, if_pos (decide_eq_true rfl),
        RequestTask.flush_settle_self]
    · simp only [Session.putRequest, Session.putTask, RequestTask.settle_id,
        own, if_false] at held
      refine ⟨copy, held, ?_⟩
      rw [Database.recordRow_of_ne]
      rw [current.task_id held]
      exact own
  · rw [← key] at heldRequest
    exact current.shownBy_flush heldRequest request.verify_identity now
      fun _ => rfl
  · intro taskId copy held
    by_cases own : taskId = row.id
    · refine ⟨row.settle deployment.settings false work.ending, ?_⟩
      simp [Session.putRequest, Session.putTask, own]
    · refine ⟨copy, ?_⟩
      simpa [Session.putRequest, Session.putTask, own] using held
  · rfl

/-! ## Databases between two statements -/

/-- Only the listed tasks are `RUNNING`; every request shows the status of its
tasks, one for each of its sources. -/
structure Database.Consistent (database : Database) (running : List String) :
    Prop where
  formed : database.WellFormed
  idle : ∀ row ∈ database.tasks, row.id ∉ running → row.status ≠ .running
  derived : ∀ requestId row, database.request requestId = some row →
    row.status = database.derivedStatus requestId
  sources : ∀ requestId row, database.request requestId = some row →
    (database.tasksOf requestId).map RequestTask.source =
      row.requestedSources

/-- A pass that has these claimed tasks left. -/
structure Storage.InPass (storage : Storage) (session : Session)
    (workerId : String) (todo : List String) : Prop where
  consistent : storage.database.Consistent todo
  current : session.Current storage.database
  nodup : todo.Nodup
  leased : ∀ taskId ∈ todo, ∃ row, storage.database.task taskId = some row ∧
    row.leasedBy workerId = true

/-- The tasks that some pass has claimed. -/
def Database.started (database : Database) : Nat :=
  database.tasks.countP fun task => decide (task.status ≠ .pending)

section Revisions

variable {before after : Database} {task : RequestTask → RequestTask}
  {request : PrivacyRequest → PrivacyRequest}

theorem Database.started_of_revises
    (revises : Database.Revises before after task request)
    (same : ∀ row ∈ before.tasks,
      (task row).status = .pending ↔ row.status = .pending) :
    after.started = before.started := by
  unfold Database.started
  rw [revises.tasks, List.countP_map]
  apply List.countP_congr
  intro row member
  simp [same row member]

theorem Database.sources_of_revises
    (revises : Database.Revises before after task request)
    (same : ∀ row, (task row).source = row.source) (requestId : String) :
    (after.tasksOf requestId).map RequestTask.source =
      (before.tasksOf requestId).map RequestTask.source := by
  rw [revises.tasksOf_eq, List.map_map]
  exact List.map_congr_left fun row _ => same row

/-- Only the statuses of its tasks decide what a request shows. -/
theorem Database.derivedStatus_of_revises
    (revises : Database.Revises before after task request)
    {requestId : String}
    (same : ∀ row ∈ before.tasksOf requestId,
      (task row).status = row.status) :
    after.derivedStatus requestId = before.derivedStatus requestId := by
  unfold Database.derivedStatus
  rw [revises.tasksOf_eq, List.map_map]
  congr 1
  exact List.map_congr_left same

end Revisions

theorem Storage.Refreshed.tasksOf {before after : Storage}
    {requestId : String} (refreshed : before.Refreshed after requestId)
    (otherId : String) :
    after.database.tasksOf otherId = before.database.tasksOf otherId := by
  unfold Database.tasksOf
  rw [refreshed.tasks]

theorem Storage.Refreshed.derivedStatus {before after : Storage}
    {requestId : String} (refreshed : before.Refreshed after requestId)
    (otherId : String) :
    after.database.derivedStatus otherId =
      before.database.derivedStatus otherId := by
  unfold Database.derivedStatus
  rw [refreshed.tasksOf]

namespace Storage.InPass

variable {workerId taskId : String} {todo : List String}

/-- The outcome of a task that succeeds, and the refresh after it. -/
theorem settled {row : RequestTask}
    (pass : storage.InPass session workerId (row.id :: todo))
    (member : row ∈ storage.database.tasks) {payload : Json}
    {request : PrivacyRequest} (own : request.id = row.requestId) {now : Time}
    {recorded after : Storage} {next : Session}
    (revises : Database.Revises storage.database recorded.database
      (Database.recordRow deployment.settings false (.returned payload) row)
      (Database.verifyRow request now))
    (refreshed : recorded.Refreshed after row.requestId)
    (current : next.Current after.database) :
    after.InPass next workerId todo := by
  have formed := pass.consistent.formed
  obtain ⟨isNew, nodup⟩ := List.nodup_cons.mp pass.nodup
  refine ⟨⟨refreshed.formed, ?_, ?_, ?_⟩, current, nodup, ?_⟩
  · intro other inAfter notLeft
    rw [refreshed.tasks, revises.tasks] at inAfter
    obtain ⟨old, inTable, rfl⟩ := List.mem_map.mp inAfter
    rw [(revises.taskKey old).1] at notLeft
    by_cases isRow : old.id = row.id
    · rw [formed.taskIds.eq_of_mem inTable member isRow, Database.recordRow,
        if_pos (decide_eq_true rfl), RequestTask.flush_settle_self]
      exact RequestTask.settle_status_ne_running (by simp) row
    · rw [Database.recordRow_of_ne isRow]
      apply pass.consistent.idle old inTable
      rw [List.mem_cons, not_or]
      exact ⟨isRow, notLeft⟩
  · intro requestId other found
    obtain ⟨verified, verifiedFound, _, shows⟩ :=
      refreshed.requests requestId other found
    rw [shows, refreshed.derivedStatus]
    split
    next isOwn => rw [isOwn]
    next foreign =>
      rw [revises.request_eq] at verifiedFound
      obtain ⟨old, oldFound, rfl⟩ := Option.map_eq_some_iff.mp verifiedFound
      have miss : old.id ≠ request.id := by
        rw [(Database.request_mem oldFound).2, own]
        exact foreign
      rw [Database.verifyRow, if_neg (by simpa using miss),
        pass.consistent.derived requestId old oldFound]
      symm
      apply Database.derivedStatus_of_revises revises
      intro task inRequest
      obtain ⟨inTable, isOwner⟩ := Database.mem_tasksOf.mp inRequest
      rw [Database.recordRow_of_ne]
      intro isRow
      apply foreign
      rw [← isOwner, formed.taskIds.eq_of_mem inTable member isRow]
  · intro requestId other found
    obtain ⟨verified, verifiedFound, same, _⟩ :=
      refreshed.requests requestId other found
    rw [revises.request_eq] at verifiedFound
    obtain ⟨old, oldFound, rfl⟩ := Option.map_eq_some_iff.mp verifiedFound
    have sources : other.requestedSources = old.requestedSources :=
      congrArg (fun columns => columns.2.2.2.2)
        (same.trans (Database.verifyRow_keeps request now old).identity)
    rw [sources, refreshed.tasksOf, Database.sources_of_revises revises]
    · exact pass.consistent.sources requestId old oldFound
    · intro task
      exact congrArg (fun columns => columns.2.2.2)
        (Database.recordRow_identity _ _ _ _ task)
  · intro otherId isLeft
    obtain ⟨other, found, leased⟩ :=
      pass.leased otherId (List.mem_cons_of_mem row.id isLeft)
    refine ⟨other, ?_, leased⟩
    unfold Database.task
    rw [refreshed.tasks]
    have kept := revises.task_eq otherId
    rw [found, Option.map_some, Database.recordRow_of_ne] at kept
    · exact kept
    · rw [(Database.task_mem found).2]
      exact fun isRow => isNew (isRow ▸ isLeft)

/-- The first task left succeeds, and its request shows that. -/
theorem execute (deployment : Deployment)
    (pass : storage.InPass session workerId (taskId :: todo))
    (draws : TaskDraws) :
    (executeTask deployment draws workerId taskId session storage).1.InPass
      (executeTask deployment draws workerId taskId session storage).2.1
      workerId todo ∧
    (executeTask deployment draws workerId taskId session
      storage).1.database.started = storage.database.started := by
  obtain ⟨row, found, leased⟩ := pass.leased taskId List.mem_cons_self
  obtain ⟨member, rfl⟩ := Database.task_mem found
  have formed := pass.consistent.formed
  obtain ⟨owner, owned⟩ := formed.owned row member
  obtain ⟨selected, heldTask, request, heldRequest, same⟩ :=
    select_of_claimed formed member leased owned (pass.current.fits found)
  obtain ⟨work, isWork⟩ : ∃ work, databaseWork storage.database row request
      draws.deletedAt = work := ⟨_, rfl⟩
  obtain ⟨payload, returned⟩ : ∃ payload, work.ending = .returned payload := by
    rw [← isWork, databaseWork_eq same]
    cases owner.kind with
    | access => exact ⟨_, rfl⟩
    | delete => exact ⟨_, rfl⟩
  have loaded := pass.current.load formed member
  have own : request.id = row.requestId := loaded.request_id heldRequest
  have revises := Database.recordOutcome_revises deployment.runtime
    deployment.settings false work row request draws.recordedAt
    storage.database
  have recorded := loaded.record deployment heldTask heldRequest work
    draws.recordedAt
  have ownedAfter := revises.request_eq row.requestId
  rw [owned, Option.map_some] at ownedAfter
  let after : Storage := { storage with
    database := recordOutcome deployment.runtime deployment.settings false work
      row request draws.recordedAt storage.database }
  have formedAfter : after.database.WellFormed := formed.revise revises
  obtain ⟨refreshed, current⟩ := refreshRequestStatus_current deployment
    formedAfter recorded ownedAfter draws
  unfold executeTask
  simp only [selected, heldTask, heldRequest, isWork]
  rw [returned] at revises
  refine ⟨pass.settled member own revises refreshed current, ?_⟩
  refine Eq.trans (congrArg (List.countP _) refreshed.tasks) ?_
  apply Database.started_of_revises revises
  intro other inTable
  by_cases isRow : other.id = row.id
  · rw [formed.taskIds.eq_of_mem inTable member isRow, Database.recordRow,
      if_pos (decide_eq_true rfl), RequestTask.flush_settle_self,
      (RequestTask.leasedBy_iff.mp leased).1]
    simp [RequestTask.settle]
  · rw [Database.recordRow_of_ne isRow]

/-- The loop of a pass. -/
theorem executeTasks (deployment : Deployment)
    (pass : storage.InPass session workerId todo)
    (fresh : Fresh) (position : Nat) :
    (executeTasks deployment fresh workerId position todo session
      storage).1.database.Consistent [] ∧
    (executeTasks deployment fresh workerId position todo session
      storage).1.database.started = storage.database.started := by
  induction todo generalizing storage session position with
  | nil => exact ⟨pass.consistent, rfl⟩
  | cons taskId todo induction =>
      obtain ⟨next, started⟩ := pass.execute deployment (fresh.task position)
      obtain ⟨consistent, later⟩ := induction next (position + 1)
      exact ⟨consistent, later.trans started⟩

end Storage.InPass

end Execution

/-! ## Claims -/

theorem deriveStatus_of_running {statuses : List TaskStatus}
    (member : .running ∈ statuses) : deriveStatus statuses = .running := by
  unfold deriveStatus
  rw [if_neg, if_pos (.inr member)]
  intro all
  cases all .running member

theorem deriveStatus_of_pending {statuses : List TaskStatus}
    (member : .pending ∈ statuses) :
    deriveStatus statuses = .queued ∨ deriveStatus statuses = .running := by
  unfold deriveStatus
  split
  next => exact .inl rfl
  next =>
    rw [if_pos (.inl member)]
    exact .inr rfl

namespace Database.Consistent

variable {database : Database} {taskIds : List String} {workerId : String}
  {leaseUntil now : Time}

/-- Nothing is `RUNNING`, so that the claimed tasks were `PENDING`. -/
theorem pending_of_claims (consistent : database.Consistent [])
    (claims : database.Claims now taskIds) {row : RequestTask}
    (member : row ∈ database.tasks) (claimed : row.id ∈ taskIds) :
    row.status = .pending := by
  obtain ⟨candidate, inTable, same, claimable⟩ :=
    claims.claimable row.id claimed
  rw [consistent.formed.taskIds.eq_of_mem inTable member same] at claimable
  rcases RequestTask.claimable_iff.mp claimable with pending | ⟨running, _⟩
  · exact pending
  · exact absurd running
      (consistent.idle row member List.not_mem_nil)

theorem derived_claim (consistent : database.Consistent [])
    (claims : database.Claims now taskIds) {requestId : String}
    {row : PrivacyRequest} (found : database.request requestId = some row) :
    (startRow (database.requestIdsOf taskIds) now row).status =
      (database.markClaimed taskIds workerId leaseUntil now).derivedStatus
        requestId := by
  have revises := markClaimed_revises database taskIds workerId leaseUntil now
  obtain ⟨_, key⟩ := request_mem found
  have shown := consistent.derived requestId row found
  by_cases starts : row.id ∈ database.requestIdsOf taskIds
  · obtain ⟨task, selected, isOwner⟩ := List.mem_map.mp starts
    obtain ⟨inTable, claimed⟩ := List.mem_filter.mp selected
    have isClaimed := of_decide_eq_true claimed
    have ofRequest : task ∈ database.tasksOf requestId :=
      mem_tasksOf.mpr ⟨inTable, isOwner.trans key⟩
    have running : (database.markClaimed taskIds workerId leaseUntil
        now).derivedStatus requestId = .running := by
      apply deriveStatus_of_running
      rw [revises.tasksOf_eq, List.map_map]
      refine List.mem_map.mpr ⟨task, ofRequest, ?_⟩
      simp [claimRow, isClaimed, RequestTask.claim]
    have pending : TaskStatus.pending ∈
        (database.tasksOf requestId).map RequestTask.status :=
      List.mem_map.mpr ⟨task, ofRequest,
        consistent.pending_of_claims claims inTable isClaimed⟩
    rw [running, startRow, decide_eq_true starts, Bool.true_and]
    rcases deriveStatus_of_pending pending with queued | already
    · rw [if_pos]
      exact decide_eq_true (shown.trans queued)
    · split
      next => rfl
      next => exact shown.trans already
  · have kept : startRow (database.requestIdsOf taskIds) now row = row := by
      simp [startRow, starts]
    rw [kept, shown]
    symm
    apply derivedStatus_of_revises revises
    intro task ofRequest
    obtain ⟨inTable, isOwner⟩ := mem_tasksOf.mp ofRequest
    rw [claimRow_of_not_mem]
    intro claimed
    apply starts
    refine List.mem_map.mpr ⟨task, List.mem_filter.mpr
      ⟨inTable, decide_eq_true claimed⟩, ?_⟩
    rw [isOwner, key]

theorem markClaimed (consistent : database.Consistent [])
    (claims : database.Claims now taskIds) :
    (database.markClaimed taskIds workerId leaseUntil now).Consistent
      taskIds := by
  have revises := markClaimed_revises database taskIds workerId leaseUntil now
  refine ⟨consistent.formed.revise revises, ?_, ?_, ?_⟩
  · intro row inAfter notClaimed
    rw [revises.tasks] at inAfter
    obtain ⟨old, inTable, rfl⟩ := List.mem_map.mp inAfter
    rw [(revises.taskKey old).1] at notClaimed
    rw [claimRow_of_not_mem notClaimed]
    exact consistent.idle old inTable List.not_mem_nil
  · intro requestId row found
    rw [revises.request_eq] at found
    obtain ⟨old, oldFound, rfl⟩ := Option.map_eq_some_iff.mp found
    exact consistent.derived_claim claims oldFound
  · intro requestId row found
    rw [revises.request_eq] at found
    obtain ⟨old, oldFound, rfl⟩ := Option.map_eq_some_iff.mp found
    have sources : (startRow (database.requestIdsOf taskIds) now
        old).requestedSources = old.requestedSources :=
      congrArg (fun columns => columns.2.2.2.2)
        (startRow_keeps _ now old).identity
    rw [sources, sources_of_revises revises]
    · exact consistent.sources requestId old oldFound
    · intro task
      exact congrArg (fun columns => columns.2.2.2)
        (claimRow_identity _ _ _ task)

/-- Each claimed task is started. -/
theorem started_markClaimed (consistent : database.Consistent [])
    (claims : database.Claims now taskIds) :
    (database.markClaimed taskIds workerId leaseUntil now).started =
      database.started +
        database.tasks.countP fun task => decide (task.id ∈ taskIds) := by
  apply Table.countP_updateWhere
  · intro row member claimed
    have pending := consistent.pending_of_claims claims member
      (of_decide_eq_true claimed)
    simp [pending]
  · intro row _ _
    rfl

end Database.Consistent

/-- The session that a claim leaves is current, and the pass holds what it
claimed. -/
theorem Database.Consistent.inPass {storage : Storage}
    (consistent : storage.database.Consistent []) (settings : Settings)
    (dialect : Dialect) (arguments : ClaimArguments) :
    ∃ session taskIds,
      claimTasks settings dialect arguments storage.database =
        (storage.database.markClaimed taskIds arguments.workerId
          (arguments.leaseUntil settings) arguments.now, session, taskIds) ∧
      storage.database.Claims arguments.now taskIds ∧
      Storage.InPass { storage with
          database := storage.database.markClaimed taskIds arguments.workerId
            (arguments.leaseUntil settings) arguments.now }
        session arguments.workerId taskIds := by
  have formed := consistent.formed
  obtain ⟨session, taskIds, claimed, claims, copies, requests, members⟩ :=
    claimTasks_spec settings dialect arguments formed.taskIds
  have revises := Database.markClaimed_revises storage.database taskIds
    arguments.workerId (arguments.leaseUntil settings) arguments.now
  have located : ∀ row ∈ storage.database.tasks, row.id ∈ taskIds →
      (storage.database.markClaimed taskIds arguments.workerId
        (arguments.leaseUntil settings) arguments.now).task row.id =
        some (row.claim arguments.workerId
          (arguments.leaseUntil settings)) := by
    intro row inTable isClaimed
    rw [revises.task_eq, formed.task_eq inTable, Option.map_some,
      Database.claimRow, if_pos (decide_eq_true isClaimed)]
  refine ⟨session, taskIds, claimed, claims, consistent.markClaimed claims,
    ⟨⟨?_, ?_⟩, ?_⟩, claims.nodup, ?_⟩
  · intro taskId copy held
    obtain ⟨row, inTable, rfl, isClaimed, written⟩ := copies taskId copy held
    exact ⟨_, located row inTable isClaimed, written⟩
  · intro requestId copy held
    rw [requests] at held
    cases held
  · intro requestId ids held
    rw [members] at held
    cases held
  · intro taskId isClaimed
    obtain ⟨row, inTable, rfl, _⟩ := claims.claimable taskId isClaimed
    refine ⟨_, located row inTable isClaimed, ?_⟩
    exact RequestTask.leasedBy_iff.mpr ⟨rfl, rfl⟩

/-! ## Whole calls -/

section WholeCalls

variable {deployment : Deployment} {storage : Storage}

/-- A pass that claims something starts tasks, and all of them succeed. -/
theorem Database.Consistent.processOnce (deployment : Deployment)
    (consistent : storage.database.Consistent []) (arguments : ClaimArguments)
    (fresh : Fresh) :
    (processOnce deployment arguments fresh storage).1.database.Consistent []
    ∧ storage.database.started +
        (((processOnce deployment arguments fresh storage).2.map
          Prod.fst).filter fun count => decide (0 < count)).toList.length ≤
      (processOnce deployment arguments fresh storage).1.database.started := by
  obtain ⟨session, taskIds, claimed, claims, pass⟩ :=
    consistent.inPass deployment.settings deployment.dialect arguments
  obtain ⟨after, started⟩ := pass.executeTasks deployment fresh 0
  rw [consistent.started_markClaimed claims] at started
  unfold FleetPrivacy.processOnce
  rw [claimed]
  dsimp only
  split
  next => exact ⟨consistent, Nat.le_refl _⟩
  next =>
    refine ⟨after, ?_⟩
    dsimp only
    rw [started]
    cases taskIds with
    | nil => simp
    | cons taskId taskIds =>
        obtain ⟨row, inTable, same, _⟩ :=
          claims.claimable taskId List.mem_cons_self
        have positive : 0 < storage.database.tasks.countP fun task =>
            decide (task.id ∈ taskId :: taskIds) := by
          refine List.countP_pos_iff.mpr ⟨row, inTable, ?_⟩
          rw [same]
          exact decide_eq_true List.mem_cons_self
        exact Nat.add_le_add_left positive _

/-- The tasks of an intake are `PENDING`, and its request is `QUEUED`. -/
theorem Database.Consistent.insertRows {database : Database}
    (consistent : database.Consistent []) {intake : Intake}
    (nodup : intake.drawnIds.Nodup)
    (unused : database.unused intake.drawnIds = true) (runtime : Runtime) :
    (intake.insertRows runtime database).Consistent [] ∧
      (intake.insertRows runtime database).started = database.started := by
  have formed := consistent.formed
  have pending : ∀ task ∈ intake.tasks, task.status = .pending := by
    intro task member
    obtain ⟨_, _, rfl⟩ := List.mem_map.mp member
    rfl
  refine ⟨⟨formed.insertRows nodup unused, ?_, ?_, ?_⟩, ?_⟩
  · intro row member isIdle
    rcases List.mem_append.mp member with old | new
    · exact consistent.idle row old isIdle
    · rw [pending row new]
      exact TaskStatus.noConfusion
  · intro requestId row found
    rw [Database.insertRows_request] at found
    unfold Database.derivedStatus
    rcases Option.or_eq_some_iff.mp found with old | ⟨_, new⟩
    · rw [Database.insertRows_tasksOf unused old]
      exact consistent.derived requestId row old
    · obtain ⟨member, same⟩ := Table.get_mem new
      rw [List.mem_singleton.mp member] at same ⊢
      rw [← same]
      refine Eq.trans ?_ (congrArg (fun tasks => deriveStatus
        (tasks.map RequestTask.status))
        (Database.insertRows_tasksOf_new formed unused)).symm
      symm
      apply if_pos
      intro status inTasks
      obtain ⟨task, isNew, rfl⟩ := List.mem_map.mp inTasks
      exact pending task isNew
  · intro requestId row found
    rw [Database.insertRows_request] at found
    rcases Option.or_eq_some_iff.mp found with old | ⟨_, new⟩
    · rw [Database.insertRows_tasksOf unused old]
      exact consistent.sources requestId row old
    · obtain ⟨member, same⟩ := Table.get_mem new
      rw [List.mem_singleton.mp member] at same ⊢
      rw [← same]
      exact (congrArg (List.map RequestTask.source)
        (Database.insertRows_tasksOf_new formed unused)).trans
        intake.tasks_map_source
  · have none : (intake.tasks.countP fun task =>
        decide (task.status ≠ .pending)) = 0 := by
      rw [List.countP_eq_zero]
      intro task isNew
      simp [pending task isNew]
    refine (List.countP_append ..).trans ?_
    rw [none]
    rfl

theorem Database.Consistent.create (deployment : Deployment)
    (consistent : storage.database.Consistent []) {tenantId : String}
    {command : CreateBody} {idempotencyKey : String} {fresh : Fresh}
    (unused : drawsUnused storage.database tenantId command idempotencyKey
      fresh = true) :
    (dispatch deployment tenantId fresh storage
      (.createRequest command idempotencyKey)).1.database.Consistent [] ∧
    (dispatch deployment tenantId fresh storage
      (.createRequest command idempotencyKey)).1.database.started =
        storage.database.started := by
  cases validated : PrivacyRequestCreate.validate command with
  | error =>
      simp only [dispatch, validated, and_true]
      exact consistent
  | ok accepted =>
      simp only [drawsUnused, validated, Bool.and_eq_true,
        decide_eq_true_iff] at unused
      obtain ⟨nodup, new⟩ := unused
      simp only [dispatch, validated, createRequest]
      rcases createPrivacyRequest_cases deployment.runtime
        { tenantId, idempotencyKey, command := accepted, fresh }
        storage.database with same | inserted
      · rw [same]
        exact ⟨consistent, rfl⟩
      · rw [inserted]
        exact consistent.insertRows nodup new deployment.runtime

/-- Records are no part of what holds between two calls. -/
theorem Database.Consistent.seed (deployment : Deployment)
    (consistent : storage.database.Consistent [])
    (tenantId subjectKey : String) (recordsPerSource : Int) (fresh : Fresh) :
    (dispatch deployment tenantId fresh storage
      (.seed subjectKey recordsPerSource)).1.database.Consistent [] ∧
    (dispatch deployment tenantId fresh storage
      (.seed subjectKey recordsPerSource)).1.database.started =
        storage.database.started := by
  have formed := consistent.formed
  exact ⟨⟨⟨formed.taskIds, formed.requestIds, formed.owned, formed.named⟩,
    consistent.idle, consistent.derived, consistent.sources⟩, rfl⟩

theorem Database.Consistent.step {next : Storage} {call : SequentialCall}
    (consistent : storage.database.Consistent [])
    (stepped : sequentialStep deployment storage call = some next) :
    next.database.Consistent [] ∧
      storage.database.started +
        (observeClaims deployment storage call).length ≤
          next.database.started := by
  cases call with
  | create tenantId command idempotencyKey fresh =>
      simp only [sequentialStep] at stepped
      split at stepped
      next unused =>
        cases stepped
        unfold handle
        split
        next =>
          obtain ⟨after, started⟩ := consistent.create deployment unused
          exact ⟨after, Nat.le_of_eq started.symm⟩
        next => exact ⟨consistent, Nat.le_refl _⟩
      next => cases stepped
  | seed tenantId subjectKey recordsPerSource fresh =>
      cases stepped
      unfold handle
      split
      next =>
        obtain ⟨after, started⟩ := consistent.seed deployment tenantId
          subjectKey recordsPerSource fresh
        exact ⟨after, Nat.le_of_eq started.symm⟩
      next => exact ⟨consistent, Nat.le_refl _⟩
  | processOnce workerId tenantId batchSize fresh =>
      cases stepped
      exact consistent.processOnce deployment _ fresh

/-- Every request was there before. -/
def Database.Inherits (before after : Database) : Prop :=
  ∀ request ∈ after.requests,
    ∃ old ∈ before.requests, request.identity = old.identity

namespace Database.Inherits

variable {first second third : Database}

theorem refl (database : Database) : database.Inherits database :=
  fun request member => ⟨request, member, rfl⟩

theorem trans (left : first.Inherits second) (right : second.Inherits third) :
    first.Inherits third := by
  intro request member
  obtain ⟨middle, inMiddle, same⟩ := right request member
  obtain ⟨old, inTable, still⟩ := left middle inMiddle
  exact ⟨old, inTable, same.trans still⟩

theorem of_revises {task : RequestTask → RequestTask}
    {request : PrivacyRequest → PrivacyRequest}
    (revises : Database.Revises first second task request)
    (kept : ∀ row, (request row).identity = row.identity) :
    first.Inherits second := by
  intro row member
  rw [revises.requests] at member
  obtain ⟨old, inTable, rfl⟩ := List.mem_map.mp member
  exact ⟨old, inTable, kept old⟩

theorem executeTasks (deployment : Deployment) (fresh : Fresh)
    (workerId : String) (position : Nat) (taskIds : List String)
    (session : Session) (storage : Storage) :
    storage.database.Inherits (executeTasks deployment fresh workerId position
      taskIds session storage).1.database := by
  induction taskIds generalizing position session storage with
  | nil => exact refl storage.database
  | cons taskId taskIds induction =>
      have first : storage.database.Inherits (executeTask deployment
          (fresh.task position) workerId taskId session
          storage).1.database := by
        rcases executeTask_cases deployment session storage
          (fresh.task position) workerId taskId with same | ⟨_, _, rewrites⟩
        · rw [same]
          exact refl storage.database
        · obtain ⟨_, revises, kept⟩ := rewrites.revises
          exact of_revises revises kept
      exact first.trans (induction (position + 1) _ _)

theorem processOnce (deployment : Deployment) (arguments : ClaimArguments)
    (fresh : Fresh)
    (unique : Table.KeyUnique RequestTask.id storage.database.tasks) :
    storage.database.Inherits
      (processOnce deployment arguments fresh storage).1.database := by
  obtain ⟨session, taskIds, claimed, _⟩ := claimTasks_spec deployment.settings
    deployment.dialect arguments unique
  unfold FleetPrivacy.processOnce
  rw [claimed]
  dsimp only
  split
  next => exact refl storage.database
  next =>
    apply trans _ (executeTasks deployment fresh arguments.workerId 0 taskIds
      session _)
    exact of_revises (Database.markClaimed_revises ..) fun row =>
      (Database.startRow_keeps _ _ row).identity

end Database.Inherits

/-- A new request has the sources of its command. -/
theorem create_sources {tenantId : String} {command : CreateBody}
    {idempotencyKey : String} {fresh : Fresh} {request : PrivacyRequest}
    (member : request ∈ (dispatch deployment tenantId fresh storage
      (.createRequest command idempotencyKey)).1.database.requests) :
    request ∈ storage.database.requests ∨
      (SequentialCall.create tenantId command idempotencyKey
        fresh).acceptedSources = some request.requestedSources := by
  cases validated : PrivacyRequestCreate.validate command with
  | error =>
      simp only [dispatch, validated] at member
      exact .inl member
  | ok accepted =>
      simp only [dispatch, validated, createRequest] at member
      rcases createPrivacyRequest_cases deployment.runtime
        { tenantId, idempotencyKey, command := accepted, fresh }
        storage.database with same | inserted
      · rw [same] at member
        exact .inl member
      · rw [inserted] at member
        rcases List.mem_append.mp member with old | new
        · exact .inl old
        · right
          rw [List.mem_singleton.mp new]
          simp only [SequentialCall.acceptedSources, validated]
          rfl

theorem sequentialStep_sources {next : Storage} {call : SequentialCall}
    (unique : Table.KeyUnique RequestTask.id storage.database.tasks)
    (stepped : sequentialStep deployment storage call = some next) :
    ∀ request ∈ next.database.requests,
      (∃ old ∈ storage.database.requests,
        request.requestedSources = old.requestedSources) ∨
      call.acceptedSources = some request.requestedSources := by
  have inherited : storage.database.Inherits next.database →
      ∀ request ∈ next.database.requests,
        (∃ old ∈ storage.database.requests,
          request.requestedSources = old.requestedSources) ∨
        call.acceptedSources = some request.requestedSources := by
    intro inherits request member
    obtain ⟨old, inTable, same⟩ := inherits request member
    exact .inl ⟨old, inTable,
      congrArg (fun columns => columns.2.2.2.2) same⟩
  cases call with
  | create tenantId command idempotencyKey fresh =>
      simp only [sequentialStep] at stepped
      split at stepped
      next =>
        cases stepped
        intro request member
        unfold handle at member
        split at member
        next =>
          rcases create_sources member with old | accepted
          · exact .inl ⟨request, old, rfl⟩
          · exact .inr accepted
        next => exact .inl ⟨request, member, rfl⟩
      next => cases stepped
  | seed tenantId subjectKey recordsPerSource fresh =>
      cases stepped
      apply inherited
      unfold handle
      split
      next => exact fun request member => ⟨request, member, rfl⟩
      next => exact .refl storage.database
  | processOnce workerId tenantId batchSize fresh =>
      cases stepped
      exact inherited (.processOnce deployment _ fresh unique)

end WholeCalls

/-! ## Runs -/

/-- Passes that claimed something are as few as the tasks they started. -/
structure Storage.Progress (past : List Nat) (storage : Storage) : Prop where
  consistent : storage.database.Consistent []
  bounded : past.length ≤ storage.database.started

theorem Storage.Progress.initial : Storage.Progress [] .initial := by
  refine ⟨⟨⟨List.nodup_nil, List.nodup_nil, ?_, ?_⟩, ?_, ?_, ?_⟩, Nat.zero_le _⟩
  · intro task member
    cases member
  · intro task member
    cases member
  · intro task member
    cases member
  · intro requestId row found
    cases found
  · intro requestId row found
    cases found

section Runs

variable {deployment : Deployment} {storage : Storage}
  {calls : List SequentialCall}

theorem Storage.Progress.of_run
    (execution : Runs (sequentialStep deployment) Always .initial calls
      storage) :
    Storage.Progress
      (history (sequentialStep deployment) (observeClaims deployment) .initial
        calls) storage := by
  have kept : ∀ {past : List Nat} {before : Storage} {call : SequentialCall}
      {after : Storage}, Storage.Progress past before → Always before call →
      sequentialStep deployment before call = some after →
      Storage.Progress (past ++ observeClaims deployment before call)
        after := by
    intro past before call after progress _ stepped
    obtain ⟨consistent, started⟩ := progress.consistent.step stepped
    refine ⟨consistent, ?_⟩
    have bounded := progress.bounded
    rw [List.length_append]
    omega
  exact execution.invariant_with_history kept Storage.Progress.initial

/-- The sources of a request never change. -/
theorem Storage.sources_of_run {start : Storage}
    (execution : Runs (sequentialStep deployment) Always start calls storage)
    (consistent : start.database.Consistent []) :
    ∀ request ∈ storage.database.requests,
      (∃ old ∈ start.database.requests,
        request.requestedSources = old.requestedSources) ∨
      ∃ call ∈ calls,
        call.acceptedSources = some request.requestedSources := by
  induction execution with
  | nil => exact fun request member => .inl ⟨request, member, rfl⟩
  | @cons start middle finish call calls _ stepped _ induction =>
      intro request member
      have next := (consistent.step stepped).1
      rcases induction next request member with
        ⟨old, inMiddle, same⟩ | ⟨later, inCalls, accepted⟩
      · rw [same]
        rcases sequentialStep_sources consistent.formed.taskIds stepped old
          inMiddle with ⟨first, inStart, still⟩ | accepted
        · exact .inl ⟨first, inStart, still⟩
        · exact .inr ⟨call, List.mem_cons_self, accepted⟩
      · exact .inr ⟨later, List.mem_cons_of_mem call inCalls, accepted⟩

/-- Nothing that a pass without concurrent locks may claim is left out, except
by its limit. -/
theorem ClaimArguments.not_filter {arguments : ClaimArguments}
    {settings : Settings} {dialect : Dialect} {database : Database}
    (unlocked : arguments.locked = []) (positive : 0 < arguments.limit settings)
    (nothing : arguments.selected settings dialect database = [])
    {task : RequestTask} (member : task ∈ database.tasks) :
    arguments.filter task ≠ true := by
  intro passes
  have free : arguments.selected settings dialect database =
      arguments.candidates settings [] database.tasks := by
    cases dialect with
    | postgresql => rw [ClaimArguments.selected, unlocked]
    | sqlite => rfl
  rw [free, ClaimArguments.candidates] at nothing
  rcases List.take_eq_nil_iff.mp nothing with zero | empty
  · exact Nat.ne_of_gt positive zero
  · have kept : task ∈ database.tasks.filter fun task =>
        arguments.filter task && decide (task.id ∉ ([] : List String)) :=
      List.mem_filter.mpr ⟨member, by simp [passes]⟩
    rw [← Table.mem_insertionSort_iff fun first second : RequestTask =>
      first.createdAt ≤ second.createdAt, empty] at kept
    cases kept

/-- A pass that claims nothing leaves no task of its tenant `PENDING`. -/
theorem Storage.Exhausted.not_pending (exhausted : storage.Exhausted deployment)
    {task : RequestTask} (member : task ∈ storage.database.tasks) :
    task.status ≠ .pending := by
  obtain ⟨workerId, batchSize, fresh, positive, claimed⟩ :=
    exhausted task member
  intro pending
  obtain ⟨result, answered, none⟩ := Option.map_eq_some_iff.mp claimed
  have nothing : (passArguments workerId (some task.tenantId) batchSize
      fresh).selected deployment.settings deployment.dialect
        storage.database = [] := by
    rw [← ClaimArguments.claims_nothing_iff]
    unfold processOnce at answered
    dsimp only at answered
    split at answered
    next => cases answered
    next =>
      cases answered
      exact List.eq_nil_of_length_eq_zero none
  have passes : (passArguments workerId (some task.tenantId) batchSize
      fresh).filter task = true := by
    rw [ClaimArguments.filter, RequestTask.claimable_iff.mpr (.inl pending)]
    exact decide_eq_true rfl
  exact ClaimArguments.not_filter rfl positive nothing member passes

theorem Database.Consistent.task_terminal
    (consistent : storage.database.Consistent [])
    (exhausted : storage.Exhausted deployment) {task : RequestTask}
    (member : task ∈ storage.database.tasks) : task.status.Terminal := by
  have idle := consistent.idle task member List.not_mem_nil
  have claimed := exhausted.not_pending member
  cases shown : task.status with
  | pending => exact absurd shown claimed
  | running => exact absurd shown idle
  | succeeded => trivial
  | failed => trivial

/-- Nothing is left to do for a request.  Only one without tasks is not
terminal. -/
theorem Database.Consistent.derived_terminal_iff
    (consistent : storage.database.Consistent [])
    (exhausted : storage.Exhausted deployment) {request : PrivacyRequest}
    (member : request ∈ storage.database.requests) :
    (storage.database.derivedStatus request.id).Terminal ↔
      request.requestedSources ≠ [] := by
  rw [← consistent.sources request.id request
    (consistent.formed.request_eq member)]
  refine (terminal_deriveStatus_iff _).trans ?_
  rw [ne_eq, ne_eq, List.map_eq_nil_iff, List.map_eq_nil_iff]
  refine and_iff_left ?_
  intro status inTasks
  obtain ⟨task, ofRequest, rfl⟩ := List.mem_map.mp inTasks
  exact consistent.task_terminal exhausted (Database.mem_tasksOf.mp ofRequest).1

/-- Only so many passes claim something as there are tasks.  When none is left
to claim, the requests are finished exactly if each has a source, and their
sources are those of the accepted commands. -/
theorem requests_finish_iff_they_have_sources (deployment : Deployment)
    {calls : List SequentialCall} {storage : Storage}
    (execution : Runs (sequentialStep deployment) Always .initial calls
      storage) :
    (history (sequentialStep deployment) (observeClaims deployment) .initial
      calls).length ≤ storage.database.tasks.length ∧
    (∀ request ∈ storage.database.requests, ∃ call ∈ calls,
      call.acceptedSources = some request.requestedSources) ∧
    (storage.Exhausted deployment →
      (storage.Finished ↔
        ∀ request ∈ storage.database.requests,
          request.requestedSources ≠ [])) := by
  have progress := Storage.Progress.of_run execution
  have consistent := progress.consistent
  refine ⟨progress.bounded.trans List.countP_le_length, ?_, ?_⟩
  · intro request member
    rcases Storage.sources_of_run execution Storage.Progress.initial.consistent
      request member with ⟨old, inTable, _⟩ | accepted
    · cases inTable
    · exact accepted
  · intro exhausted
    constructor
    · intro finished request member
      obtain ⟨terminal, derived⟩ := finished request member
      rw [derived] at terminal
      exact (consistent.derived_terminal_iff exhausted member).mp terminal
    · intro sources request member
      have derived := consistent.derived request.id request
        (consistent.formed.request_eq member)
      refine ⟨?_, derived⟩
      rw [derived]
      exact (consistent.derived_terminal_iff exhausted member).mpr
        (sources request member)

end Runs

/-! ## Runs to the end -/

/-- Two tenants, and passes that split and mix their tasks. -/
def demoServed : List SequentialCall :=
  [ .create "aa"
      { subjectKey := "abc", kind := .access, sources := some ["jobs"] } "k"
      (letterFresh 'a'),
    .seed "bb" "abc" 1 (letterFresh 'b'),
    .create "bb" { subjectKey := "abc", kind := .delete, sources := none } "k"
      (letterFresh 'c'),
    .processOnce "w" none (some 2) (letterFresh 'd'),
    .seed "bb" "abc" 1 (letterFresh 'e'),
    .processOnce "w" (some "bb") none (letterFresh 'f'),
    .processOnce "w" (some "aa") none (letterFresh 'g') ]

/-- The same with a command that names no source. -/
def demoSourceless : List SequentialCall :=
  [ .create "aa"
      { subjectKey := "abc", kind := .access, sources := some [] } "k"
      (letterFresh 'a'),
    .processOnce "w" (some "aa") none (letterFresh 'b') ]

def demoEnd (calls : List SequentialCall) : Storage :=
  (run (sequentialStep demoDeployment) Always .initial calls).getD .initial

theorem demo_runs {calls : List SequentialCall}
    (enabled : (run (sequentialStep demoDeployment) Always .initial
      calls).isSome = true) :
    Runs (sequentialStep demoDeployment) Always .initial calls
      (demoEnd calls) := by
  obtain ⟨storage, reached⟩ := Option.isSome_iff_exists.mp enabled
  unfold demoEnd
  rw [reached]
  exact runs_of_run reached

/-- One more pass over the tenant of each task. -/
theorem demo_exhausted {storage : Storage}
    (nothing : (storage.database.tasks.all fun task =>
      decide (SequentialCall.claimed demoDeployment storage (.processOnce "w"
        (some task.tenantId) none (letterFresh 'z')) = some 0)) = true) :
    storage.Exhausted demoDeployment := by
  intro task member
  have claimed := List.all_eq_true.mp nothing task member
  exact ⟨"w", none, letterFresh 'z', Nat.succ_pos 31, of_decide_eq_true claimed⟩

theorem served_requests_finish :
    (history (sequentialStep demoDeployment) (observeClaims demoDeployment)
      .initial demoServed).length ≤ (demoEnd demoServed).database.tasks.length ∧
    (demoEnd demoServed).Finished := by
  have enabled : (run (sequentialStep demoDeployment) Always .initial
      demoServed).isSome = true := by
    decide +kernel
  obtain ⟨bounded, _, finishes⟩ := requests_finish_iff_they_have_sources
    demoDeployment (demo_runs enabled)
  refine ⟨bounded, (finishes (demo_exhausted (by decide +kernel))).mpr ?_⟩
  decide +kernel

/-- No task refers to the request, so that no pass refreshes it. -/
theorem request_without_sources_stays_queued :
    Runs (sequentialStep demoDeployment) Always .initial demoSourceless
      (demoEnd demoSourceless) ∧
    (demoEnd demoSourceless).Exhausted demoDeployment ∧
    (demoEnd demoSourceless).database.requests.map PrivacyRequest.status =
      [.queued] ∧
    ¬ (demoEnd demoSourceless).Finished := by
  have queued : (demoEnd demoSourceless).database.requests.map
      PrivacyRequest.status = [.queued] := by
    decide +kernel
  refine ⟨demo_runs (by decide +kernel), demo_exhausted (by decide +kernel),
    queued, ?_⟩
  intro finished
  obtain ⟨request, member, shown⟩ := List.mem_map.mp
    (queued ▸ List.mem_singleton_self RequestStatus.queued)
  have terminal := (finished request member).1
  rw [shown] at terminal
  exact terminal

end FleetPrivacy
