import FleetPrivacy.Api
import FleetPrivacy.ArtifactPaths

/-!
# One tenant's part of the tables

`Database.restrict` keeps the rows of one tenant.  A statement that a tenant's
call issues commutes with the restriction to that tenant, and does not show in
the restriction to another one.  Several statements select by primary key
only: for those, `Segregated` and `Session.OwnedBy` say where the keys come
from.
-/

namespace FleetPrivacy

namespace Database

/-- The rows of one tenant. -/
def restrict (tenantId : String) (database : Database) : Database :=
  { requests := database.requests.filter fun row =>
      decide (row.tenantId = tenantId)
    tasks := database.tasks.filter fun row => decide (row.tenantId = tenantId)
    outbox := database.outbox.filter fun row => decide (row.tenantId = tenantId)
    audit := database.audit.filter fun row => decide (row.tenantId = tenantId)
    records := database.records.filter fun row =>
      decide (row.tenantId = tenantId) }

/-- Ids of the requests, each with its tenant. -/
def requestOwners (database : Database) : List (String × String) :=
  database.requests.map fun request => (request.id, request.tenantId)

/-- Ids of the tasks, each with its request and its tenant. -/
def taskOwners (database : Database) : List (String × String × String) :=
  database.tasks.map fun task => (task.id, task.requestId, task.tenantId)

def recordOwners (database : Database) : List (String × String) :=
  database.records.map fun record => (record.id, record.tenantId)

/-- No row appeared, went away or changed hands. -/
structure SameOwners (before after : Database) : Prop where
  requests : after.requestOwners = before.requestOwners
  tasks : after.taskOwners = before.taskOwners
  records : after.recordOwners = before.recordOwners

theorem SameOwners.trans {first second third : Database}
    (left : SameOwners first second) (right : SameOwners second third) :
    SameOwners first third where
  requests := right.requests.trans left.requests
  tasks := right.tasks.trans left.tasks
  records := right.records.trans left.records

/-- Primary keys are unique, a task belongs to its request's tenant, and a
request id is one path component. -/
structure Segregated (database : Database) : Prop where
  requestKeys : Table.KeyUnique PrivacyRequest.id database.requests
  taskKeys : Table.KeyUnique RequestTask.id database.tasks
  recordKeys : Table.KeyUnique DeviceCloudRecord.id database.records
  parent : ∀ task ∈ database.tasks,
    (task.requestId, task.tenantId) ∈ database.requestOwners
  plain : ∀ request ∈ database.requests, '/' ∉ request.id.toList

theorem mem_requestOwners {database : Database} {requestId tenantId : String} :
    (requestId, tenantId) ∈ database.requestOwners ↔
      ∃ request ∈ database.requests,
        request.id = requestId ∧ request.tenantId = tenantId := by
  simp [requestOwners]

theorem mem_taskOwners {database : Database}
    {taskId requestId tenantId : String} :
    (taskId, requestId, tenantId) ∈ database.taskOwners ↔
      ∃ task ∈ database.tasks, task.id = taskId ∧
        task.requestId = requestId ∧ task.tenantId = tenantId := by
  simp [taskOwners]

namespace Segregated

variable {database : Database}

theorem of_sameOwners {next : Database} (segregated : database.Segregated)
    (same : SameOwners database next) : next.Segregated := by
  have requestIds : next.requests.map PrivacyRequest.id =
      database.requests.map PrivacyRequest.id := by
    simpa [requestOwners, Function.comp_def] using
      congrArg (List.map Prod.fst) same.requests
  have taskIds : next.tasks.map RequestTask.id =
      database.tasks.map RequestTask.id := by
    simpa [taskOwners, Function.comp_def] using
      congrArg (List.map Prod.fst) same.tasks
  have recordIds : next.records.map DeviceCloudRecord.id =
      database.records.map DeviceCloudRecord.id := by
    simpa [recordOwners, Function.comp_def] using
      congrArg (List.map Prod.fst) same.records
  constructor
  · unfold Table.KeyUnique
    rw [requestIds]
    exact segregated.requestKeys
  · unfold Table.KeyUnique
    rw [taskIds]
    exact segregated.taskKeys
  · unfold Table.KeyUnique
    rw [recordIds]
    exact segregated.recordKeys
  · intro task member
    have owned : (task.id, task.requestId, task.tenantId) ∈
        next.taskOwners := List.mem_map.mpr ⟨task, member, rfl⟩
    rw [same.tasks] at owned
    obtain ⟨old, oldMember, _, sameRequest, sameTenant⟩ :=
      mem_taskOwners.mp owned
    rw [same.requests, ← sameRequest, ← sameTenant]
    exact segregated.parent old oldMember
  · intro request member
    have present : request.id ∈ next.requests.map PrivacyRequest.id :=
      List.mem_map.mpr ⟨request, member, rfl⟩
    rw [requestIds] at present
    obtain ⟨old, oldMember, sameId⟩ := List.mem_map.mp present
    rw [← sameId]
    exact segregated.plain old oldMember

/-- A request id has one tenant. -/
theorem request_tenant (segregated : database.Segregated)
    {requestId tenantId : String}
    (owned : (requestId, tenantId) ∈ database.requestOwners)
    {request : PrivacyRequest} (member : request ∈ database.requests)
    (same : request.id = requestId) : request.tenantId = tenantId := by
  obtain ⟨owner, ownerMember, ownerId, ownerTenant⟩ :=
    mem_requestOwners.mp owned
  rw [segregated.requestKeys.eq_of_mem member ownerMember
    (same.trans ownerId.symm)]
  exact ownerTenant

/-- A task id has one tenant and one request. -/
theorem task_tenant (segregated : database.Segregated)
    {taskId requestId tenantId : String}
    (owned : (taskId, requestId, tenantId) ∈ database.taskOwners)
    {task : RequestTask} (member : task ∈ database.tasks)
    (same : task.id = taskId) :
    task.tenantId = tenantId ∧ task.requestId = requestId := by
  obtain ⟨owner, ownerMember, ownerId, ownerRequest, ownerTenant⟩ :=
    mem_taskOwners.mp owned
  rw [segregated.taskKeys.eq_of_mem member ownerMember
    (same.trans ownerId.symm)]
  exact ⟨ownerTenant, ownerRequest⟩

/-- Tasks of a tenant's request are the tenant's. -/
theorem member_tenant (segregated : database.Segregated)
    {requestId tenantId : String}
    (owned : (requestId, tenantId) ∈ database.requestOwners)
    {task : RequestTask} (member : task ∈ database.tasks)
    (same : task.requestId = requestId) : task.tenantId = tenantId := by
  obtain ⟨request, present, sameId, sameTenant⟩ :=
    mem_requestOwners.mp (segregated.parent task member)
  rw [← sameTenant]
  exact segregated.request_tenant owned present (sameId.trans same)

theorem record_tenant (segregated : database.Segregated)
    {first second : DeviceCloudRecord} (left : first ∈ database.records)
    (right : second ∈ database.records) (same : first.id = second.id) :
    first.tenantId = second.tenantId := by
  rw [segregated.recordKeys.eq_of_mem left right same]

end Segregated

end Database

/-! ## Sessions of one tenant's calls -/

/-- Every copy that the session holds is of a row of the tenant. -/
structure Session.OwnedBy (session : Session) (tenantId : String)
    (database : Database) : Prop where
  task : ∀ {id copy}, session.task id = some copy →
    copy.id = id ∧ copy.tenantId = tenantId ∧
      (id, copy.requestId, tenantId) ∈ database.taskOwners
  request : ∀ {id copy}, session.request id = some copy →
    copy.id = id ∧ copy.tenantId = tenantId ∧
      (id, tenantId) ∈ database.requestOwners

namespace Session.OwnedBy

variable {session : Session} {tenantId : String} {database : Database}

theorem of_sameOwners {next : Database}
    (owned : session.OwnedBy tenantId database)
    (same : Database.SameOwners database next) :
    session.OwnedBy tenantId next where
  task := by
    intro id copy held
    rw [same.tasks]
    exact owned.task held
  request := by
    intro id copy held
    rw [same.requests]
    exact owned.request held

theorem loadTasks (owned : session.OwnedBy tenantId database)
    {rows : List RequestTask} (fromTable : ∀ row ∈ rows,
      row ∈ database.tasks ∧ row.tenantId = tenantId) :
    (session.loadTasks rows).OwnedBy tenantId database where
  task := by
    intro id copy held
    rcases Option.or_eq_some_iff.mp held with kept | ⟨_, loaded⟩
    · exact owned.task kept
    · obtain ⟨member, same⟩ := Table.get_mem loaded
      obtain ⟨present, tenant⟩ := fromTable copy member
      exact ⟨same, tenant,
        Database.mem_taskOwners.mpr ⟨copy, present, same, rfl, tenant⟩⟩
  request := owned.request

theorem loadRequests (owned : session.OwnedBy tenantId database)
    {rows : List PrivacyRequest} (fromTable : ∀ row ∈ rows,
      row ∈ database.requests ∧ row.tenantId = tenantId) :
    (session.loadRequests rows).OwnedBy tenantId database where
  task := owned.task
  request := by
    intro id copy held
    rcases Option.or_eq_some_iff.mp held with kept | ⟨_, loaded⟩
    · exact owned.request kept
    · obtain ⟨member, same⟩ := Table.get_mem loaded
      obtain ⟨present, tenant⟩ := fromTable copy member
      exact ⟨same, tenant,
        Database.mem_requestOwners.mpr ⟨copy, present, same, tenant⟩⟩

theorem loadRefresh (owned : session.OwnedBy tenantId database)
    (segregated : database.Segregated) {requestId : String}
    (mine : (requestId, tenantId) ∈ database.requestOwners) :
    (session.loadRefresh database requestId).OwnedBy tenantId database := by
  have requestRows : ∀ row ∈ database.requests.filter fun request =>
      decide (request.id = requestId),
      row ∈ database.requests ∧ row.tenantId = tenantId := by
    intro row member
    obtain ⟨present, same⟩ := List.mem_filter.mp member
    exact ⟨present, segregated.request_tenant mine present
      (of_decide_eq_true same)⟩
  have taskRows : ∀ row ∈ database.tasksOf requestId,
      row ∈ database.tasks ∧ row.tenantId = tenantId := by
    intro row member
    obtain ⟨present, same⟩ := List.mem_filter.mp member
    exact ⟨present, segregated.member_tenant mine present
      (of_decide_eq_true same)⟩
  have loaded := (owned.loadRequests requestRows).loadTasks taskRows
  exact ⟨loaded.task, loaded.request⟩

theorem putTask (owned : session.OwnedBy tenantId database)
    {task : RequestTask} (tenant : task.tenantId = tenantId)
    (present : (task.id, task.requestId, tenantId) ∈ database.taskOwners) :
    (session.putTask task).OwnedBy tenantId database where
  task := by
    intro id copy held
    simp only [Session.putTask] at held
    split at held
    next same =>
      cases held
      exact ⟨same.symm, tenant, same ▸ present⟩
    next => exact owned.task held
  request := owned.request

theorem putRequest (owned : session.OwnedBy tenantId database)
    {request : PrivacyRequest} (tenant : request.tenantId = tenantId)
    (present : (request.id, tenantId) ∈ database.requestOwners) :
    (session.putRequest request).OwnedBy tenantId database where
  task := owned.task
  request := by
    intro id copy held
    simp only [Session.putRequest] at held
    split at held
    next same =>
      cases held
      exact ⟨same.symm, tenant, same ▸ present⟩
    next => exact owned.request held

end Session.OwnedBy

/-! ## Columns that no update touches -/

namespace RequestTask

@[simp] theorem flush_tenantId (loaded current committed : RequestTask) :
    (loaded.flush current committed).tenantId = committed.tenantId := rfl

@[simp] theorem claim_tenantId (workerId : String) (leaseUntil : Time)
    (task : RequestTask) :
    (task.claim workerId leaseUntil).tenantId = task.tenantId := rfl

@[simp] theorem settle_tenantId (settings : Settings) (executor : Bool)
    (ending : Ending) (task : RequestTask) :
    (task.settle settings executor ending).tenantId = task.tenantId := by
  cases ending <;> rfl

end RequestTask

namespace PrivacyRequest

@[simp] theorem flush_tenantId (loaded current committed : PrivacyRequest)
    (now : Time) :
    (loaded.flush current committed now).tenantId = committed.tenantId := rfl

@[simp] theorem verify_tenantId (request : PrivacyRequest) :
    request.verify.tenantId = request.tenantId := by
  unfold verify
  cases request.kind <;> rfl

@[simp] theorem refresh_tenantId (request : PrivacyRequest)
    (status : RequestStatus) (reference : Option String) :
    (request.refresh status reference).tenantId = request.tenantId := rfl

end PrivacyRequest

/-! ## The audit chain -/

section Audit

variable (runtime : Runtime) {tenantId viewer : String}

theorem auditHead_filter (tenantId : String) (rows : List AuditEvent) :
    auditHead tenantId (rows.filter fun row =>
        decide (row.tenantId = tenantId)) = auditHead tenantId rows := by
  simp [auditHead, List.filter_filter]

theorem appendAudit_filter_own (tenantId requestId action : String)
    (payload : Json) (rows : List AuditEvent) :
    (appendAudit runtime tenantId requestId action payload rows).filter
        (fun row => decide (row.tenantId = tenantId)) =
      appendAudit runtime tenantId requestId action payload
        (rows.filter fun row => decide (row.tenantId = tenantId)) := by
  simp [appendAudit, auditHead_filter, auditRow]

theorem appendAudit_filter_foreign (foreign : tenantId ≠ viewer)
    (requestId action : String) (payload : Json) (rows : List AuditEvent) :
    (appendAudit runtime tenantId requestId action payload rows).filter
        (fun row => decide (row.tenantId = viewer)) =
      rows.filter fun row => decide (row.tenantId = viewer) := by
  simp [appendAudit, auditRow, foreign]

theorem verifyAuditChain_filter (tenantId : String) (rows : List AuditEvent) :
    verifyAuditChain runtime tenantId
        (rows.filter fun row => decide (row.tenantId = tenantId)) =
      verifyAuditChain runtime tenantId rows := by
  simp [verifyAuditChain, auditEvents, List.filter_filter]

end Audit

/-! ## Claiming -/

namespace Database

variable {database : Database} {tenantId viewer : String}

theorem sameOwners_markClaimed (database : Database) (taskIds : List String)
    (workerId : String) (leaseUntil now : Time) :
    SameOwners database
      (database.markClaimed taskIds workerId leaseUntil now) where
  requests := by
    apply Table.map_updateWhere
    intro request
    rfl
  tasks := by
    apply Table.map_updateWhere
    intro task
    rfl
  records := rfl

/-- The ids are of tasks of the tenant. -/
def OwnsTasks (database : Database) (tenantId : String)
    (taskIds : List String) : Prop :=
  ∀ taskId ∈ taskIds, ∃ requestId,
    (taskId, requestId, tenantId) ∈ database.taskOwners

theorem OwnsTasks.tenant {taskIds : List String}
    (owns : database.OwnsTasks tenantId taskIds)
    (segregated : database.Segregated) {task : RequestTask}
    (member : task ∈ database.tasks) (listed : task.id ∈ taskIds) :
    task.tenantId = tenantId := by
  obtain ⟨requestId, owned⟩ := owns task.id listed
  exact (segregated.task_tenant owned member rfl).1

theorem restrict_markClaimed_own {taskIds : List String}
    (segregated : database.Segregated)
    (owns : database.OwnsTasks tenantId taskIds) (workerId : String)
    (leaseUntil now : Time) :
    (database.markClaimed taskIds workerId leaseUntil now).restrict tenantId =
      (database.restrict tenantId).markClaimed taskIds workerId leaseUntil
        now := by
  have started : (database.restrict tenantId).requestIdsOf taskIds =
      database.requestIdsOf taskIds := by
    unfold requestIdsOf restrict
    rw [Table.filter_filter_of_imp]
    intro task member listed
    exact decide_eq_true
      (owns.tenant segregated member (of_decide_eq_true listed))
  simp only [markClaimed, started]
  simp only [restrict, startRequests, mk.injEq, and_self, and_true]
  constructor
  · apply Table.filter_updateWhere
    intro request
    rfl
  · apply Table.filter_updateWhere
    intro task
    rfl

theorem restrict_markClaimed_foreign {taskIds : List String}
    (foreign : tenantId ≠ viewer) (segregated : database.Segregated)
    (owns : database.OwnsTasks tenantId taskIds) (workerId : String)
    (leaseUntil now : Time) :
    (database.markClaimed taskIds workerId leaseUntil now).restrict viewer =
      database.restrict viewer := by
  have tasks : ∀ task ∈ database.tasks,
      decide (task.tenantId = viewer) = true →
        decide (task.id ∈ taskIds) = false := by
    intro task member viewed
    apply decide_eq_false
    intro listed
    exact foreign ((owns.tenant segregated member listed).symm.trans
      (of_decide_eq_true viewed))
  have requests : ∀ request ∈ database.requests,
      decide (request.tenantId = viewer) = true →
        (decide (request.id ∈ database.requestIdsOf taskIds) &&
          decide (request.status = .queued)) = false := by
    intro request member viewed
    rw [Bool.and_eq_false_iff]
    refine .inl (decide_eq_false ?_)
    intro listed
    obtain ⟨task, selected, sameId⟩ := List.mem_map.mp listed
    obtain ⟨present, chosen⟩ := List.mem_filter.mp selected
    have tenant := owns.tenant segregated present (of_decide_eq_true chosen)
    have parent := segregated.parent task present
    rw [tenant] at parent
    have same := segregated.request_tenant parent member sameId.symm
    exact foreign (same.symm.trans (of_decide_eq_true viewed))
  simp only [markClaimed, restrict, startRequests, mk.injEq, and_self,
    and_true]
  constructor
  · apply Table.filter_updateWhere_of_disjoint _ requests
    intro request
    rfl
  · apply Table.filter_updateWhere_of_disjoint _ tasks
    intro task
    rfl

end Database

section Claim

variable (settings : Settings) (dialect : Dialect)
  {arguments : ClaimArguments} {database : Database} {tenantId : String}

theorem ClaimArguments.tenant_of_filter
    (confined : arguments.tenantId = some tenantId) {task : RequestTask}
    (matching : arguments.filter task = true) : task.tenantId = tenantId := by
  simp only [filter, confined, Bool.and_eq_true, decide_eq_true_eq] at matching
  exact matching.2

theorem ClaimArguments.candidates_restrict
    (confined : arguments.tenantId = some tenantId) (locked : List String)
    (tasks : List RequestTask) :
    arguments.candidates settings locked
        (tasks.filter fun row => decide (row.tenantId = tenantId)) =
      arguments.candidates settings locked tasks := by
  unfold candidates
  rw [Table.filter_filter_of_imp]
  intro task _ matching
  exact decide_eq_true (tenant_of_filter confined
    (Bool.and_eq_true _ _ ▸ matching).1)

/-- A claim for one tenant claims tasks of that tenant. -/
theorem claimTasks_owns (confined : arguments.tenantId = some tenantId) :
    database.OwnsTasks tenantId
      (claimTasks settings dialect arguments database).2.2 := by
  intro taskId member
  have selected : ∃ row ∈ database.tasks,
      row.id = taskId ∧ arguments.filter row = true := by
    cases dialect with
    | postgresql =>
        obtain ⟨row, candidate, same⟩ := List.mem_map.mp member
        obtain ⟨present, matching⟩ := ClaimArguments.mem_candidates candidate
        exact ⟨row, present, same, matching⟩
    | sqlite =>
        obtain ⟨row, candidate, same⟩ := List.mem_map.mp member
        obtain ⟨present, matching⟩ := List.mem_filter.mp candidate
        exact ⟨row, present, same, (Bool.and_eq_true _ _ ▸ matching).2⟩
  obtain ⟨row, present, same, matching⟩ := selected
  exact ⟨row.requestId, Database.mem_taskOwners.mpr ⟨row, present, same, rfl,
    ClaimArguments.tenant_of_filter confined matching⟩⟩

/-- The claim selects the same tasks from the tenant's rows alone. -/
theorem claimTasks_restrict_selection
    (confined : arguments.tenantId = some tenantId) :
    (claimTasks settings dialect arguments (database.restrict tenantId)).2 =
      (claimTasks settings dialect arguments database).2 := by
  cases dialect with
  | postgresql =>
      simp only [claimTasks, Database.restrict,
        ClaimArguments.candidates_restrict settings confined]
  | sqlite =>
      simp only [claimTasks, Database.restrict,
        ClaimArguments.candidates_restrict settings confined]
      rw [Table.filter_filter_of_imp]
      intro task _ matching
      exact decide_eq_true (ClaimArguments.tenant_of_filter confined
        (Bool.and_eq_true _ _ ▸ matching).2)

theorem Database.Segregated.restrict (segregated : database.Segregated)
    (tenantId : String) : (database.restrict tenantId).Segregated where
  requestKeys := segregated.requestKeys.filter _
  taskKeys := segregated.taskKeys.filter _
  recordKeys := segregated.recordKeys.filter _
  parent := by
    intro task member
    obtain ⟨present, tenant⟩ := List.mem_filter.mp member
    obtain ⟨request, requestMember, sameId, sameTenant⟩ :=
      Database.mem_requestOwners.mp (segregated.parent task present)
    apply Database.mem_requestOwners.mpr
    refine ⟨request, List.mem_filter.mpr ⟨requestMember, ?_⟩, sameId,
      sameTenant⟩
    rw [sameTenant]
    exact tenant
  plain := by
    intro request member
    exact segregated.plain request (List.mem_filter.mp member).1

/-- A tenant's claim can be made on the tenant's rows. -/
theorem claimTasks_restrict_own (confined : arguments.tenantId = some tenantId)
    (segregated : database.Segregated) :
    claimTasks settings dialect arguments (database.restrict tenantId) =
      ((claimTasks settings dialect arguments database).1.restrict tenantId,
        (claimTasks settings dialect arguments database).2) := by
  have selection : (claimTasks settings dialect arguments
      (database.restrict tenantId)).2 =
      (claimTasks settings dialect arguments database).2 :=
    claimTasks_restrict_selection settings dialect confined
  have owns : database.OwnsTasks tenantId
      (claimTasks settings dialect arguments database).2.2 :=
    claimTasks_owns settings dialect confined
  obtain ⟨session, taskIds, claimed, _⟩ := claimTasks_spec settings dialect
    arguments segregated.taskKeys
  obtain ⟨viewSession, viewIds, viewClaimed, _⟩ := claimTasks_spec settings
    dialect arguments (segregated.restrict tenantId).taskKeys
  rw [claimed, viewClaimed] at selection
  rw [claimed] at owns
  cases selection
  rw [claimed, viewClaimed]
  exact Prod.ext
    (Database.restrict_markClaimed_own segregated owns _ _ _).symm rfl

theorem claimTasks_restrict_foreign {viewer : String}
    (foreign : tenantId ≠ viewer)
    (confined : arguments.tenantId = some tenantId)
    (segregated : database.Segregated) :
    (claimTasks settings dialect arguments database).1.restrict viewer =
      database.restrict viewer := by
  have owns : database.OwnsTasks tenantId
      (claimTasks settings dialect arguments database).2.2 :=
    claimTasks_owns settings dialect confined
  obtain ⟨session, taskIds, claimed, _⟩ := claimTasks_spec settings dialect
    arguments segregated.taskKeys
  rw [claimed] at owns ⊢
  exact Database.restrict_markClaimed_foreign foreign segregated owns _ _ _

theorem claimTasks_sameOwners (segregated : database.Segregated) :
    Database.SameOwners database
      (claimTasks settings dialect arguments database).1 := by
  obtain ⟨session, taskIds, claimed, _⟩ := claimTasks_spec settings dialect
    arguments segregated.taskKeys
  rw [claimed]
  exact Database.sameOwners_markClaimed _ _ _ _ _

/-- The session that a tenant's claim leaves holds rows of the tenant. -/
theorem claimTasks_session (confined : arguments.tenantId = some tenantId)
    (segregated : database.Segregated) :
    (claimTasks settings dialect arguments database).2.1.OwnedBy tenantId
      database := by
  have owns : database.OwnsTasks tenantId
      (claimTasks settings dialect arguments database).2.2 :=
    claimTasks_owns settings dialect confined
  obtain ⟨session, taskIds, claimed, _, copies, noRequest, _⟩ :=
    claimTasks_spec settings dialect arguments segregated.taskKeys
  rw [claimed] at owns ⊢
  constructor
  · intro id copy held
    obtain ⟨row, present, same, listed, rfl⟩ := copies id copy held
    obtain ⟨requestId, owned⟩ := owns id listed
    obtain ⟨tenant, _⟩ := segregated.task_tenant owned present same
    exact ⟨same, tenant,
      Database.mem_taskOwners.mpr ⟨row, present, same, rfl, tenant⟩⟩
  · intro id copy held
    have empty : session.request id = none := by rw [noRequest]; rfl
    rw [empty] at held
    cases held

end Claim

/-! ## Source work and its outcome -/

section Outcome

variable {database : Database} {tenantId viewer : String}
  {task : RequestTask} {request : PrivacyRequest}

theorem activeRecords_restrict (tenant : task.tenantId = tenantId)
    (request : PrivacyRequest) (database : Database) :
    activeRecords (database.restrict tenantId) task request =
      activeRecords database task request := by
  apply Table.filter_filter_of_imp
  intro record _ matching
  exact decide_eq_true ((of_decide_eq_true matching).1.trans tenant)

theorem markDeleted_filter (ids : List String) (now : Time)
    (records : List DeviceCloudRecord) :
    (markDeleted ids now records).filter
        (fun row => decide (row.tenantId = tenantId)) =
      markDeleted ids now (records.filter fun row =>
        decide (row.tenantId = tenantId)) := by
  apply Table.filter_updateWhere
  intro record
  rfl

/-- The database backend answers from the tenant's records. -/
theorem databaseWork_restrict (tenant : task.tenantId = tenantId)
    (deletedAt : Time) :
    databaseWork (database.restrict tenantId) task request deletedAt =
      databaseWork database task request deletedAt := by
  have active : activeRecords (database.restrict tenantId) task request =
      activeRecords database task request :=
    activeRecords_restrict tenant request database
  have remaining : remainingRecords (database.restrict tenantId) task request
      deletedAt = remainingRecords database task request deletedAt := by
    let marked : Database := { database with
      records := markDeleted ((activeRecords database task request).map
        DeviceCloudRecord.id) deletedAt database.records }
    have restricted := activeRecords_restrict tenant request marked
    simp only [marked, Database.restrict, markDeleted_filter] at restricted
    simp only [remainingRecords, active]
    exact restricted
  simp only [databaseWork, executeAccess, executeDelete, active, remaining]

/-- The rows that a deletion marks are active records of the task's tenant. -/
theorem mem_databaseWork_deleted {deletedAt : Time} {recordId : String}
    (marked : recordId ∈
      (databaseWork database task request deletedAt).deleted) :
    ∃ record ∈ database.records,
      record.id = recordId ∧ record.tenantId = task.tenantId := by
  unfold databaseWork at marked
  split at marked
  next => cases marked
  next =>
    obtain ⟨record, active, same⟩ := List.mem_map.mp marked
    obtain ⟨present, matching⟩ := List.mem_filter.mp active
    exact ⟨record, present, same, (of_decide_eq_true matching).1⟩

variable (runtime : Runtime) (settings : Settings)

theorem recordOutcome_sameOwners (executor : Bool) (work : Work)
    (task : RequestTask) (request : PrivacyRequest) (now : Time)
    (database : Database) :
    Database.SameOwners database (recordOutcome runtime settings executor work
      task request now database) where
  requests := by
    apply Table.map_updateWhere
    intro row
    rfl
  tasks := by
    apply Table.map_updateWhere
    intro row
    rfl
  records := by
    apply Table.map_updateWhere
    intro row
    rfl

theorem recordOutcome_restrict_own (tenant : task.tenantId = tenantId)
    (executor : Bool) (work : Work) (now : Time) :
    recordOutcome runtime settings executor work task request now
        (database.restrict tenantId) =
      (recordOutcome runtime settings executor work task request now
        database).restrict tenantId := by
  simp only [recordOutcome, Database.restrict, Database.mk.injEq, true_and,
    markDeleted_filter, tenant, appendAudit_filter_own]
  refine ⟨Eq.symm ?_, Eq.symm ?_, trivial⟩
  · apply Table.filter_updateWhere
    intro row
    rfl
  · apply Table.filter_updateWhere
    intro row
    rfl

theorem recordOutcome_restrict_foreign (foreign : tenantId ≠ viewer)
    (segregated : database.Segregated) {session : Session}
    (owned : session.OwnedBy tenantId database) {taskId requestId : String}
    (heldTask : session.task taskId = some task)
    (heldRequest : session.request requestId = some request)
    (executor : Bool) {work : Work}
    (deleted : ∀ recordId ∈ work.deleted, ∃ record ∈ database.records,
      record.id = recordId ∧ record.tenantId = tenantId)
    (now : Time) :
    (recordOutcome runtime settings executor work task request now
        database).restrict viewer = database.restrict viewer := by
  obtain ⟨taskSame, taskTenant, taskOwned⟩ := owned.task heldTask
  obtain ⟨requestSame, _, requestOwned⟩ := owned.request heldRequest
  have tasks : ∀ row ∈ database.tasks,
      decide (row.tenantId = viewer) = true →
        decide (row.id = task.id) = false := by
    intro row member viewed
    apply decide_eq_false
    intro same
    have tenant := (segregated.task_tenant taskOwned member
      (same.trans taskSame)).1
    exact foreign (tenant.symm.trans (of_decide_eq_true viewed))
  have requests : ∀ row ∈ database.requests,
      decide (row.tenantId = viewer) = true →
        decide (row.id = request.id) = false := by
    intro row member viewed
    apply decide_eq_false
    intro same
    have tenant := segregated.request_tenant requestOwned member
      (same.trans requestSame)
    exact foreign (tenant.symm.trans (of_decide_eq_true viewed))
  have records : ∀ row ∈ database.records,
      decide (row.tenantId = viewer) = true →
        decide (row.id ∈ work.deleted) = false := by
    intro row member viewed
    apply decide_eq_false
    intro listed
    obtain ⟨record, present, same, tenant⟩ := deleted row.id listed
    have shared := segregated.record_tenant present member same
    exact foreign (tenant.symm.trans
      (shared.trans (of_decide_eq_true viewed)))
  have audit := appendAudit_filter_foreign runtime
    (show task.tenantId ≠ viewer from taskTenant ▸ foreign)
  simp only [recordOutcome, Database.restrict, Database.mk.injEq, audit,
    true_and]
  refine ⟨?_, ?_, ?_⟩
  · apply Table.filter_updateWhere_of_disjoint _ requests
    intro row
    rfl
  · apply Table.filter_updateWhere_of_disjoint _ tasks
    intro row
    rfl
  · apply Table.filter_updateWhere_of_disjoint _ records
    intro row
    rfl

end Outcome

/-! ## Selecting and refreshing -/

section Refresh

variable {database : Database} {tenantId viewer : String}
  {request : PrivacyRequest} {session : Session}

theorem requests_filter_id (segregated : database.Segregated)
    {requestId : String}
    (mine : (requestId, tenantId) ∈ database.requestOwners) :
    ((database.restrict tenantId).requests.filter fun row =>
        decide (row.id = requestId)) =
      database.requests.filter fun row => decide (row.id = requestId) := by
  apply Table.filter_filter_of_imp
  intro row member same
  exact decide_eq_true
    (segregated.request_tenant mine member (of_decide_eq_true same))

theorem tasksOf_restrict (segregated : database.Segregated)
    {requestId : String}
    (mine : (requestId, tenantId) ∈ database.requestOwners) :
    (database.restrict tenantId).tasksOf requestId =
      database.tasksOf requestId := by
  apply Table.filter_filter_of_imp
  intro row member same
  exact decide_eq_true
    (segregated.member_tenant mine member (of_decide_eq_true same))

theorem loadRefresh_restrict (segregated : database.Segregated)
    {requestId : String}
    (mine : (requestId, tenantId) ∈ database.requestOwners)
    (session : Session) :
    session.loadRefresh (database.restrict tenantId) requestId =
      session.loadRefresh database requestId := by
  unfold Session.loadRefresh
  rw [requests_filter_id segregated mine, tasksOf_restrict segregated mine]

variable (runtime : Runtime)

theorem commitRefresh_sameOwners (session : Session)
    (request : PrivacyRequest) (reference : Option String)
    (noticeId : String) (now : Time) (database : Database) :
    Database.SameOwners database (commitRefresh runtime session request
      reference noticeId now database) := by
  simp only [commitRefresh]
  split
  · refine ⟨?_, rfl, rfl⟩
    apply Table.map_updateWhere
    intro row
    rfl
  · refine ⟨?_, rfl, rfl⟩
    apply Table.map_updateWhere
    intro row
    rfl

theorem commitRefresh_restrict_own (tenant : request.tenantId = tenantId)
    (session : Session) (reference : Option String) (noticeId : String)
    (now : Time) :
    commitRefresh runtime session request reference noticeId now
        (database.restrict tenantId) =
      (commitRefresh runtime session request reference noticeId now
        database).restrict tenantId := by
  have requests : ∀ current : PrivacyRequest,
      (Table.updateWhere (fun row => decide (row.id = request.id))
        (fun row => request.flush current row now)
        database.requests).filter (fun row =>
          decide (row.tenantId = tenantId)) =
      Table.updateWhere (fun row => decide (row.id = request.id))
        (fun row => request.flush current row now)
        (database.requests.filter fun row =>
          decide (row.tenantId = tenantId)) := by
    intro current
    apply Table.filter_updateWhere
    intro row
    rfl
  by_cases final :
      request.becomesTerminal (session.derivedStatus request.id) = true
  · simp [commitRefresh, final, Database.restrict, enqueueOutbox, tenant,
      appendAudit_filter_own, requests]
  · simp [commitRefresh, final, Database.restrict, requests]

theorem commitRefresh_restrict_foreign (foreign : tenantId ≠ viewer)
    (segregated : database.Segregated)
    (owned : (request.id, tenantId) ∈ database.requestOwners)
    (tenant : request.tenantId = tenantId) (session : Session)
    (reference : Option String) (noticeId : String) (now : Time) :
    (commitRefresh runtime session request reference noticeId now
        database).restrict viewer = database.restrict viewer := by
  have others : ∀ row ∈ database.requests,
      decide (row.tenantId = viewer) = true →
        decide (row.id = request.id) = false := by
    intro row member viewed
    apply decide_eq_false
    intro same
    have shared := segregated.request_tenant owned member same
    exact foreign (shared.symm.trans (of_decide_eq_true viewed))
  have requests : ∀ current : PrivacyRequest,
      (Table.updateWhere (fun row => decide (row.id = request.id))
        (fun row => request.flush current row now)
        database.requests).filter (fun row =>
          decide (row.tenantId = viewer)) =
      database.requests.filter fun row =>
        decide (row.tenantId = viewer) := by
    intro current
    apply Table.filter_updateWhere_of_disjoint _ others
    intro row
    rfl
  have audit := appendAudit_filter_foreign runtime foreign
  by_cases final :
      request.becomesTerminal (session.derivedStatus request.id) = true
  · simp [commitRefresh, final, Database.restrict, enqueueOutbox, tenant,
      foreign, audit, requests]
  · simp [commitRefresh, final, Database.restrict, requests]

end Refresh

end FleetPrivacy
