import FleetPrivacy.ControlPlane
import FleetPrivacy.Library.Unwinding
import FleetPrivacy.TenantView

/-!
# Tenants do not interfere

A tenant's operations can be replayed on the tenant's part of the storage, and
the operations of other tenants leave this part alone.  Responses and rows of
one tenant are therefore the same in all histories that agree on the tenant's
own operations.
-/

namespace FleetPrivacy

/-! ## One tenant's part of the storage -/

/-- The place is of an artifact of one of the tenant's requests. -/
def Database.places (database : Database) (deployment : Deployment)
    (tenantId : String) (location : ArtifactLocation) : Bool :=
  database.requestOwners.any fun owner =>
    decide (owner.2 = tenantId ∧
      location = artifactLocation deployment tenantId owner.1)

/-- The tenant's rows and the artifacts of the tenant's requests. -/
def Storage.restrict (deployment : Deployment) (tenantId : String)
    (storage : Storage) : Storage :=
  { database := storage.database.restrict tenantId
    artifacts := storage.artifacts.filter fun entry =>
      storage.database.places deployment tenantId entry.1 }

@[simp] theorem Storage.restrict_database (deployment : Deployment)
    (tenantId : String) (storage : Storage) :
    (storage.restrict deployment tenantId).database =
      storage.database.restrict tenantId := rfl

/-- An artifact path is the uri that `put_json` returned for the request. -/
def PathsOwned (settings : Settings) (requests : List PrivacyRequest) : Prop :=
  ∀ request ∈ requests, ∀ path, request.artifactPath = some path →
    path = artifactUri settings request.tenantId request.id

structure Storage.Sound (deployment : Deployment) (storage : Storage) :
    Prop where
  segregated : storage.database.Segregated
  paths : PathsOwned deployment.settings storage.database.requests
  stored : ∀ entry ∈ storage.artifacts, ∃ requestId tenantId,
    (requestId, tenantId) ∈ storage.database.requestOwners ∧
      entry.1 = artifactLocation deployment tenantId requestId

theorem Storage.sound_initial (deployment : Deployment) :
    Storage.initial.Sound deployment := by
  constructor
  · constructor
    · exact List.nodup_nil
    · exact List.nodup_nil
    · exact List.nodup_nil
    · simp [Storage.initial, Database.empty]
    · simp [Storage.initial, Database.empty]
  · simp [PathsOwned, Storage.initial, Database.empty]
  · simp [Storage.initial]

section Places

variable {deployment : Deployment} {database : Database}
  {tenantId viewer : String}

theorem Database.places_iff {location : ArtifactLocation} :
    database.places deployment tenantId location = true ↔
      ∃ requestId, (requestId, tenantId) ∈ database.requestOwners ∧
        location = artifactLocation deployment tenantId requestId := by
  simp only [places, List.any_eq_true, decide_eq_true_eq]
  constructor
  · rintro ⟨⟨requestId, owner⟩, member, same, located⟩
    cases same
    exact ⟨requestId, member, located⟩
  · rintro ⟨requestId, member, located⟩
    exact ⟨(requestId, tenantId), member, rfl, located⟩

theorem Database.SameOwners.places {next : Database}
    (same : SameOwners database next) (deployment : Deployment)
    (tenantId : String) :
    next.places deployment tenantId = database.places deployment tenantId := by
  funext location
  simp only [Database.places, same.requests]

/-- Another tenant's request keeps its artifact elsewhere. -/
theorem Database.Segregated.places_foreign
    (segregated : database.Segregated) (deployment : Deployment)
    (foreign : tenantId ≠ viewer) {requestId : String}
    (owned : (requestId, tenantId) ∈ database.requestOwners) :
    database.places deployment viewer
      (artifactLocation deployment tenantId requestId) = false := by
  rw [Bool.eq_false_iff]
  intro placed
  obtain ⟨other, otherOwned, located⟩ := places_iff.mp placed
  obtain ⟨request, present, sameId, _⟩ := mem_requestOwners.mp owned
  obtain ⟨viewed, viewedPresent, viewedId, viewedTenant⟩ :=
    mem_requestOwners.mp otherOwned
  have plain : '/' ∉ requestId.toList := by
    rw [← sameId]
    exact segregated.plain request present
  have viewedPlain : '/' ∉ other.toList := by
    rw [← viewedId]
    exact segregated.plain viewed viewedPresent
  have same := artifactLocation_injective plain viewedPlain located
  have tenant := segregated.request_tenant owned viewedPresent
    (viewedId.trans same.symm)
  exact foreign (tenant.symm.trans viewedTenant)

end Places

/-! ## Artifact paths -/

theorem PathsOwned.updateWhere {settings : Settings}
    {requests : List PrivacyRequest} (paths : PathsOwned settings requests)
    {matching : PrivacyRequest → Bool}
    {change : PrivacyRequest → PrivacyRequest}
    (kept : ∀ row, (change row).id = row.id ∧
      (change row).tenantId = row.tenantId)
    (path : ∀ row ∈ requests, matching row = true →
      (change row).artifactPath = row.artifactPath ∨
        (change row).artifactPath =
          some (artifactUri settings row.tenantId row.id)) :
    PathsOwned settings (Table.updateWhere matching change requests) := by
  intro row member text shown
  obtain ⟨old, present, rfl⟩ := Table.mem_updateWhere.mp member
  split at shown
  next hit =>
    rw [if_pos hit, (kept old).1, (kept old).2]
    rcases path old present hit with same | written
    · exact paths old present text (same ▸ shown)
    · rw [written] at shown
      exact (Option.some.inj shown).symm
  next miss =>
    rw [if_neg miss]
    exact paths old present text shown

theorem PrivacyRequest.flush_verify_artifactPath
    (request committed : PrivacyRequest) (now : Time) :
    (request.flush request.verify committed now).artifactPath =
      committed.artifactPath := by
  simp [flush]

/-- A refresh writes the path column only with the uri it was given. -/
theorem PrivacyRequest.flush_refresh_artifactPath
    (request committed : PrivacyRequest) (status : RequestStatus)
    (uri : String) (now : Time) :
    let reference := if request.needsArtifact status then some uri else none
    (request.flush (request.refresh status reference) committed
        now).artifactPath = committed.artifactPath ∨
      (request.flush (request.refresh status reference) committed
        now).artifactPath = some uri := by
  by_cases needed : request.needsArtifact status = true
  · have unset := (needsArtifact_iff.mp needed).2.2
    right
    simp [flush, refresh, needed, unset, flushColumn]
  · left
    simp [flush, refresh, needed]

/-! ## Worker passes -/

/-- What a worker call of a tenant may do to the storage. -/
structure Storage.Confined (deployment : Deployment) (tenantId : String)
    (before after : Storage) : Prop where
  owners : Database.SameOwners before.database after.database
  sound : after.Sound deployment
  foreign : ∀ viewer, tenantId ≠ viewer →
    after.restrict deployment viewer = before.restrict deployment viewer

namespace Storage

variable {deployment : Deployment} {tenantId : String} {storage : Storage}

theorem Confined.refl (sound : storage.Sound deployment) :
    Confined deployment tenantId storage storage where
  owners := ⟨rfl, rfl, rfl⟩
  sound := sound
  foreign := fun _ _ => rfl

theorem Confined.trans {middle last : Storage}
    (first : Confined deployment tenantId storage middle)
    (second : Confined deployment tenantId middle last) :
    Confined deployment tenantId storage last where
  owners := first.owners.trans second.owners
  sound := second.sound
  foreign := by
    intro viewer other
    rw [second.foreign viewer other, first.foreign viewer other]

/-- A transaction that keeps all owners is seen through the tables only. -/
theorem restrict_withDatabase {database : Database}
    (same : Database.SameOwners storage.database database)
    (viewer : String) :
    restrict deployment viewer { storage with database } =
      { storage.restrict deployment viewer with
        database := database.restrict viewer } := by
  simp only [restrict, same.places]

/-- A transaction on the tables alone. -/
theorem Confined.of_database {database : Database}
    (sound : storage.Sound deployment)
    (same : Database.SameOwners storage.database database)
    (paths : PathsOwned deployment.settings database.requests)
    (foreign : ∀ viewer, tenantId ≠ viewer →
      database.restrict viewer = storage.database.restrict viewer) :
    Confined deployment tenantId storage { storage with database } where
  owners := same
  sound := by
    refine ⟨sound.segregated.of_sameOwners same, paths, ?_⟩
    intro entry member
    obtain ⟨requestId, owner, owned, located⟩ := sound.stored entry member
    exact ⟨requestId, owner, by rw [same.requests]; exact owned, located⟩
  foreign := by
    intro viewer other
    rw [restrict_withDatabase same, foreign viewer other]
    rfl

/-- An upload to the place of one of the tenant's requests. -/
theorem Confined.put (sound : storage.Sound deployment) {requestId : String}
    (owned : (requestId, tenantId) ∈ storage.database.requestOwners)
    (content : String) :
    Confined deployment tenantId storage { storage with
      artifacts := (storage.artifacts.put
        (artifactLocation deployment tenantId requestId) content) } where
  owners := ⟨rfl, rfl, rfl⟩
  sound := by
    refine ⟨sound.segregated, sound.paths, ?_⟩
    intro entry member
    rcases List.mem_cons.mp member with rfl | old
    · exact ⟨requestId, tenantId, owned, rfl⟩
    · exact sound.stored entry old
  foreign := by
    intro viewer other
    have elsewhere := sound.segregated.places_foreign deployment other owned
    simp [restrict, ArtifactStore.put, elsewhere]

end Storage

section Refresh

variable {deployment : Deployment} {tenantId requestId : String}
  {session : Session} {storage : Storage}

/-- A tenant's refresh can be made on the tenant's part of the storage. -/
theorem refreshRequestStatus_restrict_own (draws : TaskDraws)
    (sound : storage.Sound deployment)
    (owned : session.OwnedBy tenantId storage.database)
    (mine : (requestId, tenantId) ∈ storage.database.requestOwners) :
    refreshRequestStatus deployment draws requestId session
        (storage.restrict deployment tenantId) =
      ((refreshRequestStatus deployment draws requestId session
          storage).1.restrict deployment tenantId,
        (refreshRequestStatus deployment draws requestId session
          storage).2) := by
  have loaded := loadRefresh_restrict sound.segregated mine session
  have ownedNow := owned.loadRefresh sound.segregated mine
  simp only [refreshRequestStatus, Storage.restrict, loaded]
  cases held : (session.loadRefresh storage.database requestId).request
      requestId with
  | none => rfl
  | some request =>
      obtain ⟨sameId, tenant, _⟩ := ownedNow.request held
      have kept := fun reference noticeId now =>
        (commitRefresh_sameOwners deployment.runtime
          (session.loadRefresh storage.database requestId) request reference
          noticeId now storage.database).places deployment tenantId
      have here : storage.database.places deployment tenantId
          (artifactLocation deployment request.tenantId request.id) =
            true := by
        rw [tenant, sameId]
        exact Database.places_iff.mpr ⟨requestId, mine, rfl⟩
      simp only [commitRefresh_restrict_own deployment.runtime tenant,
        writeArtifact, kept]
      by_cases needed : request.needsArtifact
          ((session.loadRefresh storage.database requestId).derivedStatus
            requestId) = true
      · simp [needed, ArtifactStore.put, here]
      · simp [needed]

theorem commitRefresh_requests_eq (runtime : Runtime) (session : Session)
    (request : PrivacyRequest) (reference : Option String)
    (noticeId : String) (now : Time) (database : Database) :
    (commitRefresh runtime session request reference noticeId now
        database).requests =
      Table.updateWhere (fun row => decide (row.id = request.id))
        (fun row => request.flush (request.refresh
          (session.derivedStatus request.id) reference) row now)
        database.requests := by
  simp only [commitRefresh]
  split <;> rfl

/-- A refresh records the uri of the request's own artifact. -/
theorem refreshed_paths {database : Database}
    {request : PrivacyRequest} (segregated : database.Segregated)
    (paths : PathsOwned deployment.settings database.requests)
    (present : (request.id, request.tenantId) ∈ database.requestOwners)
    (session : Session) (noticeId : String) (now : Time) :
    PathsOwned deployment.settings (commitRefresh deployment.runtime session
      request
      (if request.needsArtifact (session.derivedStatus request.id) then
        some (artifactUri deployment.settings request.tenantId request.id)
        else none) noticeId now database).requests := by
  rw [commitRefresh_requests_eq]
  apply paths.updateWhere
  · intro row
    exact ⟨rfl, rfl⟩
  · intro row member hit
    have same : row.id = request.id := of_decide_eq_true hit
    rw [segregated.request_tenant present member same, same]
    exact request.flush_refresh_artifactPath row _ _ now

/-- It stays within the tenant's part, and so does the session. -/
theorem refreshRequestStatus_confined (draws : TaskDraws)
    (sound : storage.Sound deployment)
    (owned : session.OwnedBy tenantId storage.database)
    (mine : (requestId, tenantId) ∈ storage.database.requestOwners) :
    storage.Confined deployment tenantId
        (refreshRequestStatus deployment draws requestId session storage).1 ∧
      (refreshRequestStatus deployment draws requestId session
        storage).2.OwnedBy tenantId storage.database := by
  have ownedNow := owned.loadRefresh sound.segregated mine
  simp only [refreshRequestStatus]
  cases held : (session.loadRefresh storage.database requestId).request
      requestId with
  | none => exact ⟨.refl sound, ownedNow⟩
  | some request =>
      obtain ⟨rfl, tenant, present⟩ := ownedNow.request held
      let status := (session.loadRefresh storage.database
        request.id).derivedStatus request.id
      have uploaded : storage.Confined deployment tenantId { storage with
          artifacts := if request.needsArtifact status then
            (writeArtifact deployment request
              ((session.loadRefresh storage.database request.id).tasksOf
                request.id) draws.generatedAt storage.artifacts).1
            else storage.artifacts } := by
        split
        · simp only [writeArtifact, tenant]
          exact .put sound mine _
        · exact .refl sound
      have same := commitRefresh_sameOwners deployment.runtime
        (session.loadRefresh storage.database request.id) request
        (if request.needsArtifact status then
          some (artifactUri deployment.settings request.tenantId request.id)
          else none) draws.noticeId draws.refreshedAt storage.database
      have paths := refreshed_paths sound.segregated sound.paths
        (tenant.symm ▸ present)
        (session.loadRefresh storage.database request.id) draws.noticeId
        draws.refreshedAt
      refine ⟨uploaded.trans (.of_database uploaded.sound same paths
        fun viewer other => ?_), ownedNow.putRequest tenant present⟩
      exact commitRefresh_restrict_foreign deployment.runtime other
        sound.segregated present tenant _ _ _ _

end Refresh

section Execution

variable {deployment : Deployment} {tenantId taskId : String}
  {session : Session} {storage : Storage} {task : RequestTask}
  {request : PrivacyRequest}

/-- The commit of an outcome stays within the tenant's rows. -/
theorem recordOutcome_confined (sound : storage.Sound deployment)
    (owned : session.OwnedBy tenantId storage.database)
    (heldTask : session.task taskId = some task)
    (heldRequest : session.request task.requestId = some request)
    (deletedAt now : Time) :
    storage.Confined deployment tenantId { storage with
      database := (recordOutcome deployment.runtime deployment.settings false
        (databaseWork storage.database task request deletedAt) task request
        now storage.database) } := by
  obtain ⟨_, taskTenant, _⟩ := owned.task heldTask
  apply Storage.Confined.of_database sound
  · exact recordOutcome_sameOwners ..
  · apply sound.paths.updateWhere
    · intro row
      exact ⟨rfl, rfl⟩
    · intro row _ _
      exact .inl (request.flush_verify_artifactPath row now)
  · intro viewer other
    apply recordOutcome_restrict_foreign _ _ other sound.segregated owned
      heldTask heldRequest
    intro recordId marked
    rw [← taskTenant]
    exact mem_databaseWork_deleted marked

/-- The rows that `execute_task` loads are the tenant's. -/
theorem selected_ownedBy (segregated : storage.database.Segregated)
    (owned : session.OwnedBy tenantId storage.database) {row : RequestTask}
    (present : row ∈ storage.database.tasks)
    (tenant : row.tenantId = tenantId) :
    ((session.loadTasks [row]).loadRequests
      (storage.database.requests.filter fun request =>
        decide (request.id = row.requestId))).OwnedBy tenantId
          storage.database := by
  have parent := segregated.parent row present
  rw [tenant] at parent
  apply (owned.loadTasks _).loadRequests
  · intro loaded member
    obtain ⟨inTable, same⟩ := List.mem_filter.mp member
    exact ⟨inTable, segregated.request_tenant parent inTable
      (of_decide_eq_true same)⟩
  · intro loaded member
    cases List.mem_singleton.mp member
    exact ⟨present, tenant⟩

/-- The part of `execute_task` after its select. -/
private theorem executed_isolated (draws : TaskDraws)
    (sound : storage.Sound deployment)
    (owned : session.OwnedBy tenantId storage.database)
    (heldTask : session.task taskId = some task)
    (heldRequest : session.request task.requestId = some request) :
    let work := databaseWork storage.database task request draws.deletedAt
    let settled := task.settle deployment.settings false work.ending
    let recorded := fun storage : Storage => { storage with
      database := (recordOutcome deployment.runtime deployment.settings false
        work task request draws.recordedAt storage.database) }
    let refreshed := fun storage => refreshRequestStatus deployment draws
      task.requestId ((session.putTask settled).putRequest request.verify)
      (recorded storage)
    refreshed (storage.restrict deployment tenantId) =
      ((refreshed storage).1.restrict deployment tenantId,
        (refreshed storage).2) ∧
    storage.Confined deployment tenantId (refreshed storage).1 ∧
    (refreshed storage).2.OwnedBy tenantId storage.database := by
  intro work settled recorded refreshed
  obtain ⟨rfl, taskTenant, taskOwned⟩ := owned.task heldTask
  obtain ⟨requestSame, requestTenant, requestOwned⟩ :=
    owned.request heldRequest
  have confined : storage.Confined deployment tenantId (recorded storage) :=
    recordOutcome_confined sound owned heldTask heldRequest
      draws.deletedAt draws.recordedAt
  have settledOwned : ((session.putTask settled).putRequest
      request.verify).OwnedBy tenantId storage.database := by
    apply (owned.putTask _ _).putRequest
    · rw [PrivacyRequest.verify_tenantId, requestTenant]
    · rw [PrivacyRequest.verify_id, requestSame]
      exact requestOwned
    · simp only [settled, RequestTask.settle_tenantId, taskTenant]
    · simpa only [settled, RequestTask.settle_id,
        RequestTask.settle_requestId] using taskOwned
  have settledNow := settledOwned.of_sameOwners confined.owners
  have mine : (task.requestId, tenantId) ∈
      (recorded storage).database.requestOwners := by
    rw [confined.owners.requests]
    exact requestOwned
  have view : recorded (storage.restrict deployment tenantId) =
      (recorded storage).restrict deployment tenantId := by
    rw [Storage.restrict_withDatabase confined.owners]
    simp only [recorded, Storage.restrict_database,
      recordOutcome_restrict_own _ _ taskTenant]
  obtain ⟨passed, ownedAfter⟩ := refreshRequestStatus_confined draws
    confined.sound settledNow mine
  refine ⟨?_, confined.trans passed, ?_⟩
  · simp only [refreshed, view]
    exact refreshRequestStatus_restrict_own draws confined.sound settledNow
      mine
  · constructor
    · intro id copy held
      rw [← confined.owners.tasks]
      exact ownedAfter.task held
    · intro id copy held
      rw [← confined.owners.requests]
      exact ownedAfter.request held

/-- One task of a tenant's pass: it can be executed on the tenant's part of
the storage, and stays there. -/
theorem executeTask_isolated (draws : TaskDraws) (workerId : String)
    (sound : storage.Sound deployment)
    (owned : session.OwnedBy tenantId storage.database)
    (mine : ∃ requestId,
      (taskId, requestId, tenantId) ∈ storage.database.taskOwners) :
    executeTask deployment draws workerId taskId session
        (storage.restrict deployment tenantId) =
      ((executeTask deployment draws workerId taskId session
          storage).1.restrict deployment tenantId,
        (executeTask deployment draws workerId taskId session storage).2) ∧
    storage.Confined deployment tenantId
      (executeTask deployment draws workerId taskId session storage).1 ∧
    (executeTask deployment draws workerId taskId session
      storage).2.1.OwnedBy tenantId storage.database := by
  obtain ⟨ownRequest, ownTask⟩ := mine
  have selection : ((storage.database.restrict tenantId).tasks.find?
      fun row => decide (row.id = taskId) && row.leasedBy workerId) =
      storage.database.tasks.find? fun row =>
        decide (row.id = taskId) && row.leasedBy workerId := by
    apply Table.find?_filter_of_imp
    intro row member chosen
    have same := of_decide_eq_true (Bool.and_eq_true _ _ ▸ chosen).1
    exact decide_eq_true (sound.segregated.task_tenant ownTask member same).1
  cases found : storage.database.tasks.find? fun row =>
      decide (row.id = taskId) && row.leasedBy workerId with
  | none =>
      rw [found] at selection
      simp only [executeTask, Storage.restrict, selection, found]
      exact ⟨trivial, .refl sound, owned⟩
  | some row =>
      rw [found] at selection
      have present := List.mem_of_find?_eq_some found
      have same := of_decide_eq_true
        (Bool.and_eq_true _ _ ▸ List.find?_some found).1
      have tenant := (sound.segregated.task_tenant ownTask present same).1
      have ownedRow := selected_ownedBy sound.segregated owned present tenant
      have parent := sound.segregated.parent row present
      rw [tenant] at parent
      have requests := requests_filter_id sound.segregated parent
      simp only [executeTask, Storage.restrict_database, selection, found,
        requests]
      generalize (session.loadTasks [row]).loadRequests _ = loaded at ownedRow ⊢
      cases heldTask : loaded.task taskId with
      | none => exact ⟨rfl, .refl sound, ownedRow⟩
      | some task =>
          dsimp only
          cases heldRequest : loaded.request task.requestId with
          | none => exact ⟨rfl, .refl sound, ownedRow⟩
          | some request =>
              have taskTenant := (ownedRow.task heldTask).2.1
              obtain ⟨replayed, confined, after⟩ :=
                executed_isolated draws sound ownedRow heldTask heldRequest
              simp only [Storage.restrict_database] at replayed
              simp only [databaseWork_restrict taskTenant, replayed]
              exact ⟨trivial, confined, after⟩

/-- The loop of a tenant's pass. -/
theorem executeTasks_isolated (fresh : Fresh) (workerId : String)
    {taskIds : List String} {position : Nat} {session : Session}
    {storage : Storage} (sound : storage.Sound deployment)
    (owned : session.OwnedBy tenantId storage.database)
    (owns : storage.database.OwnsTasks tenantId taskIds) :
    executeTasks deployment fresh workerId position taskIds session
        (storage.restrict deployment tenantId) =
      ((executeTasks deployment fresh workerId position taskIds session
          storage).1.restrict deployment tenantId,
        (executeTasks deployment fresh workerId position taskIds session
          storage).2) ∧
    storage.Confined deployment tenantId
      (executeTasks deployment fresh workerId position taskIds session
        storage).1 := by
  induction taskIds generalizing position session storage with
  | nil => exact ⟨rfl, .refl sound⟩
  | cons taskId taskIds induction =>
      obtain ⟨replayed, confined, after⟩ := executeTask_isolated
        (fresh.task position) workerId sound owned (owns taskId (by simp))
      have remaining : (executeTask deployment (fresh.task position) workerId
          taskId session storage).1.database.OwnsTasks tenantId taskIds := by
        intro later member
        rw [confined.owners.tasks]
        exact owns later (by simp [member])
      obtain ⟨rest, restConfined⟩ := @induction (position + 1) _ _
        confined.sound (after.of_sameOwners confined.owners) remaining
      simp only [executeTasks, replayed, rest]
      exact ⟨trivial, confined.trans restConfined⟩

/-- A claim for one tenant stays within the tenant's rows. -/
theorem claimTasks_confined {arguments : ClaimArguments}
    (sound : storage.Sound deployment)
    (confined : arguments.tenantId = some tenantId) :
    storage.Confined deployment tenantId { storage with
      database := (claimTasks deployment.settings deployment.dialect arguments
        storage.database).1 } := by
  apply Storage.Confined.of_database sound
  · exact claimTasks_sameOwners _ _ sound.segregated
  · obtain ⟨session, taskIds, claimed, _⟩ := claimTasks_spec
      deployment.settings deployment.dialect arguments
      sound.segregated.taskKeys
    rw [claimed]
    apply sound.paths.updateWhere
    · intro row
      exact ⟨rfl, rfl⟩
    · intro row _ _
      exact .inl rfl
  · intro viewer other
    exact claimTasks_restrict_foreign _ _ other confined sound.segregated

/-- A pass for one tenant can be made on the tenant's part of the storage, and
stays there. -/
theorem processOnce_isolated (arguments : ClaimArguments) (fresh : Fresh)
    (confined : arguments.tenantId = some tenantId)
    (sound : storage.Sound deployment) :
    processOnce deployment arguments fresh
        (storage.restrict deployment tenantId) =
      ((processOnce deployment arguments fresh storage).1.restrict deployment
          tenantId,
        (processOnce deployment arguments fresh storage).2) ∧
    storage.Confined deployment tenantId
      (processOnce deployment arguments fresh storage).1 := by
  have claimView := claimTasks_restrict_own deployment.settings
    deployment.dialect confined sound.segregated
  have owns : storage.database.OwnsTasks tenantId _ :=
    claimTasks_owns deployment.settings deployment.dialect confined
  have owned := claimTasks_session deployment.settings deployment.dialect
    confined sound.segregated
  have claimed := claimTasks_confined sound confined
  simp only [processOnce, Storage.restrict_database, claimView]
  generalize claimTasks deployment.settings deployment.dialect arguments
    storage.database = claim at owns owned claimed ⊢
  obtain ⟨database, session, taskIds⟩ := claim
  dsimp only at owns owned claimed ⊢
  split
  next => exact ⟨rfl, .refl sound⟩
  next =>
    have ownsNow : database.OwnsTasks tenantId taskIds := by
      intro taskId member
      rw [claimed.owners.tasks]
      exact owns taskId member
    obtain ⟨replayed, passed⟩ := executeTasks_isolated fresh
      arguments.workerId claimed.sound (owned.of_sameOwners claimed.owners)
      ownsNow
    rw [Storage.restrict_withDatabase claimed.owners] at replayed
    rw [replayed]
    exact ⟨rfl, claimed.trans passed⟩

end Execution

/-! ## Intake and seeding -/

/-- Primary keys of requests, tasks and records. -/
def Database.usedIds (database : Database) : List String :=
  database.requests.map PrivacyRequest.id ++
    database.tasks.map RequestTask.id ++
    database.records.map DeviceCloudRecord.id

theorem Database.SameOwners.usedIds {before after : Database}
    (same : SameOwners before after) : after.usedIds = before.usedIds := by
  have requests := congrArg (List.map Prod.fst) same.requests
  have tasks := congrArg (List.map Prod.fst) same.tasks
  have records := congrArg (List.map Prod.fst) same.records
  simp only [requestOwners, taskOwners, recordOwners, List.map_map,
    Function.comp_def] at requests tasks records
  simp only [Database.usedIds]
  rw [requests, tasks, records]

/-- `uuid4` texts: pairwise different, not in use and without a slash. -/
structure Fresh.Unused (fresh : Fresh) (database : Database) : Prop where
  injective : Function.Injective fresh.ids
  unused : ∀ index, fresh.ids index ∉ database.usedIds
  plain : ∀ index, '/' ∉ (fresh.ids index).toList

section Intake

variable {deployment : Deployment} {storage : Storage} {intake : Intake}

theorem Intake.mem_tasks_tenant {task : RequestTask}
    (member : task ∈ intake.tasks) : task.tenantId = intake.tenantId := by
  obtain ⟨⟨source, position⟩, _, rfl⟩ := List.mem_map.mp member
  rfl

theorem Intake.mem_events_tenant {event : OutboxEvent}
    (member : event ∈ intake.events) : event.tenantId = intake.tenantId := by
  rcases mem_events member with rfl | ⟨source, position, _, rfl⟩
  · rfl
  · rfl

theorem Intake.insertRows_restrict_own (runtime : Runtime) (intake : Intake)
    (database : Database) :
    intake.insertRows runtime (database.restrict intake.tenantId) =
      (intake.insertRows runtime database).restrict intake.tenantId := by
  have tasks : intake.tasks.filter (fun row =>
      decide (row.tenantId = intake.tenantId)) = intake.tasks := by
    rw [List.filter_eq_self]
    intro task member
    exact decide_eq_true (mem_tasks_tenant member)
  have events : intake.events.filter (fun row =>
      decide (row.tenantId = intake.tenantId)) = intake.events := by
    rw [List.filter_eq_self]
    intro event member
    exact decide_eq_true (mem_events_tenant member)
  simp [insertRows, Database.restrict, appendAudit_filter_own, tasks, events,
    Intake.request]

theorem Intake.insertRows_restrict_foreign (runtime : Runtime)
    {viewer : String} (foreign : intake.tenantId ≠ viewer)
    (database : Database) :
    (intake.insertRows runtime database).restrict viewer =
      database.restrict viewer := by
  have tasks : intake.tasks.filter (fun row =>
      decide (row.tenantId = viewer)) = [] := by
    rw [List.filter_eq_nil_iff]
    intro task member viewed
    exact foreign ((mem_tasks_tenant member).symm.trans
      (of_decide_eq_true viewed))
  have events : intake.events.filter (fun row =>
      decide (row.tenantId = viewer)) = [] := by
    rw [List.filter_eq_nil_iff]
    intro event member viewed
    exact foreign ((mem_events_tenant member).symm.trans
      (of_decide_eq_true viewed))
  simp [insertRows, Database.restrict, tasks, events, Intake.request, foreign,
    appendAudit_filter_foreign runtime foreign]

theorem Intake.insertRows_requestOwners (runtime : Runtime) (intake : Intake)
    (database : Database) :
    (intake.insertRows runtime database).requestOwners =
      database.requestOwners ++ [(intake.fresh.ids 0, intake.tenantId)] := by
  simp [insertRows, Database.requestOwners, Intake.request]

theorem Fresh.Unused.request {fresh : Fresh} {database : Database}
    (unused : fresh.Unused database) (index : Nat) :
    ∀ request ∈ database.requests, request.id ≠ fresh.ids index := by
  intro request member same
  apply unused.unused index
  rw [← same]
  simp only [Database.usedIds, List.mem_append, List.mem_map]
  exact .inl (.inl ⟨request, member, rfl⟩)

theorem Fresh.Unused.task {fresh : Fresh} {database : Database}
    (unused : fresh.Unused database) (index : Nat) :
    ∀ task ∈ database.tasks, task.id ≠ fresh.ids index := by
  intro task member same
  apply unused.unused index
  rw [← same]
  simp only [Database.usedIds, List.mem_append, List.mem_map]
  exact .inl (.inr ⟨task, member, rfl⟩)

theorem Fresh.Unused.record {fresh : Fresh} {database : Database}
    (unused : fresh.Unused database) (index : Nat) :
    ∀ record ∈ database.records, record.id ≠ fresh.ids index := by
  intro record member same
  apply unused.unused index
  rw [← same]
  simp only [Database.usedIds, List.mem_append, List.mem_map]
  exact .inr ⟨record, member, rfl⟩

theorem Intake.insertRows_segregated (runtime : Runtime)
    {database : Database} (segregated : database.Segregated)
    (fresh : intake.fresh.Unused database) :
    (intake.insertRows runtime database).Segregated := by
  constructor
  · have own : Table.KeyUnique PrivacyRequest.id [intake.request runtime] :=
      List.nodup_singleton _
    apply segregated.requestKeys.append own
    intro old present new added
    rw [List.mem_singleton.mp added]
    exact fresh.request 0 old present
  · have own : Table.KeyUnique RequestTask.id intake.tasks := by
      unfold Table.KeyUnique
      rw [tasks_map_id]
      apply List.Nodup.map _ List.nodup_range
      intro left right same
      exact Nat.add_left_cancel (fresh.injective same)
    apply segregated.taskKeys.append own
    intro old present new added
    obtain ⟨position, _, identified, _⟩ := mem_tasks added
    rw [identified]
    exact fresh.task (1 + position) old present
  · exact segregated.recordKeys
  · intro task member
    rw [insertRows_requestOwners, List.mem_append]
    rcases List.mem_append.mp member with old | new
    · exact .inl (segregated.parent task old)
    · obtain ⟨position, _, _, parent⟩ := mem_tasks new
      rw [parent, mem_tasks_tenant new]
      exact .inr (List.mem_singleton_self _)
  · intro request member
    rcases List.mem_append.mp member with old | new
    · exact segregated.plain request old
    · rw [List.mem_singleton.mp new]
      exact fresh.plain 0

/-- No artifact is at the place of a new request. -/
theorem Intake.insertRows_places (runtime : Runtime)
    (sound : storage.Sound deployment)
    (fresh : intake.fresh.Unused storage.database) (viewer : String) :
    ∀ entry ∈ storage.artifacts,
      (intake.insertRows runtime storage.database).places deployment viewer
          entry.1 =
        storage.database.places deployment viewer entry.1 := by
  intro entry member
  obtain ⟨requestId, tenantId, owned, located⟩ := sound.stored entry member
  obtain ⟨request, present, rfl, _⟩ := Database.mem_requestOwners.mp owned
  rw [Bool.eq_iff_iff, Database.places_iff, Database.places_iff]
  constructor
  · rintro ⟨other, otherOwned, same⟩
    rw [insertRows_requestOwners] at otherOwned
    rcases List.mem_append.mp otherOwned with old | new
    · exact ⟨other, old, same⟩
    · cases List.mem_singleton.mp new
      rw [located] at same
      have equal := artifactLocation_injective
        (sound.segregated.plain request present) (fresh.plain 0) same
      exact absurd equal (fresh.request 0 request present)
  · rintro ⟨other, old, same⟩
    refine ⟨other, ?_, same⟩
    rw [insertRows_requestOwners]
    exact List.mem_append_left _ old

theorem Intake.restrict_insertRows (runtime : Runtime)
    (sound : storage.Sound deployment)
    (fresh : intake.fresh.Unused storage.database) (viewer : String) :
    Storage.restrict deployment viewer { storage with
        database := intake.insertRows runtime storage.database } =
      { storage.restrict deployment viewer with
        database :=
          (intake.insertRows runtime storage.database).restrict viewer } := by
  simp only [Storage.restrict, Storage.mk.injEq, true_and]
  exact List.filter_congr (insertRows_places runtime sound fresh viewer)

end Intake

/-- What an operation of a tenant may do to the storage. -/
structure Storage.Served (deployment : Deployment) (tenantId : String)
    (fresh : Fresh) (before after : Storage) : Prop where
  sound : after.Sound deployment
  drawn : ∀ id ∈ after.database.usedIds,
    id ∈ before.database.usedIds ∨ ∃ index, id = fresh.ids index
  foreign : ∀ viewer, tenantId ≠ viewer →
    after.restrict deployment viewer = before.restrict deployment viewer

theorem Storage.Confined.served {deployment : Deployment} {tenantId : String}
    {before after : Storage}
    (confined : Confined deployment tenantId before after) (fresh : Fresh) :
    before.Served deployment tenantId fresh after where
  sound := confined.sound
  drawn := by
    intro id used
    rw [confined.owners.usedIds] at used
    exact .inl used
  foreign := confined.foreign

section Inserts

variable {deployment : Deployment} {storage : Storage} {tenantId : String}

theorem Intake.insertRows_served (intake : Intake)
    (sound : storage.Sound deployment)
    (fresh : intake.fresh.Unused storage.database) :
    storage.Served deployment intake.tenantId intake.fresh { storage with
      database :=
        (intake.insertRows deployment.runtime storage.database) } where
  sound := by
    refine ⟨insertRows_segregated _ sound.segregated fresh, ?_, ?_⟩
    · intro request member path shown
      rcases List.mem_append.mp member with old | new
      · exact sound.paths request old path shown
      · rw [List.mem_singleton.mp new] at shown
        cases shown
    · intro entry member
      obtain ⟨requestId, owner, owned, located⟩ := sound.stored entry member
      refine ⟨requestId, owner, ?_, located⟩
      rw [insertRows_requestOwners]
      exact List.mem_append_left _ owned
  drawn := by
    intro id used
    simp only [Database.usedIds, insertRows, List.map_append,
      List.mem_append, List.map_cons, List.map_nil, List.mem_singleton] at used
    rcases used with ((old | new) | (old | new)) | old
    · exact .inl (by simp [Database.usedIds, old])
    · exact .inr ⟨0, new⟩
    · exact .inl (by simp [Database.usedIds, old])
    · obtain ⟨task, member, rfl⟩ := List.mem_map.mp new
      obtain ⟨position, _, identified, _⟩ := mem_tasks member
      exact .inr ⟨1 + position, identified⟩
    · exact .inl (by simp [Database.usedIds, old])
  foreign := by
    intro viewer other
    rw [restrict_insertRows _ sound fresh,
      insertRows_restrict_foreign _ other]
    rfl

theorem mem_seedRows {runtime : Runtime} {subjectKey : String}
    {recordsPerSource : Nat} {fresh : Fresh} {record : DeviceCloudRecord}
    (member : record ∈ seedRows runtime tenantId subjectKey recordsPerSource
      fresh) :
    record.tenantId = tenantId ∧ ∃ index, record.id = fresh.ids index := by
  obtain ⟨⟨⟨source, sequence⟩, position⟩, _, rfl⟩ := List.mem_map.mp member
  exact ⟨rfl, position, rfl⟩

theorem seedRows_keyUnique (runtime : Runtime)
    (tenantId subjectKey : String) (recordsPerSource : Nat) {fresh : Fresh}
    (injective : Function.Injective fresh.ids) :
    Table.KeyUnique DeviceCloudRecord.id (seedRows runtime tenantId subjectKey
      recordsPerSource fresh) := by
  have ids : (seedRows runtime tenantId subjectKey recordsPerSource
      fresh).map DeviceCloudRecord.id =
      ((allowedSources.flatMap fun source =>
        (List.range recordsPerSource).map fun sequence =>
          (source, sequence)).zipIdx.map Prod.snd).map fresh.ids := by
    rw [seedRows, List.map_map, List.map_map]
    rfl
  unfold Table.KeyUnique
  rw [ids, List.zipIdx_map_snd]
  exact List.Nodup.map injective List.nodup_range'

/-- `seed_records` adds records of the tenant. -/
theorem seed_served (subjectKey : String) (recordsPerSource : Nat)
    {fresh : Fresh} (sound : storage.Sound deployment)
    (unused : fresh.Unused storage.database) :
    storage.Served deployment tenantId fresh
      (seed deployment tenantId subjectKey recordsPerSource fresh
        storage).1 where
  sound := by
    refine ⟨⟨sound.segregated.requestKeys, sound.segregated.taskKeys, ?_,
      sound.segregated.parent, sound.segregated.plain⟩, sound.paths,
      sound.stored⟩
    apply sound.segregated.recordKeys.append
      (seedRows_keyUnique _ _ _ _ unused.injective)
    intro old present new added
    obtain ⟨_, index, identified⟩ := mem_seedRows added
    rw [identified]
    exact unused.record index old present
  drawn := by
    intro id used
    simp only [Database.usedIds, seed, List.map_append, List.mem_append]
      at used
    rcases used with (old | old) | (old | new)
    · exact .inl (by simp [Database.usedIds, old])
    · exact .inl (by simp [Database.usedIds, old])
    · exact .inl (by simp [Database.usedIds, old])
    · obtain ⟨record, member, rfl⟩ := List.mem_map.mp new
      exact .inr (mem_seedRows member).2
  foreign := by
    intro viewer other
    have none : (seedRows deployment.runtime tenantId subjectKey
        recordsPerSource fresh).filter (fun row =>
          decide (row.tenantId = viewer)) = [] := by
      rw [List.filter_eq_nil_iff]
      intro record member viewed
      exact other ((mem_seedRows member).1.symm.trans
        (of_decide_eq_true viewed))
    simp only [seed, Storage.restrict, Database.restrict, List.filter_append,
      none, List.append_nil]
    rfl

theorem seed_restrict_own (subjectKey : String) (recordsPerSource : Nat)
    (fresh : Fresh) :
    seed deployment tenantId subjectKey recordsPerSource fresh
        (storage.restrict deployment tenantId) =
      ((seed deployment tenantId subjectKey recordsPerSource fresh
          storage).1.restrict deployment tenantId,
        (seed deployment tenantId subjectKey recordsPerSource fresh
          storage).2) := by
  have all : (seedRows deployment.runtime tenantId subjectKey
      recordsPerSource fresh).filter (fun row =>
        decide (row.tenantId = tenantId)) = seedRows deployment.runtime
          tenantId subjectKey recordsPerSource fresh := by
    rw [List.filter_eq_self]
    intro record member
    exact decide_eq_true (mem_seedRows member).1
  simp only [seed, Storage.restrict, Database.restrict, List.filter_append,
    all]
  rfl

end Inserts

/-! ## Queries -/

section Queries

variable {deployment : Deployment} {storage : Storage} {database : Database}
  {tenantId : String}

theorem getPrivacyRequest_restrict (database : Database)
    (tenantId requestId : String) :
    getPrivacyRequest (database.restrict tenantId) tenantId requestId =
      getPrivacyRequest database tenantId requestId := by
  apply Table.find?_filter_of_imp
  intro request _ matching
  exact decide_eq_true (of_decide_eq_true matching).2

theorem getPrivacyRequest_owned {requestId : String}
    {request : PrivacyRequest}
    (found : getPrivacyRequest database tenantId requestId = some request) :
    request ∈ database.requests ∧ request.tenantId = tenantId := by
  unfold getPrivacyRequest at found
  have matching := List.find?_some found
  simp only [decide_eq_true_eq] at matching
  exact ⟨List.mem_of_find?_eq_some found, matching.2⟩

theorem findByIdempotency_restrict (database : Database)
    (tenantId idempotencyKey : String) :
    findByIdempotency (database.restrict tenantId) tenantId idempotencyKey =
      findByIdempotency database tenantId idempotencyKey := by
  apply Table.find?_filter_of_imp
  intro request _ matching
  exact decide_eq_true (of_decide_eq_true matching).1

theorem findByIdempotency_owned {idempotencyKey : String}
    {request : PrivacyRequest} (found : findByIdempotency database tenantId
      idempotencyKey = some request) :
    request ∈ database.requests ∧ request.tenantId = tenantId := by
  unfold findByIdempotency at found
  have matching := List.find?_some found
  simp only [decide_eq_true_eq] at matching
  exact ⟨List.mem_of_find?_eq_some found, matching.1⟩

theorem view_restrict (segregated : database.Segregated)
    {request : PrivacyRequest} (present : request ∈ database.requests)
    (mine : request.tenantId = tenantId) :
    (database.restrict tenantId).view request = database.view request := by
  have owned : (request.id, tenantId) ∈ database.requestOwners :=
    Database.mem_requestOwners.mpr ⟨request, present, rfl, mine⟩
  simp only [Database.view, tasksOf_restrict segregated owned]

theorem listRequests_restrict (segregated : database.Segregated)
    (status : Option RequestStatus) (limit offset : Nat) :
    listRequests tenantId status limit offset (database.restrict tenantId) =
      listRequests tenantId status limit offset database := by
  have rows : listPrivacyRequests (database.restrict tenantId) tenantId
      status limit offset =
      listPrivacyRequests database tenantId status limit offset := by
    unfold listPrivacyRequests Database.restrict
    rw [Table.filter_filter_of_imp]
    intro request _ matching
    exact decide_eq_true (of_decide_eq_true matching).1
  have views : (listPrivacyRequests database tenantId status limit
      offset).map (database.restrict tenantId).view =
      (listPrivacyRequests database tenantId status limit offset).map
        database.view := by
    apply List.map_congr_left
    intro request member
    have selected := (Table.mem_insertionSort_iff _).mp
      (List.mem_of_mem_drop (List.mem_of_mem_take member))
    obtain ⟨present, matching⟩ := List.mem_filter.mp selected
    exact view_restrict segregated present (of_decide_eq_true matching).1
  simp only [listRequests, rows, views]

theorem getRequest_restrict (segregated : database.Segregated)
    (requestId : String) :
    getRequest tenantId requestId (database.restrict tenantId) =
      getRequest tenantId requestId database := by
  simp only [getRequest, getPrivacyRequest_restrict]
  cases found : getPrivacyRequest database tenantId requestId with
  | none => rfl
  | some request =>
      obtain ⟨present, mine⟩ := getPrivacyRequest_owned found
      simp only [view_restrict segregated present mine]

theorem ArtifactStore.get_filter {keep : ArtifactLocation → Bool}
    {location : ArtifactLocation} (kept : keep location = true)
    (store : ArtifactStore) :
    ArtifactStore.get (store.filter fun entry => keep entry.1) location =
      store.get location := by
  unfold ArtifactStore.get
  induction store with
  | nil => rfl
  | cons entry store induction =>
      obtain ⟨place, content⟩ := entry
      by_cases here : location = place
      · subst here
        simp [kept]
      · have skipped : (location == place) = false := by simpa using here
        by_cases keeps : keep place = true
        · simp [keeps, List.lookup_cons, induction]
        · simp [keeps, List.lookup_cons, skipped, induction]

/-- A path that is not an S3 uri leads to the place of the artifact. -/
theorem places_of_local_path (sound : storage.Sound deployment)
    {request : PrivacyRequest}
    (present : request ∈ storage.database.requests)
    (mine : request.tenantId = tenantId) {path : String}
    (shown : request.artifactPath = some path)
    (onDisk : ¬ "s3://".toList.isPrefixOf path.toList = true) :
    storage.database.places deployment tenantId
      (.file ((PosixPath.parse path).resolve
        deployment.workingDirectory)) = true := by
  have uri := sound.paths request present path shown
  have backend : deployment.settings.artifactBackend = .localDirectory := by
    cases chosen : deployment.settings.artifactBackend with
    | localDirectory => rfl
    | s3 bucket keyPrefix =>
        apply absurd _ onDisk
        rw [uri]
        simp [artifactUri, chosen]
  apply Database.places_iff.mpr
  refine ⟨request.id, ?_, ?_⟩
  · exact Database.mem_requestOwners.mpr ⟨request, present, rfl, mine⟩
  · rw [artifactLocation_of_local backend, uri, mine]

theorem downloadArtifact_restrict (sound : storage.Sound deployment)
    (requestId : String) :
    downloadArtifact deployment tenantId requestId
        (storage.restrict deployment tenantId) =
      downloadArtifact deployment tenantId requestId storage := by
  simp only [downloadArtifact, Storage.restrict_database,
    getPrivacyRequest_restrict]
  cases found : getPrivacyRequest storage.database tenantId requestId with
  | none => rfl
  | some request =>
      obtain ⟨present, mine⟩ := getPrivacyRequest_owned found
      dsimp only
      split
      next => rfl
      next ready =>
        split
        next => rfl
        next onDisk =>
          cases shown : request.artifactPath with
          | none =>
              rw [shown] at ready
              exact absurd rfl ready
          | some path =>
              rw [shown] at onDisk
              have kept := places_of_local_path sound present mine shown
                onDisk
              simp only [serveFile, Option.getD_some, Storage.restrict,
                ArtifactStore.get_filter kept]

end Queries

/-! ## Creating a request -/

section Create

variable {deployment : Deployment} {storage : Storage} {tenantId : String}

theorem createPrivacyRequest_cases (runtime : Runtime) (intake : Intake)
    (database : Database) :
    (createPrivacyRequest runtime intake database).1 = database ∨
      (createPrivacyRequest runtime intake database).1 =
        intake.insertRows runtime database := by
  unfold createPrivacyRequest
  cases findByIdempotency database intake.tenantId
      intake.idempotencyKey with
  | none => exact .inr rfl
  | some existing =>
      dsimp only
      split
      · exact .inl rfl
      · exact .inl rfl

theorem createPrivacyRequest_restrict (runtime : Runtime) (intake : Intake)
    (database : Database) :
    createPrivacyRequest runtime intake
        (database.restrict intake.tenantId) =
      ((createPrivacyRequest runtime intake database).1.restrict
          intake.tenantId,
        (createPrivacyRequest runtime intake database).2) := by
  unfold createPrivacyRequest
  rw [findByIdempotency_restrict]
  cases findByIdempotency database intake.tenantId
      intake.idempotencyKey with
  | none =>
      simp only [Intake.insertRows_restrict_own, getPrivacyRequest_restrict]
  | some existing =>
      dsimp only
      split
      · rfl
      · rfl

/-- The request that is returned is a row of the tenant. -/
theorem createPrivacyRequest_owned {runtime : Runtime} {intake : Intake}
    {database : Database} {request : PrivacyRequest} {created : Bool}
    (returned : (createPrivacyRequest runtime intake database).2 =
      .ok (some request, created)) :
    request ∈ (createPrivacyRequest runtime intake database).1.requests ∧
      request.tenantId = intake.tenantId := by
  unfold createPrivacyRequest at returned ⊢
  cases found : findByIdempotency database intake.tenantId
      intake.idempotencyKey with
  | none =>
      rw [found] at returned
      have read := congrArg Prod.fst (Except.ok.inj returned)
      exact getPrivacyRequest_owned read
  | some existing =>
      rw [found] at returned
      have owned := findByIdempotency_owned found
      dsimp only at returned ⊢
      split at returned
      next same =>
        rw [if_pos same]
        cases returned
        exact owned
      next => cases returned

theorem createPrivacyRequest_served (intake : Intake)
    (sound : storage.Sound deployment)
    (unused : intake.fresh.Unused storage.database) :
    storage.Served deployment intake.tenantId intake.fresh { storage with
      database := (createPrivacyRequest deployment.runtime intake
        storage.database).1 } := by
  rcases createPrivacyRequest_cases deployment.runtime intake
    storage.database with same | inserted
  · rw [same]
    exact (Storage.Confined.refl sound).served intake.fresh
  · rw [inserted]
    exact intake.insertRows_served sound unused

/-- The tables that a tenant's call leaves, seen by the tenant. -/
theorem createPrivacyRequest_storage (intake : Intake)
    (sound : storage.Sound deployment)
    (unused : intake.fresh.Unused storage.database) :
    Storage.restrict deployment intake.tenantId { storage with
        database := (createPrivacyRequest deployment.runtime intake
          storage.database).1 } =
      { storage.restrict deployment intake.tenantId with
        database := (createPrivacyRequest deployment.runtime intake
          storage.database).1.restrict intake.tenantId } := by
  rcases createPrivacyRequest_cases deployment.runtime intake
    storage.database with same | inserted
  · rw [same]
    rfl
  · rw [inserted]
    exact intake.restrict_insertRows _ sound unused _

theorem createRequest_restrict_own (command : PrivacyRequestCreate)
    (idempotencyKey : String) {fresh : Fresh}
    (sound : storage.Sound deployment)
    (unused : fresh.Unused storage.database) :
    createRequest deployment tenantId command idempotencyKey fresh
        (storage.restrict deployment tenantId) =
      ((createRequest deployment tenantId command idempotencyKey fresh
          storage).1.restrict deployment tenantId,
        (createRequest deployment tenantId command idempotencyKey fresh
          storage).2) := by
  let intake : Intake := { tenantId, idempotencyKey, command, fresh }
  have rows := createPrivacyRequest_restrict deployment.runtime intake
    storage.database
  have view := createPrivacyRequest_storage intake sound unused
  have served := createPrivacyRequest_served intake sound unused
  have owned : ∀ request created,
      (createPrivacyRequest deployment.runtime intake storage.database).2 =
        .ok (some request, created) →
      request ∈ (createPrivacyRequest deployment.runtime intake
        storage.database).1.requests ∧ request.tenantId = tenantId :=
    fun _ _ returned => createPrivacyRequest_owned returned
  change createPrivacyRequest deployment.runtime
    { tenantId, idempotencyKey, command, fresh }
    (storage.database.restrict tenantId) = _ at rows
  simp only [createRequest, Storage.restrict_database, rows]
  generalize createPrivacyRequest deployment.runtime intake
    storage.database = creation at view served owned ⊢
  obtain ⟨database, outcome⟩ := creation
  refine Prod.ext view.symm ?_
  rcases outcome with text | ⟨found, created⟩
  · rfl
  · cases found with
    | none => rfl
    | some request =>
        obtain ⟨present, mine⟩ := owned request created rfl
        have shown := view_restrict served.sound.segregated present mine
        exact congrArg (fun view : PrivacyRequestView =>
          Response.mk (if created then 201 else 200) (.request view)) shown

end Create

/-! ## Operations -/

section Operations

variable {deployment : Deployment} {storage : Storage} {tenantId : String}
  {fresh : Fresh}

/-- An operation can be served from the tenant's part of the storage. -/
theorem dispatch_restrict_own (sound : storage.Sound deployment)
    (unused : fresh.Unused storage.database) (call : ApiCall) :
    dispatch deployment tenantId fresh (storage.restrict deployment tenantId)
        call =
      ((dispatch deployment tenantId fresh storage call).1.restrict deployment
          tenantId,
        (dispatch deployment tenantId fresh storage call).2) := by
  cases call with
  | createRequest body idempotencyKey =>
      simp only [dispatch]
      cases PrivacyRequestCreate.validate body with
      | error problem => rfl
      | ok command =>
          exact createRequest_restrict_own command idempotencyKey sound unused
  | listRequests status limit offset =>
      exact congrArg (Prod.mk _)
        (listRequests_restrict sound.segregated status _ _)
  | getRequest requestId =>
      exact congrArg (Prod.mk _) (getRequest_restrict sound.segregated _)
  | downloadArtifact requestId =>
      exact congrArg (Prod.mk _) (downloadArtifact_restrict sound _)
  | seed subjectKey recordsPerSource =>
      exact seed_restrict_own subjectKey _ fresh
  | runWorkerOnce workerId batchSize =>
      have replayed := (processOnce_isolated (workerArguments tenantId
        workerId (batchSize.map Int.toNat) fresh) fresh rfl sound).1
      simp only [dispatch, runWorkerOnce, replayed]
  | auditChain =>
      exact congrArg (Prod.mk _) (congrArg (fun valid =>
        Response.ok (.auditChain tenantId valid))
          (verifyAuditChain_filter deployment.runtime tenantId _))

/-- It touches nothing of the other tenants. -/
theorem dispatch_served (sound : storage.Sound deployment)
    (unused : fresh.Unused storage.database) (call : ApiCall) :
    storage.Served deployment tenantId fresh
      (dispatch deployment tenantId fresh storage call).1 := by
  have unchanged : storage.Served deployment tenantId fresh storage :=
    (Storage.Confined.refl sound).served fresh
  cases call with
  | createRequest body idempotencyKey =>
      simp only [dispatch]
      cases PrivacyRequestCreate.validate body with
      | error problem => exact unchanged
      | ok command =>
          exact createPrivacyRequest_served
            { tenantId, idempotencyKey, command, fresh } sound unused
  | listRequests status limit offset => exact unchanged
  | getRequest requestId => exact unchanged
  | downloadArtifact requestId => exact unchanged
  | seed subjectKey recordsPerSource =>
      exact seed_served subjectKey _ sound unused
  | runWorkerOnce workerId batchSize =>
      have confined := (processOnce_isolated (workerArguments tenantId
        workerId (batchSize.map Int.toNat) fresh) fresh rfl sound).2
      exact confined.served fresh
  | auditChain => exact unchanged

end Operations

/-! ## Histories -/

/-- The operations of one tenant. -/
def Operation.madeBy (tenantId : String) (operation : Operation) : Bool :=
  decide (operation.tenantId = tenantId)

/-- Freshly generated ids are globally unique: no id is drawn twice, in one
operation or in two.  `uuid4` texts have no slash. -/
structure GloballyUnique (history : List Operation) : Prop where
  injective : ∀ operation ∈ history, Function.Injective operation.fresh.ids
  distinct : history.Pairwise fun first second =>
    ∀ left right, first.fresh.ids left ≠ second.fresh.ids right
  plain : ∀ operation ∈ history, ∀ index,
    '/' ∉ (operation.fresh.ids index).toList

/-- What holds between two operations of a history: the ids that are still to
be drawn are not in use. -/
structure Storage.Expecting (deployment : Deployment) (storage : Storage)
    (history : List Operation) : Prop where
  sound : storage.Sound deployment
  unique : GloballyUnique history
  unused : ∀ operation ∈ history, ∀ index,
    operation.fresh.ids index ∉ storage.database.usedIds

namespace Storage.Expecting

variable {deployment : Deployment} {storage : Storage}
  {operation : Operation} {history : List Operation}

theorem initial (deployment : Deployment) (unique : GloballyUnique history) :
    Storage.initial.Expecting deployment history where
  sound := Storage.sound_initial deployment
  unique := unique
  unused := by
    intro operation _ index
    simp [Storage.initial, Database.empty, Database.usedIds]

theorem fresh (expecting : storage.Expecting deployment
    (operation :: history)) : operation.fresh.Unused storage.database where
  injective := expecting.unique.injective operation (by simp)
  unused := expecting.unused operation (by simp)
  plain := expecting.unique.plain operation (by simp)

theorem tail (expecting : storage.Expecting deployment
    (operation :: history)) {next : Storage} {tenantId : String}
    (served : storage.Served deployment tenantId operation.fresh next) :
    next.Expecting deployment history := by
  obtain ⟨others, distinct⟩ := List.pairwise_cons.mp expecting.unique.distinct
  refine ⟨served.sound, ⟨?_, distinct, ?_⟩, ?_⟩
  · intro later member
    exact expecting.unique.injective later (by simp [member])
  · intro later member
    exact expecting.unique.plain later (by simp [member])
  · intro later member index used
    rcases served.drawn _ used with old | ⟨drawn, same⟩
    · exact expecting.unused later (by simp [member]) index old
    · exact others later member drawn index same.symm

end Storage.Expecting

theorem handle_served {deployment : Deployment} {storage : Storage}
    {operation : Operation} {history : List Operation}
    (expecting : storage.Expecting deployment (operation :: history)) :
    storage.Served deployment operation.tenantId operation.fresh
      (handle deployment storage operation).1 := by
  unfold handle
  split
  · exact dispatch_served expecting.sound expecting.fresh operation.call
  · exact (Storage.Confined.refl expecting.sound).served operation.fresh

/-- Every operation is confined to its tenant's part of the storage. -/
theorem handle_confines (deployment : Deployment) (tenantId : String) :
    Unwinding.Confines (handle deployment) (Operation.madeBy tenantId)
      (Storage.restrict deployment tenantId)
      (Storage.Expecting deployment) where
  kept := fun expecting => expecting.tail (handle_served expecting)
  own := by
    intro storage operation history expecting mine
    have tenant : operation.tenantId = tenantId := of_decide_eq_true mine
    subst tenant
    unfold handle
    split
    · exact dispatch_restrict_own expecting.sound expecting.fresh _
    · rfl
  foreign := by
    intro storage operation history expecting other
    exact (handle_served expecting).foreign tenantId (of_decide_eq_false other)

/-- Two sequential histories of API operations that contain the same
operations of a tenant, with the same clock readings and fresh ids, give this
tenant the same responses and leave the same rows of this tenant, whatever the
other tenants do in them. -/
theorem tenants_do_not_interfere (deployment : Deployment)
    (tenantId : String) {first second : List Operation}
    (firstUnique : GloballyUnique first)
    (secondUnique : GloballyUnique second)
    (same : first.filter (Operation.madeBy tenantId) =
      second.filter (Operation.madeBy tenantId)) :
    Unwinding.responses (handle deployment) (Operation.madeBy tenantId)
        Storage.initial first =
      Unwinding.responses (handle deployment) (Operation.madeBy tenantId)
        Storage.initial second ∧
    (Unwinding.final (handle deployment) Storage.initial
        first).database.restrict tenantId =
      (Unwinding.final (handle deployment) Storage.initial
        second).database.restrict tenantId := by
  obtain ⟨responses, views⟩ := (handle_confines deployment
    tenantId).indistinguishable
      (Storage.Expecting.initial deployment firstUnique)
      (Storage.Expecting.initial deployment secondUnique) same
  exact ⟨responses, congrArg Storage.database views⟩

/-! ## A history with a busy neighbour -/

/-- Ids that are runs of one letter. -/
def letterFresh (letter : Char) : Fresh :=
  { ids := fun index => String.ofList (List.replicate (index + 1) letter)
    clock := fun index => index }

def letterOperation (call : Char × String × ApiCall) : Operation :=
  { tenantId := call.2.1, call := call.2.2, fresh := letterFresh call.1 }

theorem globallyUnique_letters {calls : List (Char × String × ApiCall)}
    (distinct : (calls.map Prod.fst).Nodup)
    (plain : '/' ∉ calls.map Prod.fst) :
    GloballyUnique (calls.map letterOperation) where
  injective := by
    intro operation member left right same
    obtain ⟨call, _, rfl⟩ := List.mem_map.mp member
    have lengths := congrArg (fun text : String => text.toList.length) same
    simpa [letterOperation, letterFresh] using lengths
  distinct := by
    apply List.pairwise_map.mpr
    apply (List.pairwise_map.mp distinct).imp
    intro first second differ left right same
    have heads := congrArg (fun text : String => text.toList.head?) same
    exact differ (by
      simpa [letterOperation, letterFresh, List.replicate_succ] using heads)
  plain := by
    intro operation member index slash
    obtain ⟨call, present, rfl⟩ := List.mem_map.mp member
    apply plain
    rw [letterOperation, letterFresh, String.toList_ofList] at slash
    rw [List.eq_of_mem_replicate slash]
    exact List.mem_map.mpr ⟨call, present, rfl⟩

/-- A tenant creates an access request, has it processed and downloads the
artifact. -/
def ownCalls : List (Char × String × ApiCall) :=
  [ ('a', "aa", .createRequest
      { subjectKey := "abc", kind := .access, sources := some ["jobs"] } "k"),
    ('b', "aa", .runWorkerOnce "api-worker" none),
    ('c', "aa", .downloadArtifact "a") ]

/-- The same, while another tenant uses the same key and the same worker
name. -/
def sharedCalls : List (Char × String × ApiCall) :=
  [ ('d', "bb", .seed "abc" 1),
    ('a', "aa", .createRequest
      { subjectKey := "abc", kind := .access, sources := some ["jobs"] } "k"),
    ('e', "bb", .createRequest
      { subjectKey := "abc", kind := .delete, sources := none } "k"),
    ('f', "bb", .runWorkerOnce "api-worker" (some 2)),
    ('b', "aa", .runWorkerOnce "api-worker" none),
    ('g', "bb", .downloadArtifact "a"),
    ('c', "aa", .downloadArtifact "a") ]

theorem neighbour_is_invisible :
    Unwinding.responses (handle demoDeployment) (Operation.madeBy "aa")
        Storage.initial (sharedCalls.map letterOperation) =
      Unwinding.responses (handle demoDeployment) (Operation.madeBy "aa")
        Storage.initial (ownCalls.map letterOperation) ∧
    (Unwinding.final (handle demoDeployment) Storage.initial
        (sharedCalls.map letterOperation)).database.restrict "aa" =
      (Unwinding.final (handle demoDeployment) Storage.initial
        (ownCalls.map letterOperation)).database.restrict "aa" :=
  tenants_do_not_interfere demoDeployment "aa"
    (globallyUnique_letters (by decide) (by decide))
    (globallyUnique_letters (by decide) (by decide)) rfl

end FleetPrivacy
