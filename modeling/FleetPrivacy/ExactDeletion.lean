import FleetPrivacy.Deletions

/-!
# Deletions without concurrent changes

`execute_task` with the database backend when nothing else changes the
records: the three queries of `_active_records`, the readback and the access
select read one scope, so a deletion takes exactly its own rows.
-/

namespace FleetPrivacy

open Transition

/-- What `_active_records` selects. -/
def DeviceCloudRecord.activeIn (scope : Scope) (record : DeviceCloudRecord) :
    Bool :=
  decide (record.scope = scope ∧ record.deletedAt = none)

/-- A task that a worker holds, with the kind and scope of its request. -/
structure Database.Claimed (database : Database) (workerId : String)
    (kind : RequestKind) (scope : Scope) (row : RequestTask) : Prop where
  member : row ∈ database.tasks
  leased : row.leasedBy workerId = true
  owner : ∃ owner, database.request row.requestId = some owner ∧
    owner.kind = kind ∧ row.scope owner = scope

/-- A session that holds no outdated copy of the task or of its request's
identity.  The session of a claim fits, and so does a new one. -/
structure Session.Fits (session : Session) (database : Database)
    (row : RequestTask) : Prop where
  task : ∀ copy, session.task row.id = some copy → copy = row
  request : ∀ copy, session.request row.requestId = some copy →
    ∃ owner, database.request row.requestId = some owner ∧
      copy.identity = owner.identity

/-- The calls of the services that write, one after another. -/
inductive SerialAction where
  | create (intake : Intake)
  | claimTasks (arguments : ClaimArguments)
  | claimMessageTask (workerId taskId : String) (now : Time)
  | extendTaskLease (workerId taskId : String) (now : Time)
  | executeTask (draws : TaskDraws) (workerId taskId : String)
      (session : Session)
  | refreshRequestStatus (draws : TaskDraws) (requestId : String)
      (session : Session)

/-- Everything but `seed_records`. -/
def serialStep (deployment : Deployment) (storage : Storage) :
    SerialAction → Option Storage
  | .create intake =>
      if decide intake.drawnIds.Nodup &&
          storage.database.unused intake.drawnIds then
        some { storage with
          database := (createPrivacyRequest deployment.runtime intake
            storage.database).1 }
      else none
  | .claimTasks arguments =>
      some { storage with
        database := (FleetPrivacy.claimTasks deployment.settings
          deployment.dialect arguments storage.database).1 }
  | .claimMessageTask workerId taskId now =>
      some { storage with
        database := (runClaimMessageTask deployment.settings
          deployment.dialect workerId taskId now storage.database).1 }
  | .extendTaskLease workerId taskId now =>
      some { storage with
        database := FleetPrivacy.extendTaskLease deployment.settings workerId
          taskId now storage.database }
  | .executeTask draws workerId taskId session =>
      some (FleetPrivacy.executeTask deployment draws workerId taskId session
        storage).1
  | .refreshRequestStatus draws requestId session =>
      some (FleetPrivacy.refreshRequestStatus deployment draws requestId
        session storage).1

/-! ## Records -/

theorem activeRecords_eq (database : Database) (task : RequestTask)
    (request : PrivacyRequest) :
    activeRecords database task request =
      database.records.filter
        (DeviceCloudRecord.activeIn (task.scope request)) := by
  apply List.filter_congr
  intro record _
  simp [DeviceCloudRecord.activeIn, DeviceCloudRecord.scope, RequestTask.scope,
    and_assoc]

/-- Marking the selected ids marks the selected rows. -/
theorem markDeleted_active {records : List DeviceCloudRecord}
    (keys : Table.KeyUnique DeviceCloudRecord.id records) (scope : Scope)
    (now : Time) :
    markDeleted ((records.filter
        (DeviceCloudRecord.activeIn scope)).map DeviceCloudRecord.id) now
          records =
      records.map fun record =>
        if record.activeIn scope then { record with deletedAt := some now }
        else record := by
  apply List.map_congr_left
  intro record member
  have recovered :=
    keys.mem_keys_filter (DeviceCloudRecord.activeIn scope) member
  by_cases active : record.activeIn scope = true
  · rw [if_pos (decide_eq_true (recovered.mpr active)), if_pos active]
  · rw [if_neg (by simpa using mt recovered.mp active), if_neg active]

/-- Every row of the scope is deleted. -/
def Database.Emptied (database : Database) (scope : Scope) : Prop :=
  ∀ record ∈ database.records, record.scope = scope → record.deletedAt ≠ none

theorem Database.Emptied.filter_eq_nil {database : Database} {scope : Scope}
    (emptied : database.Emptied scope) :
    database.records.filter (DeviceCloudRecord.activeIn scope) = [] := by
  rw [List.filter_eq_nil_iff]
  intro record member active
  obtain ⟨inScope, open_⟩ := of_decide_eq_true active
  exact emptied record member inScope open_

theorem emptied_markDeleted {database : Database} {scope : Scope}
    (emptied : database.Emptied scope) (ids : List String) (now : Time) :
    ∀ record ∈ markDeleted ids now database.records,
      record.scope = scope → record.deletedAt ≠ none := by
  intro record member inScope
  obtain ⟨old, present, changed⟩ := Table.mem_updateWhere.mp member
  split at changed
  next =>
    rw [← changed]
    exact Option.some_ne_none now
  next =>
    rw [← changed] at inScope ⊢
    exact emptied old present inScope

/-- After its own marks, the readback of a deletion finds nothing. -/
theorem remainingRecords_eq_nil (database : Database) (task : RequestTask)
    (request : PrivacyRequest) (deletedAt : Time) :
    remainingRecords database task request deletedAt = [] := by
  unfold remainingRecords
  rw [activeRecords_eq, List.filter_eq_nil_iff]
  intro record member active
  obtain ⟨inScope, open_⟩ := of_decide_eq_true active
  obtain ⟨old, present, changed⟩ := Table.mem_updateWhere.mp member
  split at changed
  next =>
    rw [← changed] at open_
    cases open_
  next unmarked =>
    apply unmarked
    rw [changed, decide_eq_true_iff]
    rw [changed] at present
    refine List.mem_map.mpr ⟨record, ?_, rfl⟩
    rw [activeRecords_eq]
    exact List.mem_filter.mpr ⟨present, active⟩

/-- The work of a task depends on its request through kind and subject. -/
theorem databaseWork_eq {database : Database} {row : RequestTask}
    {request owner : PrivacyRequest} (same : request.identity = owner.identity)
    (deletedAt : Time) :
    databaseWork database row request deletedAt =
      { ending := match owner.kind with
          | .access => .returned (accessResult (database.records.filter
              (DeviceCloudRecord.activeIn (row.scope owner))))
          | .delete => .returned (deleteResult (database.records.filter
              (DeviceCloudRecord.activeIn (row.scope owner))))
        deleted := match owner.kind with
          | .access => []
          | .delete => (database.records.filter
              (DeviceCloudRecord.activeIn (row.scope owner))).map
                DeviceCloudRecord.id
        deletedAt } := by
  have kind : request.kind = owner.kind :=
    congrArg (fun columns => columns.2.2.2.1) same
  have scope : row.scope request = row.scope owner :=
    RequestTask.scope_eq rfl same
  unfold databaseWork
  rw [kind]
  cases owner.kind with
  | access =>
      simp only [executeAccess]
      rw [activeRecords_eq, scope]
  | delete =>
      simp only [executeDelete, remainingRecords_eq_nil, List.length_nil,
        ne_eq, not_true_eq_false, if_false]
      rw [activeRecords_eq, scope]

/-! ## One call -/

section Calls

variable (deployment : Deployment) (session : Session) (storage : Storage)

/-- Rows keep their identity, and the change of the records is known. -/
structure Database.Rewrites (before after : Database)
    (task : RequestTask → RequestTask)
    (records : List DeviceCloudRecord) : Prop where
  revises : ∃ request, Database.Revises before after task request ∧
    ∀ row, (request row).identity = row.identity
  identity : ∀ row, (task row).identity = row.identity
  records : after.records = records

theorem refreshRequestStatus_rewrites (draws : TaskDraws)
    (requestId : String) :
    storage.database.Rewrites
      (refreshRequestStatus deployment draws requestId session
        storage).1.database id storage.database.records := by
  unfold refreshRequestStatus
  dsimp only
  split
  next =>
    exact ⟨⟨id, Database.revises_refl _ _, fun _ => rfl⟩, fun _ => rfl, rfl⟩
  next request held =>
    refine ⟨⟨_, Database.commitRefresh_revises ..,
      Database.refreshRow_identity _ _ _ _⟩, fun _ => rfl, ?_⟩
    unfold commitRefresh
    dsimp only
    split
    next => rfl
    next => rfl

/-- The commit of the outcome and the refresh after it. -/
theorem recorded_rewrites (executor : Bool) (draws : TaskDraws)
    (work : Work) (task : RequestTask) (request : PrivacyRequest) :
    storage.database.Rewrites
      (refreshRequestStatus deployment draws task.requestId session
        { storage with
          database := recordOutcome deployment.runtime deployment.settings
            executor work task request draws.recordedAt
            storage.database }).1.database
      (Database.recordRow deployment.settings executor work.ending task)
      (markDeleted work.deleted work.deletedAt storage.database.records) := by
  have recorded := Database.recordOutcome_revises deployment.runtime
    deployment.settings executor work task request draws.recordedAt
    storage.database
  have refreshed := refreshRequestStatus_rewrites deployment session
    { storage with
      database := recordOutcome deployment.runtime deployment.settings
        executor work task request draws.recordedAt storage.database }
    draws task.requestId
  obtain ⟨rewrite, later, kept⟩ := refreshed.revises
  refine ⟨⟨rewrite ∘ Database.verifyRow request draws.recordedAt, ?_, ?_⟩,
    Database.recordRow_identity _ _ _ _, refreshed.records⟩
  · refine ⟨?_, ?_, recorded.taskKey, ?_⟩
    · rw [later.tasks, recorded.tasks, List.map_id]
    · rw [later.requests, recorded.requests, List.map_map]
    · intro row
      obtain ⟨firstKey, firstKind⟩ := recorded.requestKey row
      obtain ⟨lastKey, lastKind⟩ := later.requestKey
        (Database.verifyRow request draws.recordedAt row)
      exact ⟨lastKey.trans firstKey, lastKind.trans firstKind⟩
  · intro row
    exact (kept _).trans
      (Database.verifyRow_keeps request draws.recordedAt row).identity

/-- Whatever a session holds, `execute_task` leaves the storage alone or
records an outcome. -/
theorem executeTask_cases (draws : TaskDraws) (workerId taskId : String) :
    (executeTask deployment draws workerId taskId session storage).1 =
        storage ∨
      ∃ (task : RequestTask) (work : Work), storage.database.Rewrites
        (executeTask deployment draws workerId taskId session
          storage).1.database
        (Database.recordRow deployment.settings false work.ending task)
        (markDeleted work.deleted work.deletedAt
          storage.database.records) := by
  unfold executeTask
  split
  next => exact .inl rfl
  next row found =>
    dsimp only
    split
    next => exact .inl rfl
    next task held =>
      split
      next => exact .inl rfl
      next request requestHeld =>
        exact .inr ⟨task, _, recorded_rewrites deployment _ storage false draws
          (databaseWork storage.database task request draws.deletedAt) task
          request⟩

variable {deployment session storage}

theorem RequestTask.flush_settle_self (settings : Settings)
    (executor : Bool) (ending : Ending) (task : RequestTask) :
    task.flush (task.settle settings executor ending) task =
      task.settle settings executor ending := by
  cases ending with
  | returned payload => simp [RequestTask.flush, RequestTask.settle]
  | raised message => simp [RequestTask.flush, RequestTask.settle]
  | cancelled => simp [RequestTask.flush, RequestTask.settle]

/-- The select of `execute_task`, with the copies that the session then
holds. -/
theorem select_of_claimed (formed : storage.database.WellFormed)
    {workerId : String} {row : RequestTask} {owner : PrivacyRequest}
    (member : row ∈ storage.database.tasks)
    (leased : row.leasedBy workerId = true)
    (owned : storage.database.request row.requestId = some owner)
    (fits : session.Fits storage.database row) :
    (storage.database.tasks.find? fun task =>
        decide (task.id = row.id) && task.leasedBy workerId) = some row ∧
      ((session.loadTasks [row]).loadRequests
        (storage.database.requests.filter fun request =>
          decide (request.id = row.requestId))).task row.id = some row ∧
      ∃ request, ((session.loadTasks [row]).loadRequests
        (storage.database.requests.filter fun request =>
          decide (request.id = row.requestId))).request row.requestId =
            some request ∧
        request.identity = owner.identity := by
  refine ⟨?_, ?_, ?_⟩
  · cases found : storage.database.tasks.find? fun task =>
        decide (task.id = row.id) && task.leasedBy workerId with
    | none =>
        have missed := List.find?_eq_none.mp found row member
        simp [leased] at missed
    | some other =>
        have hit := List.find?_some found
        rw [Bool.and_eq_true, decide_eq_true_iff] at hit
        rw [formed.taskIds.eq_of_mem (List.mem_of_find?_eq_some found) member
          hit.1]
  · simp only [Session.loadRequests, Session.loadTasks]
    cases held : session.task row.id with
    | none => simp [Table.get]
    | some copy => simp [fits.task copy held]
  · simp only [Session.loadRequests, Session.loadTasks]
    cases held : session.request row.requestId with
    | none =>
        exact ⟨owner, formed.get_select owned, rfl⟩
    | some copy =>
        obtain ⟨other, found, identity⟩ := fits.request copy held
        rw [owned] at found
        cases found
        exact ⟨copy, rfl, identity⟩

/-- `execute_task` on a task that the worker holds. -/
theorem executeTask_claimed (formed : storage.database.WellFormed)
    {workerId : String} {row : RequestTask} {owner : PrivacyRequest}
    (member : row ∈ storage.database.tasks)
    (leased : row.leasedBy workerId = true)
    (owned : storage.database.request row.requestId = some owner)
    (fits : session.Fits storage.database row) (draws : TaskDraws) :
    ∃ work, work = databaseWork storage.database row owner draws.deletedAt ∧
      storage.database.Rewrites
        (executeTask deployment draws workerId row.id session
          storage).1.database
        (Database.recordRow deployment.settings false work.ending row)
        (markDeleted work.deleted work.deletedAt storage.database.records) ∧
      (executeTask deployment draws workerId row.id session storage).2.2 =
        decide ((row.settle deployment.settings false work.ending).status =
          .succeeded) := by
  obtain ⟨selected, heldTask, request, heldRequest, same⟩ :=
    select_of_claimed formed member leased owned fits
  refine ⟨_, rfl, ?_⟩
  have work : databaseWork storage.database row owner draws.deletedAt =
      databaseWork storage.database row request draws.deletedAt := by
    rw [databaseWork_eq same, databaseWork_eq rfl]
  rw [work]
  unfold executeTask
  simp only [selected, heldTask, heldRequest, and_true]
  exact recorded_rewrites deployment _ storage false draws _ row request

/-- The row that it leaves. -/
theorem Database.Rewrites.settled {before after : Database}
    {settings : Settings} {executor : Bool} {ending : Ending}
    {row : RequestTask} {records : List DeviceCloudRecord}
    (rewrites : before.Rewrites after
      (Database.recordRow settings executor ending row) records)
    (formed : before.WellFormed) (member : row ∈ before.tasks) :
    after.task row.id = some (row.settle settings executor ending) := by
  obtain ⟨request, revises, _⟩ := rewrites.revises
  rw [revises.task_eq, formed.task_eq member, Option.map_some]
  simp [Database.recordRow, RequestTask.flush_settle_self]

/-- The session that a claim leaves fits the claimed tasks. -/
theorem fits_of_claimTasks (settings : Settings) (dialect : Dialect)
    (arguments : ClaimArguments) {database : Database}
    (formed : database.WellFormed) {row : RequestTask}
    (member : row ∈ (claimTasks settings dialect arguments
      database).1.tasks) :
    (claimTasks settings dialect arguments database).2.1.Fits
      (claimTasks settings dialect arguments database).1 row := by
  obtain ⟨session, taskIds, claimed, _, copies, requests, _⟩ :=
    claimTasks_spec settings dialect arguments formed.taskIds
  rw [claimed] at member ⊢
  constructor
  · intro copy held
    obtain ⟨old, inTable, same, taken, rfl⟩ := copies row.id copy held
    obtain ⟨before, present, rfl⟩ := List.mem_map.mp member
    have key := (Database.claimRow_identity taskIds arguments.workerId
      (arguments.leaseUntil settings) before)
    have isOld : old = before :=
      formed.taskIds.eq_of_mem inTable present
        (same.trans (congrArg Prod.fst key))
    subst isOld
    rw [same.symm] at taken
    exact (if_pos (decide_eq_true taken)).symm
  · intro copy held
    dsimp only at held
    rw [requests] at held
    cases held

end Calls

/-! ## Later calls -/

/-- The tables after a deletion, as long as nothing is seeded. -/
structure Storage.Emptied (storage : Storage) (scope : Scope) : Prop where
  formed : storage.database.WellFormed
  records : storage.database.Emptied scope

section Later

variable {deployment : Deployment} {scope : Scope} {storage next : Storage}

theorem Storage.Emptied.rewrite (emptied : storage.Emptied scope)
    {task : RequestTask → RequestTask} {ids : List String} {now : Time}
    (rewrites : storage.database.Rewrites next.database task
      (markDeleted ids now storage.database.records)) :
    next.Emptied scope := by
  obtain ⟨request, revises, _⟩ := rewrites.revises
  refine ⟨emptied.formed.revise revises, ?_⟩
  unfold Database.Emptied
  rw [rewrites.records]
  exact emptied_markDeleted emptied.records ids now

theorem Storage.Emptied.revise (emptied : storage.Emptied scope)
    {task : RequestTask → RequestTask}
    {request : PrivacyRequest → PrivacyRequest}
    (revises : Database.Revises storage.database next.database task request)
    (records : next.database.records = storage.database.records) :
    next.Emptied scope := by
  refine ⟨emptied.formed.revise revises, ?_⟩
  unfold Database.Emptied
  rw [records]
  exact emptied.records

/-- No call but `seed_records` brings a record back. -/
theorem Storage.Emptied.step (emptied : storage.Emptied scope)
    {action : SerialAction}
    (stepped : serialStep deployment storage action = some next) :
    next.Emptied scope := by
  cases action with
  | create intake =>
      simp only [serialStep] at stepped
      split at stepped
      next fresh =>
        cases stepped
        rw [Bool.and_eq_true, decide_eq_true_iff] at fresh
        unfold createPrivacyRequest
        split
        next =>
          split
          next => exact emptied
          next => exact emptied
        next =>
          exact ⟨emptied.formed.insertRows fresh.1 fresh.2, emptied.records⟩
      next => cases stepped
  | claimTasks arguments =>
      cases stepped
      obtain ⟨_, taskIds, claimed, _⟩ := claimTasks_spec deployment.settings
        deployment.dialect arguments emptied.formed.taskIds
      rw [claimed]
      exact emptied.revise (Database.markClaimed_revises ..) rfl
  | claimMessageTask workerId taskId now =>
      cases stepped
      rcases runClaimMessageTask_database deployment.settings
          deployment.dialect workerId taskId now storage.database with
        ⟨_, same⟩ | ⟨database, attempted, claimed⟩
      · rw [same]
        exact emptied
      · have marked :=
          (claimMessageTask_eq_some emptied.formed.taskIds attempted).1
        rw [claimed, marked]
        exact emptied.revise (Database.markClaimed_revises ..) rfl
  | extendTaskLease workerId taskId now =>
      cases stepped
      exact emptied.revise (Database.extendTaskLease_revises ..) rfl
  | executeTask draws workerId taskId session =>
      cases stepped
      rcases executeTask_cases deployment session storage draws workerId
        taskId with same | ⟨task, work, rewrites⟩
      · rw [same]
        exact emptied
      · exact emptied.rewrite rewrites
  | refreshRequestStatus draws requestId session =>
      cases stepped
      have refreshed := refreshRequestStatus_rewrites deployment session storage
        draws requestId
      obtain ⟨request, revises, _⟩ := refreshed.revises
      exact emptied.revise revises refreshed.records

end Later

/-! ## Results -/

/-- What the database backend answers from the active rows. -/
def sourceResult (kind : RequestKind) (rows : List DeviceCloudRecord) : Json :=
  match kind with
  | .access => accessResult rows
  | .delete => deleteResult rows

/-- The task is committed as succeeded, with its result. -/
def Database.Succeeded (database : Database) (taskId : String)
    (result : Json) : Prop :=
  ∃ row, database.task taskId = some row ∧ row.status = .succeeded ∧
    row.resultSummary = result

section Results

variable (deployment : Deployment) {storage : Storage} {session : Session}
  {workerId : String} {kind : RequestKind} {scope : Scope} {row : RequestTask}

/-- A task with the database backend always succeeds. -/
theorem executeTask_succeeds (formed : storage.database.WellFormed)
    (claimed : storage.database.Claimed workerId kind scope row)
    (fits : session.Fits storage.database row) (draws : TaskDraws) :
    (executeTask deployment draws workerId row.id session
        storage).1.database.Succeeded row.id
      (sourceResult kind (storage.database.records.filter
        (DeviceCloudRecord.activeIn scope))) ∧
    (executeTask deployment draws workerId row.id session storage).2.2 =
      true := by
  obtain ⟨owner, owned, rfl, rfl⟩ := claimed.owner
  obtain ⟨work, isWork, rewrites, answered⟩ := executeTask_claimed formed
    claimed.member claimed.leased owned fits draws
  have returned : work.ending = .returned (sourceResult owner.kind
      (storage.database.records.filter
        (DeviceCloudRecord.activeIn (row.scope owner)))) := by
    rw [isWork, databaseWork_eq rfl]
    cases owner.kind with
    | access => rfl
    | delete => rfl
  have settled := rewrites.settled formed claimed.member
  rw [returned] at settled answered
  exact ⟨⟨_, settled, rfl, rfl⟩, answered⟩

/-- Only a deletion changes records, and only the active ones of its scope. -/
theorem executeTask_rewrites (formed : storage.database.WellFormed)
    (keys : Table.KeyUnique DeviceCloudRecord.id storage.database.records)
    (claimed : storage.database.Claimed workerId .delete scope row)
    (fits : session.Fits storage.database row) (draws : TaskDraws) :
    ∃ ending, storage.database.Rewrites
      (executeTask deployment draws workerId row.id session storage).1.database
      (Database.recordRow deployment.settings false ending row)
      (storage.database.records.map fun record =>
        if record.activeIn scope then
          { record with deletedAt := some draws.deletedAt }
        else record) := by
  obtain ⟨owner, owned, isDelete, rfl⟩ := claimed.owner
  obtain ⟨work, isWork, rewrites, _⟩ := executeTask_claimed formed
    claimed.member claimed.leased owned fits draws
  refine ⟨work.ending, ?_⟩
  rw [← markDeleted_active keys]
  rw [isWork, databaseWork_eq rfl, isDelete] at rewrites ⊢
  exact rewrites

/-- A deletion leaves its scope empty. -/
theorem emptied_of_deleted {records : List DeviceCloudRecord} {now : Time} :
    ∀ record ∈ (records.map fun record =>
      if record.activeIn scope then { record with deletedAt := some now }
      else record), record.scope = scope → record.deletedAt ≠ none := by
  intro record member inScope
  obtain ⟨old, _, changed⟩ := List.mem_map.mp member
  split at changed
  next =>
    rw [← changed]
    exact Option.some_ne_none now
  next inactive =>
    rw [← changed] at inScope ⊢
    intro open_
    exact inactive (decide_eq_true ⟨inScope, open_⟩)

/-- The active rows of another scope are the ones that were active before. -/
theorem filter_deleted_of_ne {records : List DeviceCloudRecord} {now : Time}
    {other : Scope} (different : other ≠ scope) :
    ((records.map fun record =>
      if record.activeIn scope then { record with deletedAt := some now }
      else record).filter (DeviceCloudRecord.activeIn other)) =
        records.filter (DeviceCloudRecord.activeIn other) := by
  induction records with
  | nil => rfl
  | cons record records induction =>
      rw [List.map_cons]
      by_cases active : record.activeIn scope = true
      · have inScope := (of_decide_eq_true active).1
        have foreign : ∀ deletedAt, DeviceCloudRecord.activeIn other
            { record with deletedAt } = false := by
          intro deletedAt
          apply decide_eq_false
          rintro ⟨inOther, _⟩
          exact different (inOther.symm.trans inScope)
        rw [if_pos active, List.filter_cons_of_neg (by simp [foreign]),
          List.filter_cons_of_neg (by simp [foreign record.deletedAt]),
          induction]
      · rw [if_neg active, List.filter_cons, List.filter_cons, induction]

/-- Tasks of requests of different kinds are different. -/
theorem Database.Claimed.id_ne {database : Database}
    {firstId secondId : String} {firstKind secondKind : RequestKind}
    {firstScope secondScope : Scope} {first second : RequestTask}
    (left : database.Claimed firstId firstKind firstScope first)
    (formed : database.WellFormed)
    (right : database.Claimed secondId secondKind secondScope second)
    (different : firstKind ≠ secondKind) : first.id ≠ second.id := by
  intro same
  have equal := formed.taskIds.eq_of_mem left.member right.member same
  obtain ⟨owner, owned, isFirst, _⟩ := left.owner
  obtain ⟨other, otherOwned, isSecond, _⟩ := right.owner
  rw [equal, otherOwned] at owned
  cases owned
  exact different (isFirst.symm.trans isSecond)

/-- A claimed task of another kind is still claimed after the deletion. -/
theorem Database.Claimed.rewrite {before after : Database}
    {otherId : String} {otherKind : RequestKind} {otherScope : Scope}
    {other : RequestTask}
    (claimed : before.Claimed otherId otherKind otherScope other)
    {settings : Settings} {ending : Ending}
    {records : List DeviceCloudRecord}
    (rewrites : before.Rewrites after
      (Database.recordRow settings false ending row) records)
    (different : other.id ≠ row.id) :
    after.Claimed otherId otherKind otherScope other := by
  obtain ⟨request, revises, kept⟩ := rewrites.revises
  obtain ⟨owner, owned, isKind, inScope⟩ := claimed.owner
  refine ⟨?_, claimed.leased, request owner, ?_, ?_, ?_⟩
  · rw [revises.tasks]
    exact List.mem_map.mpr
      ⟨other, claimed.member, Database.recordRow_of_ne different _ _ _⟩
  · rw [revises.request_eq, owned]
    rfl
  · rw [(revises.requestKey owner).2]
    exact isKind
  · rw [← inScope]
    exact RequestTask.scope_eq rfl (kept owner)

end Results

/-- With the database backend and no concurrent change of records, a claimed
deletion succeeds and takes exactly the active rows of its scope; until new
records are seeded, later accesses of the scope find nothing and later
deletions count nothing; accesses of other scopes answer as if it had not
run. -/
theorem deletion_is_exact (deployment : Deployment) {storage : Storage}
    (formed : storage.database.WellFormed)
    (keys : Table.KeyUnique DeviceCloudRecord.id storage.database.records)
    {workerId : String} {scope : Scope} {row : RequestTask}
    (claimed : storage.database.Claimed workerId .delete scope row)
    {session : Session} (fits : session.Fits storage.database row)
    (draws : TaskDraws) {after : Storage} {result : Session × Bool}
    (executed : executeTask deployment draws workerId row.id session storage =
      (after, result)) :
    result.2 = true ∧
    after.database.Succeeded row.id (.obj [
      ("deleted_count", .int (storage.database.records.countP
        (DeviceCloudRecord.activeIn scope))),
      ("remaining_count", .int 0),
      ("verified", .bool true)]) ∧
    (after.database.records = storage.database.records.map fun record =>
      if record.scope = scope ∧ record.deletedAt = none then
        { record with deletedAt := some draws.deletedAt }
      else record) ∧
    (∀ actions later, Runs (serialStep deployment) Always after actions later →
      ∀ (laterId : String) (task : RequestTask) (held : Session)
          (laterDraws : TaskDraws), held.Fits later.database task →
        (later.database.Claimed laterId .access scope task →
          (executeTask deployment laterDraws laterId task.id held
            later).1.database.Succeeded task.id (.obj [
              ("record_count", .int 0), ("records", .arr []),
              ("verified", .bool true)])) ∧
        (later.database.Claimed laterId .delete scope task →
          (executeTask deployment laterDraws laterId task.id held
            later).1.database.Succeeded task.id (.obj [
              ("deleted_count", .int 0), ("remaining_count", .int 0),
              ("verified", .bool true)]))) ∧
    (∀ task request, task.scope request ≠ scope →
      executeAccess after.database task request =
        executeAccess storage.database task request) ∧
    ∀ (otherId : String) (other : Scope) (task : RequestTask)
        (held before : Session) (otherDraws : TaskDraws), other ≠ scope →
      storage.database.Claimed otherId .access other task →
      held.Fits after.database task → before.Fits storage.database task →
      ∃ answer,
        (executeTask deployment otherDraws otherId task.id held
          after).1.database.Succeeded task.id answer ∧
        (executeTask deployment otherDraws otherId task.id before
          storage).1.database.Succeeded task.id answer := by
  obtain ⟨succeeded, answered⟩ :=
    executeTask_succeeds deployment formed claimed fits draws
  obtain ⟨ending, rewrites⟩ :=
    executeTask_rewrites deployment formed keys claimed fits
      draws
  rw [executed] at succeeded answered rewrites
  obtain ⟨_, revises, _⟩ := rewrites.revises
  have formedAfter := formed.revise revises
  have emptied : after.Emptied scope := by
    refine ⟨formedAfter, ?_⟩
    unfold Database.Emptied
    rw [rewrites.records]
    exact emptied_of_deleted
  have others : ∀ other, other ≠ scope →
      after.database.records.filter (DeviceCloudRecord.activeIn other) =
        storage.database.records.filter
          (DeviceCloudRecord.activeIn other) := by
    intro other different
    rw [rewrites.records]
    exact filter_deleted_of_ne different
  refine ⟨answered, ?_, ?_, ?_, ?_, ?_⟩
  · rw [List.countP_eq_length_filter]
    exact succeeded
  · rw [rewrites.records]
    apply List.map_congr_left
    intro record _
    simp [DeviceCloudRecord.activeIn]
  · intro actions later execution laterId task held laterDraws current
    have still : later.Emptied scope :=
      execution.invariant (fun holds _ stepped =>
        Storage.Emptied.step holds stepped) emptied
    have none := still.records.filter_eq_nil
    constructor
    · intro access
      have answer := (executeTask_succeeds deployment
        still.formed access current laterDraws).1
      rw [none] at answer
      exact answer
    · intro repeated
      have answer := (executeTask_succeeds deployment
        still.formed repeated current laterDraws).1
      rw [none] at answer
      exact answer
  · intro task request different
    unfold executeAccess
    rw [activeRecords_eq, activeRecords_eq, others _ different]
  · intro otherId other task held before otherDraws different access current
      earlier
    have apart := access.id_ne formed claimed (by decide)
    have first := (executeTask_succeeds deployment formedAfter
      (access.rewrite rewrites apart) current otherDraws).1
    have second := (executeTask_succeeds deployment formed
      access earlier otherDraws).1
    rw [others other different] at first
    exact ⟨_, first, second⟩

def demoRecord (id tenantId : String) (deletedAt : Option Time) :
    DeviceCloudRecord :=
  { id, tenantId, subjectKeyHash := "h", source := "jobs", payload := .obj []
    deletedAt }

/-- Two active records of the scope, an older deletion and another tenant. -/
def demoTables : Database :=
  { (demoDeletion 'a' "k").insertRows demoRuntime .empty with
    records := [demoRecord "first" "t" none, demoRecord "old" "t" (some 3),
      demoRecord "other" "u" none, demoRecord "second" "t" none] }

def demoClaimed : Database × Session × List String :=
  claimTasks demoDeployment.settings .postgresql (demoClaim "w" 10) demoTables

def demoDraws : TaskDraws :=
  { deletedAt := 20, recordedAt := 21, generatedAt := 22, refreshedAt := 23
    noticeId := "notice" }

theorem demoTables_formed : demoTables.WellFormed := by
  have formed : ((demoDeletion 'a' "k").insertRows demoRuntime
      .empty).WellFormed :=
    State.tidy_initial.tables.insertRows (by decide) (by decide)
  exact ⟨formed.taskIds, formed.requestIds, formed.owned, formed.named⟩

theorem demoClaimed_formed : demoClaimed.1.WellFormed := by
  obtain ⟨_, taskIds, claimed, _⟩ := claimTasks_spec demoDeployment.settings
    .postgresql (demoClaim "w" 10) demoTables_formed.taskIds
  unfold demoClaimed
  rw [claimed]
  exact demoTables_formed.revise (Database.markClaimed_revises ..)

/-- The two active records are deleted and counted. -/
theorem claimed_deletion_takes_active_records :
    ∃ row ∈ demoClaimed.1.tasks, ∃ after,
      (executeTask demoDeployment demoDraws "w" row.id demoClaimed.2.1
        { database := demoClaimed.1, artifacts := [] }).1 = after ∧
      after.database.Succeeded row.id (.obj [
        ("deleted_count", .int 2), ("remaining_count", .int 0),
        ("verified", .bool true)]) ∧
      after.database.records = [demoRecord "first" "t" (some 20),
        demoRecord "old" "t" (some 3), demoRecord "other" "u" none,
        demoRecord "second" "t" (some 20)] := by
  have leased : demoClaimed.1.tasks.any (fun row => row.leasedBy "w" &&
      (demoClaimed.1.request row.requestId).any fun owner =>
        decide (owner.kind = .delete ∧ row.scope owner = demoScope)) =
      true := by
    decide +kernel
  obtain ⟨row, member, held⟩ := List.any_eq_true.mp leased
  rw [Bool.and_eq_true] at held
  obtain ⟨owner, owned, isOwner⟩ := (Option.any_eq_true _ _).mp held.2
  have claimed : demoClaimed.1.Claimed "w" .delete demoScope row :=
    ⟨member, held.1, _, owned, of_decide_eq_true isOwner⟩
  have fits : demoClaimed.2.1.Fits demoClaimed.1 row :=
    fits_of_claimTasks _ _ _ demoTables_formed member
  have keys : Table.KeyUnique DeviceCloudRecord.id demoClaimed.1.records := by
    have distinct : (demoClaimed.1.records.map DeviceCloudRecord.id).Nodup := by
      decide +kernel
    exact distinct
  obtain ⟨after, result, executed⟩ : ∃ after result, executeTask
      demoDeployment demoDraws "w" row.id demoClaimed.2.1
      { database := demoClaimed.1, artifacts := [] } = (after, result) :=
    ⟨_, _, rfl⟩
  obtain ⟨_, succeeded, records, _⟩ := deletion_is_exact demoDeployment
    demoClaimed_formed keys claimed fits demoDraws executed
  refine ⟨row, member, after, congrArg Prod.fst executed, succeeded, ?_⟩
  rw [records]
  decide +kernel

end FleetPrivacy
