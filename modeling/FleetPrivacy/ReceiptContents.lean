import FleetPrivacy.ExactDeletion
import FleetPrivacy.Regional
import FleetPrivacy.SourceExecution

/-!
# What a succeeded task reports

`execute_task` with either source backend.  The database backend builds its
result from rows; the regional one passes on whatever the payload model lets
through, and the model leaves every count optional.
-/

namespace FleetPrivacy

/-- `source_backend`, with the answers that the regional executor gets. -/
inductive SourceBackend where
  | database
  | http (template : AimdConcurrencyController) (conduct : Conduct)

namespace SourceBackend

/-- `source_executor is not None`. -/
def executor : SourceBackend → Bool
  | .database => false
  | .http _ _ => true

def work (validate : Json → Except String SourceResultPayload)
    (database : Database) (task : RequestTask) (request : PrivacyRequest)
    (deletedAt : Time) : SourceBackend → Work
  | .database => databaseWork database task request deletedAt
  | .http template conduct =>
      { ending := sourceEnding (sourceExecute validate template
          (sourceOperation task request) conduct).2
        deleted := []
        deletedAt }

end SourceBackend

/-- `execute_task`.  A cancellation leaves it after the commit. -/
def executeSourceTask (deployment : Deployment)
    (validate : Json → Except String SourceResultPayload)
    (backend : SourceBackend) (draws : TaskDraws) (workerId taskId : String)
    (session : Session) (storage : Storage) : Storage × Session × Outcome Bool :=
  match storage.database.tasks.find? fun task =>
      decide (task.id = taskId) && task.leasedBy workerId with
  | none => (storage, session, .returned false)
  | some row =>
      let session := (session.loadTasks [row]).loadRequests
        (storage.database.requests.filter fun request =>
          decide (request.id = row.requestId))
      match session.task taskId with
      | none => (storage, session, .returned false)
      | some task =>
          match session.request task.requestId with
          | none => (storage, session, .returned false)
          | some request =>
              let work := backend.work validate storage.database task request
                draws.deletedAt
              let database := recordOutcome deployment.runtime
                deployment.settings backend.executor work task request
                draws.recordedAt storage.database
              let settled := task.settle deployment.settings backend.executor
                work.ending
              if work.ending = .cancelled then
                ({ storage with database }, session, .cancelled)
              else
                let refreshed := refreshRequestStatus deployment draws
                  task.requestId
                  ((session.putTask settled).putRequest request.verify)
                  { storage with database }
                (refreshed.1, refreshed.2,
                  .returned (decide (settled.status = .succeeded)))

/-- A natural number under the name. -/
def HasCount (summary : Json) (name : String) : Prop :=
  ∃ count : Int, 0 ≤ count ∧ summary.get? name = some (.int count)

/-- The evidence that both backends owe. -/
def Evidences (summary : Json) (kind : RequestKind) : Prop :=
  summary.get? "verified" = some (.bool true) ∧
    match kind with
    | .access => HasCount summary "record_count"
    | .delete => HasCount summary "deleted_count" ∧
        summary.get? "remaining_count" = some (.int 0)

/-- The count that evidence of the kind must give. -/
def SourceResultPayload.count (payload : SourceResultPayload) :
    RequestKind → Option Int
  | .access => payload.recordCount
  | .delete => payload.deletedCount

/-- The regional source gets an admitted call accepted with a payload that
gives no count, or a negative one. -/
def SourceBackend.Uncounted
    (validate : Json → Except String SourceResultPayload)
    (kind : RequestKind) : SourceBackend → Prop
  | .database => False
  | .http _ conduct =>
      conduct.admission.isSome = true ∧ conduct.adjustError = none ∧
      conduct.releaseError = none ∧
      ∃ payload, conduct.exchange.Accepted validate kind.value payload ∧
        ∀ count, payload.count kind = some count → count < 0

/-- Fields that the model declares are not kept as extra ones. -/
def ExtraUndeclared (validate : Json → Except String SourceResultPayload) :
    Prop :=
  ∀ body payload, validate body = .ok payload → ∀ field ∈ payload.extra,
    field.1 ∉ ["verified", "record_count", "deleted_count", "remaining_count"]

/-! ## The two results -/

theorem sourceResult_evidences (kind : RequestKind)
    (rows : List DeviceCloudRecord) : Evidences (sourceResult kind rows) kind := by
  cases kind with
  | access => exact ⟨rfl, _, Int.natCast_nonneg _, rfl⟩
  | delete => exact ⟨rfl, ⟨_, Int.natCast_nonneg _, rfl⟩, rfl⟩

theorem lookup_countField (name key : String) (count : Option Int) :
    (SourceResultPayload.countField name count).lookup key =
      if key = name then count.map .int else none := by
  cases count with
  | none => simp [SourceResultPayload.countField]
  | some value =>
      by_cases same : key = name
      · simp [SourceResultPayload.countField, same]
      · have differs : (key == name) = false := beq_false_of_ne same
        simp [SourceResultPayload.countField, List.lookup_cons, differs, same]

/-- A declared field of the dump is the payload's own. -/
theorem modelDump_get {payload : SourceResultPayload}
    (undeclared : ∀ field ∈ payload.extra,
      field.1 ∉ ["verified", "record_count", "deleted_count",
        "remaining_count"]) :
    payload.modelDump.get? "verified" = some (.bool payload.verified) ∧
    payload.modelDump.get? "record_count" =
      payload.recordCount.map .int ∧
    payload.modelDump.get? "deleted_count" =
      payload.deletedCount.map .int ∧
    payload.modelDump.get? "remaining_count" =
      payload.remainingCount.map .int := by
  have absent : ∀ name ∈ ["verified", "record_count", "deleted_count",
      "remaining_count"], (payload.extra.filter fun field =>
        decide (field.2 ≠ .null)).lookup name = none := by
    intro name declared
    rw [List.lookup_eq_none_iff]
    intro field member
    have foreign := undeclared field (List.mem_of_mem_filter member)
    simp only [bne_iff_ne, ne_eq]
    rintro rfl
    exact foreign declared
  have record := absent "record_count" (by simp)
  have deleted := absent "deleted_count" (by simp)
  have remaining := absent "remaining_count" (by simp)
  have read : ∀ name, name ≠ "verified" → payload.modelDump.get? name =
      ((((SourceResultPayload.countField "record_count"
          payload.recordCount).lookup name).or
        ((SourceResultPayload.countField "deleted_count"
          payload.deletedCount).lookup name)).or
        ((SourceResultPayload.countField "remaining_count"
          payload.remainingCount).lookup name)).or
        ((payload.extra.filter fun field =>
          decide (field.2 ≠ .null)).lookup name) := by
    intro name other
    unfold SourceResultPayload.modelDump Json.get?
    have differs : (name == "verified") = false := beq_false_of_ne other
    simp only [List.lookup_cons, differs, List.lookup_append]
  refine ⟨rfl, ?_, ?_, ?_⟩
  · rw [read _ (by decide), record]
    simp [lookup_countField]
  · rw [read _ (by decide), deleted]
    simp [lookup_countField]
  · rw [read _ (by decide), remaining]
    simp [lookup_countField]

/-- An accepted payload is evidence exactly when it gives its count. -/
theorem modelDump_evidences_iff {payload : SourceResultPayload}
    {kind : RequestKind}
    (undeclared : ∀ field ∈ payload.extra,
      field.1 ∉ ["verified", "record_count", "deleted_count",
        "remaining_count"])
    (asserted : payload.assertKind kind.value = none) :
    Evidences payload.modelDump kind ↔
      ¬ ∀ count, payload.count kind = some count → count < 0 := by
  obtain ⟨verified, record, deleted, remaining⟩ := modelDump_get undeclared
  obtain ⟨isVerified, cleared⟩ := assertKind_eq_none.mp asserted
  have counts : ∀ {name : String} {count : Option Int},
      payload.modelDump.get? name = count.map .int →
      (HasCount payload.modelDump name ↔
        ¬ ∀ value, count = some value → value < 0) := by
    intro name count read
    rw [HasCount, read]
    cases count with
    | none => simp
    | some value => simp
  cases kind with
  | access =>
      simp only [Evidences, verified, isVerified, true_and]
      exact counts record
  | delete =>
      have zero := cleared rfl
      simp only [Evidences, verified, isVerified, remaining, zero, true_and,
        Option.map_some, and_true]
      exact counts deleted

/-! ## The regional executor -/

section Regional

variable {validate : Json → Except String SourceResultPayload}
  {template : AimdConcurrencyController} {operation : SourceOperation}
  {conduct : Conduct}

/-- When the shared state fails, no receipt is returned. -/
theorem exchangeAndPublish_of_adjustError
    {controller : AimdConcurrencyController} {message : String}
    (failed : conduct.adjustError = some message) (receipt : SourceReceipt) :
    (exchangeAndPublish validate controller operation conduct).2 ≠
      .returned receipt := by
  unfold exchangeAndPublish
  dsimp only
  split
  next => simp [publishDecision, failed]
  next => simp [publishDecision, failed]
  next => simp

/-- The work of a regional task ends with a result exactly for an admitted
call, with a shared state that answers, and an accepted exchange. -/
theorem sourceEnding_returned_iff {summary : Json} :
    sourceEnding (sourceExecute validate template operation conduct).2 =
        .returned summary ↔
      conduct.admission.isSome = true ∧ conduct.adjustError = none ∧
      conduct.releaseError = none ∧ ∃ payload,
        conduct.exchange.Accepted validate operation.kind payload ∧
        summary = payload.modelDump := by
  cases admission : conduct.admission with
  | none => simp [sourceExecute, admission, sourceEnding]
  | some limit =>
      cases released : conduct.releaseError with
      | some message => simp [sourceExecute, admission, released, sourceEnding]
      | none =>
          simp only [sourceExecute, admission, released, Option.isSome_some,
            true_and]
          cases adjusted : conduct.adjustError with
          | some message =>
              simp only [reduceCtorEq, false_and, iff_false]
              intro ended
              obtain ⟨receipt, returned, _⟩ := accepted_of_sourceEnding ended
              exact exchangeAndPublish_of_adjustError adjusted receipt returned
          | none =>
              simp only [true_and]
              by_cases cancelled : conduct.exchange = .cancelled
              · rw [exchangeAndPublish_cancelled cancelled]
                simp only [sourceEnding, reduceCtorEq, false_iff, not_exists]
                rintro payload ⟨⟨_, _, _, _, answered, _⟩, _⟩
                rw [cancelled] at answered
                cases answered
              · have published := exchangeAndPublish_published validate
                  operation
                  { template with limit, latencies := [], failures := 0 } rfl
                  adjusted cancelled
                constructor
                · intro ended
                  obtain ⟨receipt, returned, succeeded, rfl⟩ :=
                    accepted_of_sourceEnding ended
                  exact published.accepted receipt returned succeeded
                · rintro ⟨payload, accepted, rfl⟩
                  obtain ⟨receipt, returned, succeeded, dumped⟩ :=
                    published.accepts payload accepted
                  rw [returned, sourceEnding, if_pos succeeded, dumped]

end Regional

/-! ## One task -/

/-- A leased task is committed as succeeded exactly with a returned result. -/
theorem settle_succeeded_iff {row : RequestTask} {workerId : String}
    (leased : row.leasedBy workerId = true) (settings : Settings)
    (executor : Bool) (ending : Ending) :
    (row.settle settings executor ending).status = .succeeded ↔
      ∃ summary, ending = .returned summary ∧
        (row.settle settings executor ending).resultSummary = summary := by
  cases ending with
  | returned payload => simp [RequestTask.settle]
  | raised message =>
      simp only [RequestTask.settle, reduceCtorEq, false_and, exists_false,
        iff_false]
      split
      next => simp
      next => simp
  | cancelled =>
      have running := (RequestTask.leasedBy_iff.mp leased).1
      simp [RequestTask.settle, running]

section Task

variable {deployment : Deployment} {storage : Storage} {session : Session}
  {validate : Json → Except String SourceResultPayload}
  {backend : SourceBackend}

theorem SourceBackend.work_eq {database : Database} {row : RequestTask}
    {request owner : PrivacyRequest} (same : request.identity = owner.identity)
    (deletedAt : Time) :
    backend.work validate database row request deletedAt =
      backend.work validate database row owner deletedAt := by
  cases backend with
  | database =>
      simp only [SourceBackend.work]
      rw [databaseWork_eq same, databaseWork_eq rfl]
  | http template conduct =>
      simp only [SourceBackend.work]
      rw [sourceOperation_eq rfl same]

/-- The row that `execute_task` leaves of a task its worker holds. -/
theorem executeSourceTask_settles (formed : storage.database.WellFormed)
    {workerId : String} {row : RequestTask} {owner : PrivacyRequest}
    (member : row ∈ storage.database.tasks)
    (leased : row.leasedBy workerId = true)
    (owned : storage.database.request row.requestId = some owner)
    (fits : session.Fits storage.database row) (draws : TaskDraws) :
    (executeSourceTask deployment validate backend draws workerId row.id
        session storage).1.database.task row.id =
      some (row.settle deployment.settings backend.executor
        (backend.work validate storage.database row owner
          draws.deletedAt).ending) := by
  obtain ⟨selected, heldTask, request, heldRequest, same⟩ :=
    select_of_claimed formed member leased owned fits
  rw [← SourceBackend.work_eq same]
  unfold executeSourceTask
  simp only [selected, heldTask, heldRequest]
  split
  next =>
    dsimp only
    rw [(Database.recordOutcome_revises ..).task_eq, formed.task_eq member,
      Option.map_some]
    simp [Database.recordRow, RequestTask.flush_settle_self]
  next =>
    exact (recorded_rewrites deployment _ storage backend.executor draws _ row
      request).settled formed member

end Task

/-- Without an executor this is the `execute_task` of `process_once`. -/
theorem executeSourceTask_database (deployment : Deployment)
    (validate : Json → Except String SourceResultPayload) (draws : TaskDraws)
    (workerId taskId : String) (session : Session) (storage : Storage) :
    executeSourceTask deployment validate .database draws workerId taskId
        session storage =
      ((executeTask deployment draws workerId taskId session storage).1,
        (executeTask deployment draws workerId taskId session storage).2.1,
        .returned (executeTask deployment draws workerId taskId session
          storage).2.2) := by
  have finishes : ∀ task request, (SourceBackend.database.work validate
      storage.database task request draws.deletedAt).ending ≠ .cancelled := by
    intro task request
    simp only [SourceBackend.work]
    rw [databaseWork_eq rfl]
    dsimp only
    split
    next => simp
    next => simp
  unfold executeSourceTask executeTask
  cases storage.database.tasks.find? fun task =>
      decide (task.id = taskId) && task.leasedBy workerId with
  | none => rfl
  | some row =>
      dsimp only
      cases ((session.loadTasks [row]).loadRequests
          (storage.database.requests.filter fun request =>
            decide (request.id = row.requestId))).task taskId with
      | none => rfl
      | some task =>
          dsimp only
          cases ((session.loadTasks [row]).loadRequests
              (storage.database.requests.filter fun request =>
                decide (request.id = row.requestId))).request
                  task.requestId with
          | none => rfl
          | some request =>
              dsimp only
              rw [if_neg (finishes task request)]
              rfl

/-- A task that is committed as succeeded carries its evidence, whatever the
backend, exactly when no accepted payload leaves its count out. -/
theorem succeeded_task_has_evidence_iff (deployment : Deployment)
    (validate : Json → Except String SourceResultPayload)
    (undeclared : ExtraUndeclared validate) (backend : SourceBackend)
    {storage : Storage} (formed : storage.database.WellFormed)
    {workerId : String} {row : RequestTask} {owner : PrivacyRequest}
    (member : row ∈ storage.database.tasks)
    (leased : row.leasedBy workerId = true)
    (owned : storage.database.request row.requestId = some owner)
    {session : Session} (fits : session.Fits storage.database row)
    (draws : TaskDraws) :
    (∀ settled, (executeSourceTask deployment validate backend draws workerId
        row.id session storage).1.database.task row.id = some settled →
      settled.status = .succeeded →
      Evidences settled.resultSummary owner.kind) ↔
    ¬ backend.Uncounted validate owner.kind := by
  rw [executeSourceTask_settles formed member leased owned fits draws]
  simp only [Option.some.injEq, forall_eq', settle_succeeded_iff leased]
  cases backend with
  | database =>
      simp only [SourceBackend.Uncounted, not_false_eq_true, iff_true]
      rintro ⟨summary, ended, shown⟩
      rw [shown]
      simp only [SourceBackend.work] at ended
      rw [databaseWork_eq rfl] at ended
      have isResult : summary = sourceResult owner.kind
          (storage.database.records.filter
            (DeviceCloudRecord.activeIn (row.scope owner))) := by
        cases kind : owner.kind with
        | access | delete =>
            rw [kind] at ended
            cases ended
            rfl
      rw [isResult]
      exact sourceResult_evidences _ _
  | http template conduct =>
      constructor
      · rintro evidence ⟨admitted, adjusted, released, payload, accepted,
          uncounted⟩
        have ended : (SourceBackend.work validate storage.database row owner
            draws.deletedAt (.http template conduct)).ending =
              .returned payload.modelDump :=
          sourceEnding_returned_iff.mpr
            ⟨admitted, adjusted, released, payload, accepted, rfl⟩
        have shown := evidence ⟨_, ended, by rw [ended]; rfl⟩
        rw [ended] at shown
        obtain ⟨_, _, _, value, _, _, _, valid, asserted⟩ := accepted
        exact (modelDump_evidences_iff (undeclared value payload valid)
          asserted).mp shown uncounted
      · rintro counted ⟨summary, ended, shown⟩
        rw [shown]
        obtain ⟨admitted, adjusted, released, payload, accepted, rfl⟩ :=
          sourceEnding_returned_iff.mp ended
        have ⟨_, _, _, value, _, _, _, valid, asserted⟩ := accepted
        apply (modelDump_evidences_iff (undeclared value payload valid)
          asserted).mpr
        intro uncounted
        exact counted ⟨admitted, adjusted, released, payload, accepted,
          uncounted⟩

theorem extraUndeclared_validatePlain : ExtraUndeclared validatePlain := by
  intro body payload valid field member
  cases body with
  | obj fields =>
      simp only [validatePlain] at valid
      split at valid
      next =>
        cases valid
        exact of_decide_eq_true (List.mem_filter.mp member).2
      next => cases valid
  | null | bool | int | str | arr => cases valid

/-- An admitted call that is answered with a payload. -/
private def answeredWith (payload : Json) : SourceBackend :=
  .http plainController {
    admission := some 4
    exchange := .answered 200 (.json payload) (1 / 10)
    adjustError := none
    releaseError := none }

private def regionalStorage : Storage :=
  { database := demoClaimed.1, artifacts := [] }

/-- A payload with all three fields is recorded as evidence. -/
theorem counted_deletion_is_evidence :
    ∃ settled, (executeSourceTask demoDeployment validatePlain
        (answeredWith (.obj [("verified", .bool true),
          ("deleted_count", .int 3), ("remaining_count", .int 0)]))
        demoDraws "w" "aa" demoClaimed.2.1 regionalStorage).1.database.task
          "aa" = some settled ∧
      settled.status = .succeeded ∧
      Evidences settled.resultSummary .delete := by
  have leased : demoClaimed.1.tasks.any (fun row => decide (row.id = "aa") &&
      row.leasedBy "w" && (demoClaimed.1.request row.requestId).any fun owner =>
        decide (owner.kind = .delete)) = true := by
    decide +kernel
  obtain ⟨row, member, held⟩ := List.any_eq_true.mp leased
  simp only [Bool.and_eq_true, decide_eq_true_iff] at held
  obtain ⟨⟨isRow, holds⟩, kinds⟩ := held
  obtain ⟨owner, owned, isDelete⟩ := (Option.any_eq_true _ _).mp kinds
  have formed : regionalStorage.database.WellFormed := demoClaimed_formed
  have evidence := (succeeded_task_has_evidence_iff demoDeployment
    validatePlain extraUndeclared_validatePlain
    (answeredWith (.obj [("verified", .bool true), ("deleted_count", .int 3),
      ("remaining_count", .int 0)])) formed member holds owned
    (fits_of_claimTasks _ _ _ demoTables_formed member) demoDraws).mpr (by
      rintro ⟨_, _, _, payload, accepted, uncounted⟩
      obtain ⟨_, value, isValue, valid, _⟩ := accepted.of_answered
      cases isValue
      cases valid
      rw [of_decide_eq_true isDelete] at uncounted
      exact absurd (uncounted 3 rfl) (by decide))
  rw [isRow, of_decide_eq_true isDelete] at evidence
  have committed : ((executeSourceTask demoDeployment validatePlain
      (answeredWith (.obj [("verified", .bool true),
        ("deleted_count", .int 3), ("remaining_count", .int 0)]))
      demoDraws "w" "aa" demoClaimed.2.1 regionalStorage).1.database.task
        "aa").map RequestTask.status = some .succeeded := by
    decide +kernel
  obtain ⟨settled, found, succeeded⟩ := Option.map_eq_some_iff.mp committed
  exact ⟨settled, found, succeeded, evidence settled found succeeded⟩

/-- The source verifies that nothing remains and does not say how much it
deleted: the task succeeds without a `deleted_count`. -/
theorem uncounted_deletion_succeeds :
    ∃ settled, (executeSourceTask demoDeployment validatePlain
        (answeredWith (.obj [("verified", .bool true),
          ("remaining_count", .int 0)]))
        demoDraws "w" "aa" demoClaimed.2.1 regionalStorage).1.database.task
          "aa" = some settled ∧
      settled.status = .succeeded ∧
      settled.resultSummary.get? "deleted_count" = none ∧
      ¬ Evidences settled.resultSummary .delete := by
  have committed : ((executeSourceTask demoDeployment validatePlain
      (answeredWith (.obj [("verified", .bool true),
        ("remaining_count", .int 0)]))
      demoDraws "w" "aa" demoClaimed.2.1 regionalStorage).1.database.task
        "aa").map (fun settled => (settled.status,
          settled.resultSummary.get? "deleted_count")) =
        some (.succeeded, none) := by
    decide +kernel
  obtain ⟨settled, found, values⟩ := Option.map_eq_some_iff.mp committed
  obtain ⟨succeeded, missing⟩ := Prod.mk.inj values
  refine ⟨settled, found, succeeded, missing, ?_⟩
  rintro ⟨_, ⟨count, _, present⟩, _⟩
  rw [missing] at present
  cases present

end FleetPrivacy
