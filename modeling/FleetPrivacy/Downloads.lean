import FleetPrivacy.ArtifactContainment
import FleetPrivacy.Library.JsonReader
import FleetPrivacy.RequestLedger

/-!
# Downloads of delivered requests

`download_artifact` reads a request row that some refresh has committed and
serves an object that some upload, of that refresh or of another one, has
written.  Every stored object is a document about one request whose tasks have
settled for good, and every committed path is the address of the request's own
object.  A download is therefore decided by the ledger: it answers with the
delivery of the job, in a text that a JSON reader takes back.
-/

namespace FleetPrivacy

open Transition Settlement

/-! ## Answers -/

instance (job : RequestJob) : Decidable (Delivers job) :=
  inferInstanceAs (Decidable (_ ∧ _))

/-- The document about a job; the policy version and the time are those of the
upload. -/
def deliveryDocument (facts : RequestFacts) (sources : List (String × Json))
    (policyVersion generatedAt : String) : Json :=
  .obj [
    ("request_id", .str facts.1),
    ("tenant_id", .str facts.2.1),
    ("kind", .str facts.2.2.2.1.value),
    ("policy_version", .str policyVersion),
    ("sources", .obj sources),
    ("generated_at", .str generatedAt)]

/-- What the tenant of a delivered request is answered. -/
def deliveredAnswer (deployment : Deployment)
    (tenantId requestId content : String) : Response :=
  match deployment.settings.artifactBackend with
  | .localDirectory =>
      if StaysBelow deployment.artifactRoot tenantId then
        .ok (.file (requestId ++ ".json") content)
      else .httpException 404 "artifact file not found"
  | .s3 bucket keyPrefix =>
      { statusCode := 307
        body := .redirect (deployment.presign bucket
          (s3ArtifactKey keyPrefix tenantId requestId)
          deployment.settings.artifactPresignSeconds) }

/-- The answer to a download, from the ledger and the stored content. -/
def ledgerAnswer (deployment : Deployment)
    (tenantId requestId content : String) : Option RequestJob → Response
  | none => .httpException 404 "privacy request not found"
  | some job =>
      if job.facts.2.1 ≠ tenantId then
        .httpException 404 "privacy request not found"
      else if Delivers job then
        deliveredAnswer deployment tenantId requestId content
      else .httpException 409 "artifact is not ready"

def State.storage (state : State) : Storage :=
  { database := state.database, artifacts := state.artifacts }

/-- The object under the key of a job is the text of its delivery, and is read
as that. -/
def DeliveryStored (deployment : Deployment) (state : State)
    (job : RequestJob) (content : String) : Prop :=
  state.artifacts.get
      (artifactLocation deployment job.facts.2.1 job.facts.1) =
        some content ∧
    ∃ policyVersion generatedAt,
      content = (deliveryDocument job.facts (delivery job) policyVersion
        generatedAt).dumps ∧
      Json.loads content = some (deliveryDocument job.facts (delivery job)
        policyVersion generatedAt).sorted

/-! ## Results are mappings -/

/-- A result that the source work returns has each key once, as a `dict`. -/
def Ending.returnsMapping : Ending → Bool
  | .returned payload => payload.keysDistinct
  | .raised _ | .cancelled => true

def Action.returnsMappings : Action → Prop
  | .work _ outcome => outcome.ending.returnsMapping = true
  | _ => True

instance (action : Action) : Decidable action.returnsMappings :=
  match action with
  | .work _ outcome =>
      inferInstanceAs (Decidable (outcome.ending.returnsMapping = true))
  | .create _ | .relaySelect _ | .relayPublish _ _ _ _ | .relayCommit _
  | .relayCrash _ | .deliver _ _ _ | .messageGet _ _ | .messageClaim _
  | .processOnce _ | .selectTask _ | .recordTask _ _ | .refreshSelect _
  | .upload _ _ _ | .refreshCommit _ _ _ | .ack _ | .crash _
  | .extendLease _ _ _ => .isTrue trivial

def Documenting (state : State) (action : Action) : Prop :=
  Archiving state action ∧ action.returnsMappings

instance (state : State) (action : Action) :
    Decidable (Documenting state action) :=
  inferInstanceAs (Decidable (_ ∧ _))

def Phase.ReturnsMapping (phase : Phase) : Prop :=
  ∀ taskId work, phase = .worked taskId work →
    work.ending.returnsMapping = true

structure Legible (state : State) : Prop where
  results : ∀ task ∈ state.database.tasks,
    task.resultSummary.keysDistinct = true
  works : ∀ call ∈ state.calls, call.phase.ReturnsMapping

/-- The result of a row after the commit of an outcome: its own, or what the
work returned. -/
theorem recordRow_result (settings : Settings) (executor : Bool)
    {ending : Ending} (returns : ending.returnsMapping = true)
    (task row : RequestTask) :
    (Database.recordRow settings executor ending task row).resultSummary =
        row.resultSummary ∨
      (Database.recordRow settings executor ending task
        row).resultSummary.keysDistinct = true := by
  unfold Database.recordRow
  split
  next =>
    cases ending with
    | returned payload =>
        by_cases same : payload = task.resultSummary
        · left
          simp [RequestTask.flush, RequestTask.settle, flushColumn, same]
        · right
          have written : (task.flush (task.settle settings executor
              (.returned payload)) row).resultSummary = payload :=
            flushColumn_of_ne same _
          rw [written]
          exact returns
    | raised message => exact .inl (flushColumn_unchanged _ _)
    | cancelled => exact .inl (flushColumn_unchanged _ _)
  next => exact .inl rfl

theorem Legible.results_of_revises {before after : Database}
    {task : RequestTask → RequestTask}
    {request : PrivacyRequest → PrivacyRequest}
    (revises : Database.Revises before after task request)
    (results : ∀ row ∈ before.tasks, row.resultSummary.keysDistinct = true)
    (kept : ∀ row ∈ before.tasks,
      (task row).resultSummary = row.resultSummary ∨
        (task row).resultSummary.keysDistinct = true) :
    ∀ row ∈ after.tasks, row.resultSummary.keysDistinct = true := by
  intro row member
  rw [revises.tasks] at member
  obtain ⟨old, inTable, rfl⟩ := List.mem_map.mp member
  rcases kept old inTable with same | distinct
  · rw [same]
    exact results old inTable
  · exact distinct

theorem Legible.step {deployment : Deployment} {state next : State}
    {action : Action} (legible : Legible state) (tidy : state.Tidy)
    (mappings : action.returnsMappings)
    (stepped : FleetPrivacy.step deployment state action = some next) :
    Legible next := by
  have effect := effect_of_step tidy.tables.taskIds stepped
  have kept : ∀ {index : Nat} {new : Call}, new.phase.ReturnsMapping →
      ∀ call ∈ (state.put index new).calls, call.phase.ReturnsMapping := by
    intro index new returns call member
    rcases State.mem_put member with isNew | isOld
    · rw [isNew]
      exact returns
    · exact legible.works call isOld
  have resumes : ∀ (call : Call) (result : Bool),
      (call.resume result).ReturnsMapping := by
    intro call result taskId work phase
    unfold Call.resume at phase
    split at phase
    next => cases phase
    next => cases phase
  cases effect with
  | created intake =>
      refine ⟨?_, legible.works⟩
      intro row member
      rcases List.mem_append.mp member with old | new
      · exact legible.results row old
      · obtain ⟨_, _, rfl⟩ := List.mem_map.mp new
        rfl
  | relayed => exact ⟨legible.results, legible.works⟩
  | opened =>
      refine ⟨legible.results, ?_⟩
      intro call member
      rcases List.mem_append.mp member with old | new
      · exact legible.works call old
      · rw [List.mem_singleton.mp new]
        intro taskId work phase
        cases phase
  | moved action index call after artifacts found move =>
      refine ⟨legible.results, kept ?_⟩
      cases move with
      | worked taskId work phase =>
          intro otherId other same
          cases same
          exact mappings
      | skipped => exact resumes call false
      | _ =>
          intro otherId other same
          cases same
  | messageClaimed index call taskId now found =>
      refine ⟨Legible.results_of_revises (Database.markClaimed_revises ..)
        legible.results ?_, kept ?_⟩
      · intro row _
        unfold Database.claimRow
        split
        next => exact .inl rfl
        next => exact .inl rfl
      · intro otherId work same
        cases same
  | batchClaimed =>
      refine ⟨Legible.results_of_revises (Database.markClaimed_revises ..)
        legible.results ?_, ?_⟩
      · intro row _
        unfold Database.claimRow
        split
        next => exact .inl rfl
        next => exact .inl rfl
      · intro call member
        rcases List.mem_append.mp member with old | new
        · exact legible.works call old
        · rw [List.mem_singleton.mp new]
          intro taskId work phase
          cases phase
  | selected index call taskId todo row found =>
      refine ⟨legible.results, kept ?_⟩
      intro otherId work same
      cases same
  | recorded index call taskId work task request now found phase =>
      refine ⟨Legible.results_of_revises (Database.recordOutcome_revises ..)
        legible.results ?_, kept ?_⟩
      · intro row _
        apply recordRow_result
        exact legible.works call (List.mem_of_getElem? found) taskId work phase
      · intro otherId other same
        unfold Call.afterRecord at same
        split at same
        next => cases same
        next => cases same
  | locked index call requestId own session found =>
      refine ⟨legible.results, kept ?_⟩
      intro otherId work same
      cases same
  | refreshed index call requestId own reference request noticeId now found =>
      refine ⟨Legible.results_of_revises (Database.commitRefresh_revises ..)
        legible.results fun _ _ => .inl rfl, kept ?_⟩
      exact resumes call _
  | acked index call slot message found =>
      refine ⟨legible.results, kept ?_⟩
      intro otherId work same
      cases same
  | extended workerId taskId now =>
      refine ⟨Legible.results_of_revises (Database.extendTaskLease_revises ..)
        legible.results ?_, legible.works⟩
      intro row _
      unfold Database.extendRow
      split
      next => exact .inl rfl
      next => exact .inl rfl

/-! ## Documents and addresses -/

/-- The path of a refreshed row: its own, or the reference of the refresh. -/
theorem Database.refreshRow_path_eq (request row : PrivacyRequest)
    (status : RequestStatus) (reference : Option String) (now : Time) :
    (refreshRow request status reference now row).artifactPath =
        row.artifactPath ∨
      row.id = request.id ∧
        (refreshRow request status reference now row).artifactPath =
          reference := by
  unfold refreshRow
  split
  next hit =>
    by_cases needed : request.needsArtifact status = true
    · by_cases same : reference = request.artifactPath
      · left
        simp [PrivacyRequest.flush, PrivacyRequest.refresh, flushColumn,
          needed, same]
      · refine .inr ⟨of_decide_eq_true hit, ?_⟩
        simp [PrivacyRequest.flush, PrivacyRequest.refresh, flushColumn,
          needed, same]
    · left
      simp [PrivacyRequest.flush, PrivacyRequest.refresh, flushColumn, needed]
  next => exact .inl rfl

/-- The path of a row after a step: the one it had, or the reference of a
refresh of it. -/
theorem Effect.path_origin {deployment : Deployment} {state next : State}
    {action : Action} (effect : Effect deployment state action next)
    (grounded : state.Grounded) {requestId path : String}
    {current : PrivacyRequest}
    (found : next.database.request requestId = some current)
    (written : current.artifactPath = some path) :
    ∃ row, state.database.request requestId = some row ∧
      current.identity = row.identity ∧
      (row.artifactPath = some path ∨
        ∃ call ∈ state.calls, ∃ own,
          call.phase = .refreshing requestId own (some path)) := by
  by_cases refresh : ∃ index noticeId now,
      action = .refreshCommit index noticeId now
  · obtain ⟨index, noticeId, now, rfl⟩ := refresh
    obtain ⟨call, lockedId, own, reference, request, located, phase, held,
      _, _, rfl⟩ := effect.of_refreshCommit
    have member := List.mem_of_getElem? located
    obtain ⟨_, _, key, _⟩ := grounded.request_of_copy member held
    dsimp only at found
    rw [(Database.commitRefresh_revises ..).request_eq] at found
    obtain ⟨row, rowFound, rfl⟩ := Option.map_eq_some_iff.mp found
    refine ⟨row, rowFound, Database.refreshRow_identity .., ?_⟩
    rcases Database.refreshRow_path_eq request row
      (call.session.derivedStatus request.id) reference now with
      same | ⟨hit, isReference⟩
    · exact .inl (same.symm.trans written)
    · right
      have isRequest : lockedId = requestId := by
        rw [← key, ← hit]
        exact (Database.request_mem rowFound).2
      refine ⟨call, member, own, ?_⟩
      rw [phase, isRequest, ← isReference, written]
  · obtain ⟨row, rowFound, identity, _⟩ :=
      effect.path_cases grounded found (by
        rw [written]
        exact Option.some_ne_none _)
    refine ⟨row, rowFound, identity, .inl ?_⟩
    rcases effect.revision with
      ⟨intake, _, _, inserted⟩ | ⟨task, request, revises, _, _, keeps⟩
    · rw [inserted, Database.insertRows_request, rowFound] at found
      cases found
      exact written
    · have kept := keeps (fun index noticeId now isRefresh =>
        refresh ⟨index, noticeId, now, isRefresh⟩) row
      rw [revises.request_eq, rowFound] at found
      cases found
      rw [← kept.path]
      exact written

structure Documented (deployment : Deployment) (state : State) : Prop where
  archived : Archived deployment state
  legible : Legible state
  references : ∀ call ∈ state.calls, ∀ requestId own reference,
    call.phase = .refreshing requestId own (some reference) →
    ∀ row, state.database.request requestId = some row →
    reference = artifactUri deployment.settings row.tenantId row.id
  paths : ∀ requestId row path, state.database.request requestId = some row →
    row.artifactPath = some path →
    path = artifactUri deployment.settings row.tenantId row.id
  objects : ∀ entry ∈ state.artifacts, ∃ row ∈ state.database.requests,
    entry.1 = artifactLocation deployment row.tenantId row.id
  /-- The object of a request is a document about its tasks, which have settled
  for good. -/
  documents : ∀ requestId row content,
    state.database.request requestId = some row →
    state.artifact deployment row = some content →
    (∀ task ∈ state.database.tasksOf requestId, task.status.Terminal) ∧
      ∃ policyVersion generatedAt,
        content = (deliveryDocument row.identity
          (state.database.reports requestId) policyVersion generatedAt).dumps

namespace Documented

variable {deployment : Deployment} {state next : State}

theorem initial (deployment : Deployment) :
    Documented deployment State.initial := by
  refine ⟨.initial deployment, ⟨?_, ?_⟩, ?_, ?_, ?_, ?_⟩
  · intro task member
    cases member
  · intro call member
    cases member
  · intro call member
    cases member
  · intro requestId row path found
    cases found
  · intro entry member
    cases member
  · intro requestId row content found
    cases found

/-- The document of an upload is about the row of its request. -/
theorem artifactDocument_eq {request row : PrivacyRequest}
    (same : request.identity = row.identity) (tasks : List RequestTask)
    (now : Time) :
    artifactDocument deployment request tasks now =
      deliveryDocument row.identity (tasks.map RequestTask.report)
        request.policyVersion (deployment.isoformat now) := by
  rw [← same]
  rfl

/-- A successful upload, as the rows see it. -/
theorem upload (documented : Documented deployment state) {index : Nat}
    {now : Time}
    (stepped : FleetPrivacy.step deployment state (.upload index true now) =
      some next) :
    ∃ call requestId own row policyVersion,
      state.calls[index]? = some call ∧
      state.database.request requestId = some row ∧
      (∀ task ∈ state.database.tasksOf requestId, task.status.Terminal) ∧
      next = { (state.put index { call with
          phase := .refreshing requestId own
            (some (artifactUri deployment.settings row.tenantId row.id)) }) with
        artifacts := state.artifacts.put
          (artifactLocation deployment row.tenantId row.id)
          (deliveryDocument row.identity (state.database.reports requestId)
            policyVersion (deployment.isoformat now)).dumps } := by
  obtain ⟨call, requestId, own, request, found, phase, held, needed, shape⟩ :=
    upload_cases stepped
  have member := List.mem_of_getElem? found
  obtain ⟨row, rowFound, _, shows⟩ :=
    documented.archived.grounded.request_of_copy member held
  have finished := (PrivacyRequest.needsArtifact_iff.mp needed).2.1
  obtain ⟨reports, terminal⟩ := documented.archived.view_reports member phase
    (RequestStatus.terminal_of_finished finished)
  have tenant : request.tenantId = row.tenantId :=
    congrArg (fun columns => columns.2.1) shows.1
  have same : request.id = row.id := congrArg Prod.fst shows.1
  refine ⟨call, requestId, own, row, request.policyVersion, found, rowFound,
    terminal, ?_⟩
  rw [shape, if_pos rfl]
  simp only [writeArtifact, encodeArtifact, artifactDocument_eq shows.1,
    reports, tenant, same]

/-- A row after a step was there, or an intake has just inserted it. -/
theorem request_origin {action : Action}
    (effect : Effect deployment state action next) {requestId : String}
    {current : PrivacyRequest}
    (found : next.database.request requestId = some current) :
    (∃ row, state.database.request requestId = some row ∧
        current.identity = row.identity) ∨
      state.database.request requestId = none ∧
        ∃ intake, action = .create intake := by
  rcases effect.revision with
    ⟨intake, isCreate, _, inserted⟩ | ⟨task, request, revises, _, requests, _⟩
  · rw [inserted, Database.insertRows_request] at found
    rcases Option.or_eq_some_iff.mp found with old | ⟨absent, _⟩
    · exact .inl ⟨current, old, rfl⟩
    · exact .inr ⟨absent, intake, isCreate⟩
  · rw [revises.request_eq] at found
    obtain ⟨row, rowFound, rfl⟩ := Option.map_eq_some_iff.mp found
    exact .inl ⟨row, rowFound, requests row⟩

theorem address_congr {row current : PrivacyRequest}
    (same : current.identity = row.identity) :
    current.tenantId = row.tenantId ∧ current.id = row.id :=
  ⟨congrArg (fun columns => columns.2.1) same, congrArg Prod.fst same⟩

theorem references_step (documented : Documented deployment state)
    {action : Action} (effect : Effect deployment state action next)
    (stepped : FleetPrivacy.step deployment state action = some next)
    {call : Call} (member : call ∈ next.calls) {requestId reference : String}
    {own : Option String}
    (phase : call.phase = .refreshing requestId own (some reference))
    {current : PrivacyRequest}
    (after : next.database.request requestId = some current) :
    reference =
      artifactUri deployment.settings current.tenantId current.id := by
  have core := documented.archived.steady.core
  obtain ⟨slot, located⟩ := List.getElem?_of_mem member
  rcases effect.uploaded located phase with old | ⟨now, isUpload⟩
  · have oldMember := List.mem_of_getElem? old
    obtain ⟨ids, loaded⟩ := core.loaded call oldMember requestId own _ phase
    obtain ⟨⟨row, found⟩, _, _⟩ :=
      (core.sessions call oldMember).members requestId ids loaded
    obtain ⟨tenant, same⟩ :=
      address_congr (effect.request_identity found after)
    rw [tenant, same]
    exact documented.references call oldMember requestId own reference phase
      row found
  · subst isUpload
    obtain ⟨old, lockedId, lockedOwn, row, policyVersion, found, rowFound, _,
      shape⟩ := documented.upload stepped
    subst shape
    dsimp only at located after
    rw [State.put_self found] at located
    cases located
    cases phase
    rw [State.put] at after
    dsimp only at after
    rw [rowFound] at after
    cases after
    rfl

theorem paths_step (documented : Documented deployment state)
    {action : Action} (effect : Effect deployment state action next)
    {requestId path : String} {current : PrivacyRequest}
    (after : next.database.request requestId = some current)
    (written : current.artifactPath = some path) :
    path = artifactUri deployment.settings current.tenantId current.id := by
  obtain ⟨row, found, identity, origin⟩ :=
    effect.path_origin documented.archived.grounded after written
  obtain ⟨tenant, same⟩ := address_congr identity
  rw [tenant, same]
  rcases origin with old | ⟨call, member, own, phase⟩
  · exact documented.paths requestId row path found old
  · exact documented.references call member requestId own path phase row found

theorem objects_step (documented : Documented deployment state)
    {action : Action} (effect : Effect deployment state action next)
    (leads : state.database.Leads next.database)
    (stepped : FleetPrivacy.step deployment state action = some next)
    {entry : ArtifactLocation × String} (member : entry ∈ next.artifacts) :
    ∃ row ∈ next.database.requests,
      entry.1 = artifactLocation deployment row.tenantId row.id := by
  have formed := documented.archived.grounded.tidy.tables
  have kept : entry ∈ state.artifacts → ∃ row ∈ next.database.requests,
      entry.1 = artifactLocation deployment row.tenantId row.id := by
    intro old
    obtain ⟨row, inTable, place⟩ := documented.objects entry old
    have found := formed.request_eq inTable
    obtain ⟨current, after, _⟩ := leads.request row.id row found
    obtain ⟨tenant, same⟩ :=
      address_congr (effect.request_identity found after)
    refine ⟨current, (Database.request_mem after).1, ?_⟩
    rw [tenant, same]
    exact place
  by_cases upload : ∃ index now, action = .upload index true now
  · obtain ⟨index, now, isUpload⟩ := upload
    subst isUpload
    obtain ⟨call, requestId, own, row, policyVersion, found, rowFound, _,
      shape⟩ := documented.upload stepped
    subst shape
    rcases List.mem_cons.mp member with new | old
    · exact ⟨row, (Database.request_mem rowFound).1, congrArg Prod.fst new⟩
    · exact kept old
  · apply kept
    rw [← artifacts_of_step formed.taskIds stepped
      fun index now isUpload => upload ⟨index, now, isUpload⟩]
    exact member

/-- No object lies at the address of a request that is not there yet. -/
theorem artifact_absent (documented : Documented deployment state)
    {current : PrivacyRequest} (plain : '/' ∉ current.id.toList)
    (absent : state.database.request current.id = none) :
    state.artifact deployment current = none := by
  cases stored : state.artifact deployment current with
  | none => rfl
  | some content =>
      obtain ⟨before, after, split, _⟩ := List.lookup_eq_some_iff.mp stored
      obtain ⟨row, inTable, place⟩ := documented.objects (_, content) (by
        rw [split]
        exact List.mem_append_right _ List.mem_cons_self)
      have same := artifactLocation_injective plain
        (documented.archived.plain row inTable) place
      rw [same, documented.archived.grounded.tidy.tables.request_eq inTable]
        at absent
      cases absent

theorem documents_step (documented : Documented deployment state)
    {action : Action} (later : Archived deployment next)
    (effect : Effect deployment state action next)
    (leads : state.database.Leads next.database)
    (stepped : FleetPrivacy.step deployment state action = some next)
    {requestId content : String} {current : PrivacyRequest}
    (after : next.database.request requestId = some current)
    (stored : next.artifact deployment current = some content) :
    (∀ task ∈ next.database.tasksOf requestId, task.status.Terminal) ∧
      ∃ policyVersion generatedAt,
        content = (deliveryDocument current.identity
          (next.database.reports requestId) policyVersion
            generatedAt).dumps := by
  have formed := documented.archived.grounded.tidy.tables
  by_cases upload : ∃ index now, action = .upload index true now
  · obtain ⟨index, now, isUpload⟩ := upload
    subst isUpload
    obtain ⟨call, lockedId, own, owner, policyVersion, _, ownerFound, terminal,
      shape⟩ := documented.upload stepped
    subst shape
    have found : state.database.request requestId = some current := after
    by_cases locked : requestId = lockedId
    · subst locked
      rw [ownerFound] at found
      cases found
      simp only [State.artifact, ArtifactStore.get, ArtifactStore.put,
        List.lookup_cons_self, Option.some_inj] at stored
      exact ⟨terminal, policyVersion, _, stored.symm⟩
    · obtain ⟨inTable, isCurrent⟩ := Database.request_mem found
      obtain ⟨ownerTable, isOwner⟩ := Database.request_mem ownerFound
      have apart : artifactLocation deployment current.tenantId current.id ≠
          artifactLocation deployment owner.tenantId owner.id := by
        intro same
        apply locked
        rw [← isCurrent, ← isOwner]
        exact artifactLocation_injective
          (documented.archived.plain current inTable)
          (documented.archived.plain owner ownerTable) same
      have untouched : state.artifact deployment current = some content := by
        simpa only [State.artifact, ArtifactStore.get, ArtifactStore.put,
          List.lookup_cons, beq_eq_false_iff_ne.mpr apart] using stored
      exact documented.documents requestId current content found untouched
  · have artifacts := artifacts_of_step formed.taskIds stepped
      fun index now isUpload => upload ⟨index, now, isUpload⟩
    rcases request_origin effect after with
      ⟨row, found, identity⟩ | ⟨absent, _⟩
    · rw [State.artifact_congr identity artifacts] at stored
      obtain ⟨terminal, policyVersion, generatedAt, isDocument⟩ :=
        documented.documents requestId row content found stored
      constructor
      · intro task inTasks
        have statuses := leads.statuses formed later.grounded.tidy.tables found
          terminal
        have inStatuses : task.status ∈
            (state.database.tasksOf requestId).map RequestTask.status := by
          rw [← statuses]
          exact List.mem_map_of_mem inTasks
        obtain ⟨old, inOld, same⟩ := List.mem_map.mp inStatuses
        rw [← same]
        exact terminal old inOld
      · refine ⟨policyVersion, generatedAt, ?_⟩
        rw [identity, effect.reports leads formed found terminal]
        exact isDocument
    · obtain ⟨inTable, isCurrent⟩ := Database.request_mem after
      rw [← isCurrent] at absent
      have nothing := documented.artifact_absent
        (later.plain current inTable) absent
      rw [State.artifact_congr rfl artifacts, nothing] at stored
      cases stored

theorem step (postgresql : deployment.dialect = .postgresql)
    (documented : Documented deployment state) {action : Action}
    (allowed : Documenting state action)
    (stepped : FleetPrivacy.step deployment state action = some next) :
    Documented deployment next := by
  obtain ⟨archiving, mappings⟩ := allowed
  have tidy := documented.archived.grounded.tidy
  have effect := effect_of_step tidy.tables.taskIds stepped
  obtain ⟨later, leads⟩ := documented.archived.step postgresql
    archiving stepped
  constructor
  · exact later
  · exact documented.legible.step tidy mappings stepped
  · intro call member requestId own reference phase current after
    exact documented.references_step effect stepped member phase after
  · intro requestId current path after written
    exact documented.paths_step effect after written
  · intro entry member
    exact documented.objects_step effect leads stepped member
  · intro requestId current content after stored
    exact documented.documents_step later effect leads stepped after stored

end Documented

/-! ## The route -/

theorem getPrivacyRequest_mem {database : Database}
    {tenantId requestId : String} {row : PrivacyRequest}
    (found : getPrivacyRequest database tenantId requestId = some row) :
    row ∈ database.requests ∧ row.id = requestId ∧
      row.tenantId = tenantId := by
  unfold getPrivacyRequest at found
  have matched := List.find?_some found
  exact ⟨List.mem_of_find?_eq_some found, of_decide_eq_true matched⟩

/-- The row of the tenant's own request. -/
theorem Database.WellFormed.getPrivacyRequest_eq {database : Database}
    (formed : database.WellFormed) (tenantId requestId : String) :
    getPrivacyRequest database tenantId requestId =
      (database.request requestId).filter fun row =>
        decide (row.tenantId = tenantId) := by
  apply Option.ext
  intro row
  rw [Option.filter_eq_some_iff, decide_eq_true_iff]
  constructor
  · intro found
    obtain ⟨inTable, isId, isTenant⟩ := getPrivacyRequest_mem found
    refine ⟨?_, isTenant⟩
    rw [← isId]
    exact formed.request_eq inTable
  · rintro ⟨found, isTenant⟩
    obtain ⟨inTable, isId⟩ := Database.request_mem found
    cases read : getPrivacyRequest database tenantId requestId with
    | none =>
        have missed := List.find?_eq_none.mp read row inTable
        exact absurd (decide_eq_true ⟨isId, isTenant⟩) missed
    | some other =>
        obtain ⟨otherTable, otherId, _⟩ := getPrivacyRequest_mem read
        rw [formed.requestIds.eq_of_mem otherTable inTable
          (otherId.trans isId.symm)]

theorem serveFile_eq (deployment : Deployment) (requestId path : String)
    {artifacts : ArtifactStore} {content : String}
    (kept : artifacts.get (.file ((PosixPath.parse path).resolve
      deployment.workingDirectory)) = some content) :
    serveFile deployment requestId path artifacts =
      if StrictlyBelow deployment.artifactRoot
          ((PosixPath.parse path).resolve deployment.workingDirectory) then
        .ok (.file (requestId ++ ".json") content)
      else .httpException 404 "artifact file not found" := by
  unfold serveFile
  simp only [kept]
  apply if_congr _ rfl rfl
  rw [Bool.and_eq_true, List.isPrefixOf_iff_prefix, decide_eq_true_iff]
  rfl

section Route

variable {deployment : Deployment} {storage : Storage}
  {tenantId requestId content : String} {row : PrivacyRequest}

/-- The object at the address of a request reaches its tenant. -/
theorem downloadArtifact_of_stored (plain : '/' ∉ requestId.toList)
    (found : getPrivacyRequest storage.database tenantId requestId = some row)
    (path : row.artifactPath =
      some (artifactUri deployment.settings tenantId requestId))
    (kept : storage.artifacts.get
      (artifactLocation deployment tenantId requestId) = some content) :
    downloadArtifact deployment tenantId requestId storage =
      deliveredAnswer deployment tenantId requestId content := by
  cases backend : deployment.settings.artifactBackend with
  | localDirectory =>
      have canonical := canonical_localArtifactPath deployment.settings
        tenantId requestId
      have uri : artifactUri deployment.settings tenantId requestId =
          (localArtifactPath deployment.settings tenantId requestId).text := by
        simp only [artifactUri, backend]
      have named : artifactUri deployment.settings tenantId requestId ≠ "" := by
        rw [uri]
        exact PosixPath.text_ne_empty canonical
      have onFile : "s3://".toList.isPrefixOf
          (artifactUri deployment.settings tenantId requestId).toList =
            false := by
        rw [uri]
        exact PosixPath.not_s3_uri canonical
      rw [artifactLocation_of_local backend] at kept
      have resolved : (PosixPath.parse (artifactUri deployment.settings tenantId
          requestId)).resolve deployment.workingDirectory =
            tenantFolder deployment.artifactRoot tenantId ++
              [requestId ++ ".json"] := by
        rw [uri, PosixPath.parse_text canonical]
        exact resolve_localArtifactPath deployment tenantId plain
      unfold downloadArtifact deliveredAnswer
      simp only [found, path, Option.getD_some, named, if_false, onFile,
        Bool.false_eq_true, backend]
      rw [serveFile_eq deployment requestId _ kept, resolved]
      apply if_congr _ rfl rfl
      rw [strictlyBelow_concat_iff, prefix_tenantFolder_iff]
  | s3 bucket keyPrefix =>
      have uri : (artifactUri deployment.settings tenantId requestId).toList =
          ("s3://" ++ bucket ++ "/").toList ++
            (s3ArtifactKey keyPrefix tenantId requestId).toList := by
        simp only [artifactUri, backend, String.toList_append]
      have named : artifactUri deployment.settings tenantId requestId ≠ "" := by
        intro empty
        rw [empty, String.toList_append, String.toList_append] at uri
        cases uri
      have onS3 : "s3://".toList.isPrefixOf
          (artifactUri deployment.settings tenantId requestId).toList =
            true := by
        rw [uri, List.isPrefixOf_iff_prefix, String.toList_append,
          String.toList_append, List.append_assoc, List.append_assoc]
        exact List.prefix_append _ _
      have signed : presignGet deployment
          (artifactUri deployment.settings tenantId requestId) =
            .ok (some (deployment.presign bucket
              (s3ArtifactKey keyPrefix tenantId requestId)
              deployment.settings.artifactPresignSeconds)) := by
        unfold presignGet
        simp only [backend]
        rw [uri, if_pos (List.isPrefixOf_iff_prefix.mpr
          (List.prefix_append _ _)), List.drop_left, String.ofList_toList]
      unfold downloadArtifact deliveredAnswer
      simp only [found, path, Option.getD_some, named, if_false, onS3, if_true,
        signed, backend]

theorem downloadArtifact_of_absent
    (read : getPrivacyRequest storage.database tenantId requestId = none) :
    downloadArtifact deployment tenantId requestId storage =
      .httpException 404 "privacy request not found" := by
  unfold downloadArtifact
  simp only [read]

theorem downloadArtifact_of_unwritten
    (read : getPrivacyRequest storage.database tenantId requestId = some row)
    (unwritten : row.artifactPath = none) :
    downloadArtifact deployment tenantId requestId storage =
      .httpException 409 "artifact is not ready" := by
  unfold downloadArtifact
  simp only [read, unwritten, Option.getD_none, if_true]

theorem ledgerAnswer_of_foreign {job : RequestJob}
    (foreign : job.facts.2.1 ≠ tenantId) :
    ledgerAnswer deployment tenantId requestId content (some job) =
      .httpException 404 "privacy request not found" :=
  if_pos foreign

theorem ledgerAnswer_of_own {job : RequestJob}
    (own : job.facts.2.1 = tenantId) :
    ledgerAnswer deployment tenantId requestId content (some job) =
      if Delivers job then
        deliveredAnswer deployment tenantId requestId content
      else .httpException 409 "artifact is not ready" :=
  if_neg (not_not_intro own)

end Route

/-! ## Deliveries that are served -/

/-- The document of a delivery is a mapping with distinct keys. -/
theorem keysDistinct_deliveryDocument (facts : RequestFacts)
    {sources : List (String × Json)}
    (names : (sources.map Prod.fst).Nodup)
    (results : ∀ source ∈ sources, source.2.keysDistinct = true)
    (policyVersion generatedAt : String) :
    (deliveryDocument facts sources policyVersion
      generatedAt).keysDistinct = true := by
  have inner : (Json.obj sources).keysDistinct = true := by
    rw [Json.keysDistinct, Bool.and_eq_true, decide_eq_true_iff]
    exact ⟨names, (Json.fieldsDistinct_iff sources).mpr results⟩
  have keys : ([("request_id", Json.str facts.1),
      ("tenant_id", .str facts.2.1), ("kind", .str facts.2.2.2.1.value),
      ("policy_version", .str policyVersion), ("sources", .obj sources),
      ("generated_at", .str generatedAt)].map Prod.fst).Nodup := by
    simp
  rw [deliveryDocument, Json.keysDistinct, Bool.and_eq_true,
    decide_eq_true_iff]
  refine ⟨keys, ?_⟩
  rw [Json.fieldsDistinct_iff]
  simp only [List.forall_mem_cons, inner]
  simp [Json.keysDistinct]

namespace Documented

variable {deployment : Deployment} {state : State}

/-- What is stored for a delivered request. -/
theorem delivery_stored (documented : Documented deployment state)
    {row : PrivacyRequest} (member : row ∈ state.database.requests)
    (delivers : Delivers (state.database.job row)) :
    ∃ content,
      DeliveryStored deployment state (state.database.job row) content := by
  have archived := documented.archived
  have found := archived.grounded.tidy.tables.request_eq member
  obtain ⟨content, stored, _⟩ := archived.delivered member delivers
  obtain ⟨_, finished, _⟩ := archived.paths row.id row found
    ((archived.delivers_iff member).mp delivers)
  obtain ⟨_, policyVersion, generatedAt, isDocument⟩ :=
    documented.documents row.id row content found stored
  have names : ((state.database.reports row.id).map Prod.fst).Nodup := by
    obtain ⟨sources, nodup⟩ := archived.covered row.id row found
    rw [Database.reports, List.map_map]
    exact sources ▸ nodup
  have results : ∀ source ∈ state.database.reports row.id,
      source.2.keysDistinct = true := by
    intro source reported
    obtain ⟨task, inTasks, rfl⟩ := List.mem_map.mp reported
    exact documented.legible.results task (Database.mem_tasksOf.mp inTasks).1
  have distinct := keysDistinct_deliveryDocument row.identity names results
    policyVersion generatedAt
  have same := archived.reports_eq_delivery found
    (RequestStatus.terminal_of_finished finished)
  rw [same] at isDocument distinct
  refine ⟨content, stored, policyVersion, generatedAt, isDocument, ?_⟩
  rw [isDocument]
  exact Json.loads_dumps distinct

/-- The tenant of a request is answered with its delivery, or that there is
none yet. -/
theorem download_own (documented : Documented deployment state)
    {row : PrivacyRequest} (member : row ∈ state.database.requests) :
    ∃ content,
      downloadArtifact deployment row.tenantId row.id state.storage =
          ledgerAnswer deployment row.tenantId row.id content
            (some (state.database.job row)) ∧
        (Delivers (state.database.job row) →
          DeliveryStored deployment state (state.database.job row)
            content) := by
  have archived := documented.archived
  have formed := archived.grounded.tidy.tables
  have found := formed.request_eq member
  have read : getPrivacyRequest state.storage.database row.tenantId row.id =
      some row := by
    refine (formed.getPrivacyRequest_eq row.tenantId row.id).trans ?_
    rw [found, Option.filter_some, if_pos (decide_eq_true rfl)]
  have own : (state.database.job row).facts.2.1 = row.tenantId := rfl
  by_cases delivers : Delivers (state.database.job row)
  · obtain ⟨content, stored⟩ := documented.delivery_stored member delivers
    refine ⟨content, ?_, fun _ => stored⟩
    obtain ⟨path, written⟩ := Option.ne_none_iff_exists'.mp
      ((archived.delivers_iff member).mp delivers)
    rw [documented.paths row.id row path found written] at written
    rw [ledgerAnswer_of_own own, if_pos delivers]
    exact downloadArtifact_of_stored (archived.plain row member) read written
      stored.1
  · refine ⟨"", ?_, fun delivered => absurd delivered delivers⟩
    have unwritten : row.artifactPath = none := by
      by_contra written
      exact delivers ((archived.delivers_iff member).mpr written)
    rw [ledgerAnswer_of_own own, if_neg delivers]
    exact downloadArtifact_of_unwritten read unwritten

/-- The ledger decides what a download answers. -/
theorem download_eq (documented : Documented deployment state)
    (tenantId requestId : String) :
    ∃ content,
      downloadArtifact deployment tenantId requestId state.storage =
          ledgerAnswer deployment tenantId requestId content
            (state.database.ledger requestId) ∧
        ∀ job, state.database.ledger requestId = some job →
          job.facts.2.1 = tenantId → Delivers job →
          DeliveryStored deployment state job content := by
  have formed := documented.archived.grounded.tidy.tables
  have read := formed.getPrivacyRequest_eq tenantId requestId
  unfold Database.ledger
  cases found : state.database.request requestId with
  | none =>
      rw [found] at read
      refine ⟨"", downloadArtifact_of_absent read, ?_⟩
      intro job isJob
      cases isJob
  | some row =>
      obtain ⟨member, rfl⟩ := Database.request_mem found
      rw [found, Option.filter_some] at read
      by_cases own : row.tenantId = tenantId
      · subst own
        obtain ⟨content, answer, stored⟩ := documented.download_own member
        refine ⟨content, answer, ?_⟩
        intro job isJob _ delivers
        cases isJob
        exact stored delivers
      · rw [if_neg (by simpa using own)] at read
        refine ⟨"", ?_, ?_⟩
        · rw [Option.map_some, ledgerAnswer_of_foreign own]
          exact downloadArtifact_of_absent read
        · intro job isJob same
          cases isJob
          exact absurd same own

end Documented

/-- On PostgreSQL, while leases live, refreshes of terminal requests see no open
copies and results are mappings, the ledger decides what a download answers, and
the delivery of a job that has delivered once, a result for every requested
source, is what its tenant is served from then on. -/
theorem downloads_serve_deliveries (deployment : Deployment)
    (postgresql : deployment.dialect = .postgresql)
    {actions later : List Action} {middle finish : State}
    (start : Runs (step deployment) Documenting State.initial actions middle)
    (continuation : Runs (step deployment) Documenting middle later finish)
    (tenantId requestId : String) :
    ∃ content,
      downloadArtifact deployment tenantId requestId finish.storage =
          ledgerAnswer deployment tenantId requestId content
            (finish.database.ledger requestId) ∧
        ∀ job, middle.database.ledger requestId = some job →
          job.facts.2.1 = tenantId → Delivers job →
          (delivery job).map Prod.fst = job.facts.sources ∧
          finish.database.ledger requestId = some job ∧
            DeliveryStored deployment finish job content := by
  have preserved : ∀ {state : State} {action : Action} {next : State},
      Documented deployment state → Documenting state action →
      step deployment state action = some next →
      Documented deployment next :=
    fun documented allowed stepped => documented.step postgresql allowed stepped
  have initially := Documented.initial deployment
  have reached : Documented deployment middle :=
    start.invariant preserved initially
  have ended : Documented deployment finish :=
    continuation.invariant preserved reached
  have before : Attains requestRules (fun _ => none) middle.database.ledger :=
    initially.archived.ledger_attains postgresql
      (start.weaken fun _ _ allowed => allowed.1)
  have after := reached.archived.ledger_attains postgresql
    (continuation.weaken fun _ _ allowed => allowed.1)
  obtain ⟨content, answer, stored⟩ := ended.download_eq tenantId requestId
  refine ⟨content, answer, ?_⟩
  intro job found own delivers
  obtain ⟨current, isCurrent, kept⟩ := after.keeps found
  rw [kept.closed (verdict_of_delivers delivers)] at isCurrent
  exact ⟨delivery_sources (before.sound requestId job found) delivers,
    isCurrent, stored job isCurrent own delivers⟩

/-! The request is delivered, its message is redelivered, and its tenant
downloads the artifact. -/

private def deliveredOnce : List Action :=
  .create demoRequest :: demoRelay 0 2 ++ .deliver "w1" 1 true ::
    demoExecution 0 demoSuccess ++
    [.refreshSelect 0, .upload 0 true 13, .refreshCommit 0 "n" 14]

private def redeliveredLater : List Action :=
  [.deliver "w2" 1 true, .messageGet 1 17, .refreshSelect 1,
    .refreshCommit 1 "m" 18, .ack 1]

private def State.deliveredTo (state : State) (tenantId requestId : String) :
    Option RequestJob :=
  (state.database.ledger requestId).filter fun job =>
    decide (job.facts.2.1 = tenantId ∧ Delivers job)

theorem delivered_request_is_downloaded :
    ∃ middle finish content body,
      Runs (step demoDeployment) Documenting State.initial deliveredOnce
        middle ∧
      Runs (step demoDeployment) Documenting middle redeliveredLater finish ∧
      downloadArtifact demoDeployment "t" "a" finish.storage =
        .ok (.file ("a" ++ ".json") content) ∧
      Json.loads content = some body ∧
      ∃ job, finish.database.ledger "a" = some job ∧
        (delivery job).map Prod.fst = ["jobs"] := by
  have evaluated : (run (step demoDeployment) Documenting State.initial
      deliveredOnce).bind (fun middle =>
        (run (step demoDeployment) Documenting middle redeliveredLater).map
          fun _ => (middle.deliveredTo "t" "a").map fun job =>
            job.facts.sources) = some (some ["jobs"]) := by
    decide +kernel
  obtain ⟨middle, reached, evaluated⟩ := Option.bind_eq_some_iff.mp evaluated
  obtain ⟨finish, continued, shape⟩ := Option.map_eq_some_iff.mp evaluated
  have start := runs_of_run reached
  have continuation := runs_of_run continued
  obtain ⟨job, delivered, requested⟩ := Option.map_eq_some_iff.mp shape
  obtain ⟨isJob, holds⟩ := Option.filter_eq_some_iff.mp delivered
  obtain ⟨own, delivers⟩ := of_decide_eq_true holds
  obtain ⟨content, answer, served⟩ := downloads_serve_deliveries demoDeployment
    rfl start continuation "t" "a"
  obtain ⟨sources, later, _, _, _, _, read⟩ := served job isJob own delivers
  refine ⟨middle, finish, content, _, start, continuation, ?_, read, job, later,
    sources.trans requested⟩
  have below : StaysBelow demoDeployment.artifactRoot "t" := by decide
  have isFile : deliveredAnswer demoDeployment "t" "a" content =
      .ok (.file ("a" ++ ".json") content) := by
    have onDisk : demoDeployment.settings.artifactBackend = .localDirectory :=
      rfl
    simp only [deliveredAnswer, onDisk, below, if_true]
  rw [answer, later, ledgerAnswer_of_own own, if_pos delivers, isFile]

end FleetPrivacy
