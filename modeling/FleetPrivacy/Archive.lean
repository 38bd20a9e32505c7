import FleetPrivacy.ArtifactPaths
import FleetPrivacy.Executions

/-!
# Access artifacts

The artifact of a request is uploaded before the commit that records it, may be
uploaded without that commit, and may be uploaded again.  While leases live and
refreshes of finished requests see no open copies, what is stored under the key
of a request with an artifact path is what its tasks have committed, for good.
-/

namespace FleetPrivacy

open Transition

/-- What an artifact says about a task. -/
def RequestTask.report (task : RequestTask) : String × Json :=
  (task.source, task.resultSummary)

def Database.reports (database : Database) (requestId : String) :
    List (String × Json) :=
  (database.tasksOf requestId).map RequestTask.report

/-- The content is a document with these `sources`. -/
def ArtifactReports (content : String) (sources : List (String × Json)) :
    Prop :=
  ∃ fields, content = (Json.obj fields).dumps ∧
    fields.lookup "sources" = some (.obj sources)

/-- The object last stored under the key of the request. -/
def State.artifact (deployment : Deployment) (state : State)
    (request : PrivacyRequest) : Option String :=
  state.artifacts.get
    (artifactLocation deployment request.tenantId request.id)

/-- The stored object has the requested sources, each with the result of its
task. -/
def State.Shows (deployment : Deployment) (state : State)
    (request : PrivacyRequest) (tasks : List RequestTask) : Prop :=
  ∃ content sources, state.artifact deployment request = some content ∧
    ArtifactReports content sources ∧
    (∀ source, source ∈ sources.map Prod.fst ↔
      source ∈ request.requestedSources) ∧
    ∀ task ∈ tasks, sources.lookup task.source = some task.resultSummary

structure ArtifactsComplete (deployment : Deployment) (state : State) :
    Prop where
  finished : ∀ request ∈ state.database.requests, request.kind = .access →
    state.database.tasksOf request.id ≠ [] →
    (request.artifactPath ≠ none ↔
      request.status = .completed ∨ request.status = .partially)
  stored : ∀ request ∈ state.database.requests, request.kind = .access →
    state.database.tasksOf request.id ≠ [] → request.artifactPath ≠ none →
    state.Shows deployment request (state.database.tasksOf request.id)
  deletes : ∀ request ∈ state.database.requests, request.kind = .delete →
    request.artifactPath = none

/-- Later states store what the earlier one had committed. -/
def ArtifactsKept (deployment : Deployment) (before after : State) : Prop :=
  ∀ request ∈ before.database.requests, request.kind = .access →
    before.database.tasksOf request.id ≠ [] → request.artifactPath ≠ none →
    after.Shows deployment request (before.database.tasksOf request.id)

/-- `uuid4` draws no slashes. -/
def Action.plain : Action → Prop
  | .create intake => ∀ id ∈ intake.drawnIds, '/' ∉ id.toList
  | _ => True

instance (action : Action) : Decidable action.plain :=
  match action with
  | .create intake =>
      inferInstanceAs (Decidable (∀ id ∈ intake.drawnIds, '/' ∉ id.toList))
  | .relaySelect _ | .relayPublish _ _ _ _ | .relayCommit _ | .relayCrash _
  | .deliver _ _ _ | .messageGet _ _ | .messageClaim _ | .processOnce _
  | .selectTask _ | .work _ _ | .recordTask _ _ | .refreshSelect _
  | .upload _ _ _ | .refreshCommit _ _ _ | .ack _ | .crash _
  | .extendLease _ _ _ => .isTrue trivial

/-- Leases live, and terminal requests are refreshed without open copies. -/
def Archiving (state : State) (action : Action) : Prop :=
  LeasesLive state action ∧ Fenced state action ∧ action.plain

instance (state : State) (action : Action) :
    Decidable (Archiving state action) :=
  inferInstanceAs (Decidable (_ ∧ _ ∧ _))

/-- The call that takes a step. -/
def Action.caller : Action → Option Nat
  | .messageGet call _ | .messageClaim call | .selectTask call | .work call _
  | .recordTask call _ | .refreshSelect call | .upload call _ _
  | .refreshCommit call _ _ | .ack call | .crash call => some call
  | .create _ | .relaySelect _ | .relayPublish _ _ _ _ | .relayCommit _
  | .relayCrash _ | .deliver _ _ _ | .processOnce _ | .extendLease _ _ _ => none

/-- A refresh that starts here and whose upload fails, whatever the other
parties do in between, leaves its request row as it was. -/
def FailedUploadsRevert (deployment : Deployment) (state : State) : Prop :=
  ∀ index target locked actions waiting now failed,
    state.refreshTarget index = some target →
    step deployment state (.refreshSelect index) = some locked →
    Runs (step deployment) (fun _ action => action.caller ≠ some index) locked
      actions waiting →
    step deployment waiting (.upload index false now) = some failed →
    failed.database.request target.1 = state.database.request target.1

/-! ## Tasks and sources -/

/-- One task for each requested source. -/
def Database.Covered (database : Database) : Prop :=
  ∀ requestId row, database.request requestId = some row →
    (database.tasksOf requestId).map RequestTask.source =
        row.requestedSources ∧
      row.requestedSources.Nodup

theorem Database.Covered.effect {deployment : Deployment} {state next : State}
    {action : Action} (covered : state.database.Covered)
    (formed : state.database.WellFormed)
    (effect : Effect deployment state action next) :
    next.database.Covered := by
  intro requestId current found
  rcases effect.revision with
    ⟨intake, _, fresh, inserted⟩ | ⟨task, request, revises, tasks, requests, _⟩
  · rw [inserted, Database.insertRows_request] at found
    rw [inserted]
    rcases Option.or_eq_some_iff.mp found with old | ⟨_, new⟩
    · rw [Database.insertRows_tasksOf fresh old]
      exact covered requestId current old
    · obtain ⟨member, same⟩ := Table.get_mem new
      rw [List.mem_singleton.mp member] at same ⊢
      have isNew : intake.fresh.ids 0 = requestId := same
      rw [← isNew, Database.insertRows_tasksOf_new formed fresh]
      exact ⟨intake.tasks_map_source, intake.command.sourcesNodup⟩
  · rw [revises.request_eq] at found
    obtain ⟨row, rowFound, rfl⟩ := Option.map_eq_some_iff.mp found
    obtain ⟨sources, nodup⟩ := covered requestId row rowFound
    have kept : (request row).requestedSources = row.requestedSources :=
      congrArg (fun columns => columns.2.2.2.2) (requests row)
    rw [kept, ← sources, revises.tasksOf_eq, List.map_map]
    refine ⟨?_, sources ▸ nodup⟩
    apply List.map_congr_left
    intro old _
    exact congrArg (fun columns => columns.2.2.2) (tasks old)

/-- Once all tasks of a request are terminal, what they report stays. -/
theorem Effect.reports {deployment : Deployment} {state next : State}
    {action : Action} (effect : Effect deployment state action next)
    (leads : state.database.Leads next.database)
    (formed : state.database.WellFormed) {requestId : String}
    {row : PrivacyRequest}
    (found : state.database.request requestId = some row)
    (terminal : ∀ task ∈ state.database.tasksOf requestId,
      task.status.Terminal) :
    next.database.reports requestId = state.database.reports requestId := by
  unfold Database.reports
  rcases effect.revision with
    ⟨intake, _, fresh, inserted⟩ | ⟨task, request, revises, tasks, _, _⟩
  · rw [inserted, Database.insertRows_tasksOf fresh found]
  · rw [revises.tasksOf_eq, List.map_map]
    apply List.map_congr_left
    intro old member
    have lookup := formed.task_eq (Database.mem_tasksOf.mp member).1
    obtain ⟨current, currentFound, _, kept⟩ := leads.task old.id old lookup
    rw [revises.task_eq, lookup] at currentFound
    cases currentFound
    obtain ⟨_, result⟩ := kept (terminal old member)
    have source : (task old).source = old.source :=
      congrArg (fun columns => columns.2.2.2) (tasks old)
    exact Prod.ext source result

/-! ## Paths and uploads -/

theorem Database.refreshRow_path_cases {request row : PrivacyRequest}
    {status : RequestStatus} {reference : Option String} {now : Time}
    (path : (refreshRow request status reference now row).artifactPath ≠
      none) :
    row.artifactPath ≠ none ∨
      row.id = request.id ∧ request.needsArtifact status = true := by
  unfold refreshRow at path
  split at path
  next hit =>
    unfold PrivacyRequest.flush flushColumn at path
    dsimp only at path
    split at path
    next => exact .inl path
    next changed =>
      refine .inr ⟨of_decide_eq_true hit, ?_⟩
      by_contra needless
      apply changed
      rw [PrivacyRequest.refresh, if_neg needless]
  next => exact .inl path

/-- A path was there, or an access refresh with an upload writes it. -/
theorem Effect.path_cases {deployment : Deployment} {state next : State}
    {action : Action} (effect : Effect deployment state action next)
    (grounded : state.Grounded) {requestId : String} {current : PrivacyRequest}
    (found : next.database.request requestId = some current)
    (path : current.artifactPath ≠ none) :
    ∃ row, state.database.request requestId = some row ∧
      current.identity = row.identity ∧
      (row.artifactPath ≠ none ∨
        ∃ call ∈ state.calls, ∃ own reference request now,
          call.phase = .refreshing requestId own (some reference) ∧
          call.session.request requestId = some request ∧
          request.needsArtifact (call.session.derivedStatus requestId) = true ∧
          current = Database.refreshRow request
            (call.session.derivedStatus requestId) (some reference) now
            row) := by
  by_cases refresh : ∃ index noticeId now,
      action = .refreshCommit index noticeId now
  · obtain ⟨index, noticeId, now, isRefresh⟩ := refresh
    subst isRefresh
    obtain ⟨call, lockedId, own, reference, request, located, phase, held,
      uploaded, _, rfl⟩ := effect.of_refreshCommit
    have member := List.mem_of_getElem? located
    obtain ⟨_, _, key, _⟩ := grounded.request_of_copy member held
    dsimp only at found
    rw [(Database.commitRefresh_revises ..).request_eq] at found
    obtain ⟨row, rowFound, rfl⟩ := Option.map_eq_some_iff.mp found
    refine ⟨row, rowFound, Database.refreshRow_identity .., ?_⟩
    rcases Database.refreshRow_path_cases path with old | ⟨hit, needed⟩
    · exact .inl old
    · have same : lockedId = requestId := by
        rw [← key, ← hit]
        exact (Database.request_mem rowFound).2
      subst same
      rw [key] at needed ⊢
      obtain ⟨written, isWritten⟩ := Option.isSome_iff_exists.mp
        (uploaded needed)
      subst isWritten
      exact .inr ⟨call, member, own, written, request, now, phase, held,
        needed, rfl⟩
  · rcases effect.revision with
      ⟨intake, _, _, inserted⟩ | ⟨task, request, revises, _, _, keeps⟩
    · rw [inserted, Database.insertRows_request] at found
      rcases Option.or_eq_some_iff.mp found with old | ⟨_, new⟩
      · exact ⟨current, old, rfl, .inl path⟩
      · obtain ⟨member, _⟩ := Table.get_mem new
        rw [List.mem_singleton.mp member] at path
        exact absurd rfl path
    · rw [revises.request_eq] at found
      obtain ⟨row, rowFound, rfl⟩ := Option.map_eq_some_iff.mp found
      have kept := keeps (fun index noticeId now isRefresh =>
        refresh ⟨index, noticeId, now, isRefresh⟩) row
      refine ⟨row, rowFound, kept.identity, .inl ?_⟩
      rw [← kept.path]
      exact path

/-- A refresh that has uploaded had uploaded before, or has done so now. -/
theorem Effect.uploaded {deployment : Deployment} {state next : State}
    {action : Action} (effect : Effect deployment state action next)
    {slot : Nat} {call : Call} {requestId reference : String}
    {own : Option String} (located : next.calls[slot]? = some call)
    (phase : call.phase = .refreshing requestId own (some reference)) :
    state.calls[slot]? = some call ∨
      ∃ now, action = .upload slot true now := by
  have locks : call.phase.refreshes requestId = true :=
    Phase.refreshes_iff.mpr ⟨own, some reference, phase⟩
  cases effect with
  | created | relayed | extended => exact .inl located
  | opened | batchClaimed =>
      rcases State.append_cases located with ⟨_, new⟩ | ⟨_, old⟩
      · rw [new] at phase
        cases phase
      · exact .inl old
  | messageClaimed index old taskId now found
  | selected index old taskId todo row found
  | locked index old lockedId lockedOwn session found
  | acked index old position message found =>
      rcases State.put_cases found located with ⟨_, new⟩ | ⟨_, kept⟩
      · rw [new] at phase
        cases phase
      · exact .inl kept
  | moved action index old after artifacts found move =>
      rcases State.put_cases found located with ⟨isIndex, new⟩ | ⟨_, kept⟩
      · rw [new] at phase locks
        subst isIndex
        cases move with
        | uploaded now => exact .inr ⟨now, rfl⟩
        | skipped =>
            dsimp only at locks
            rw [old.refreshes_resume] at locks
            cases locks
        | _ => cases phase
      · exact .inl kept
  | recorded index old taskId work task request now found =>
      rcases State.put_cases found located with ⟨_, new⟩ | ⟨_, kept⟩
      · rw [new] at phase
        exact absurd phase (old.afterRecord_ne_refreshing deployment taskId
          work task request requestId own _)
      · exact .inl kept
  | refreshed index old lockedId lockedOwn uploadedTo request noticeId now
      found =>
      rcases State.put_cases found located with ⟨_, new⟩ | ⟨_, kept⟩
      · rw [new] at locks
        dsimp only at locks
        rw [old.refreshes_resume] at locks
        cases locks
      · exact .inl kept

/-- A request keeps its identity. -/
theorem Effect.request_identity {deployment : Deployment} {state next : State}
    {action : Action} (effect : Effect deployment state action next)
    {requestId : String} {row current : PrivacyRequest}
    (before : state.database.request requestId = some row)
    (after : next.database.request requestId = some current) :
    current.identity = row.identity := by
  rcases effect.revision with
    ⟨intake, _, _, inserted⟩ | ⟨task, request, revises, _, requests, _⟩
  · rw [inserted, Database.insertRows_request, before] at after
    cases after
    rfl
  · rw [revises.request_eq, before] at after
    cases after
    exact requests row

/-! ## The invariant -/

/-- The object under the key of the request reports its tasks. -/
def State.Stored (deployment : Deployment) (state : State)
    (request : PrivacyRequest) : Prop :=
  ∃ content, state.artifact deployment request = some content ∧
    ArtifactReports content (state.database.reports request.id)

structure Archived (deployment : Deployment) (state : State) : Prop where
  steady : Steady state
  grounded : state.Grounded
  executing : Executing state
  confirmed : Confirmed state
  covered : state.database.Covered
  plain : ∀ row ∈ state.database.requests, '/' ∉ row.id.toList
  paths : ∀ requestId row, state.database.request requestId = some row →
    row.artifactPath ≠ none →
    row.kind = .access ∧ (row.status = .completed ∨ row.status = .partially) ∧
      state.Stored deployment row
  /-- Between its upload and its commit, a refresh has stored what its tasks
  have committed for good. -/
  uploads : ∀ call ∈ state.calls, ∀ requestId own reference,
    call.phase = .refreshing requestId own (some reference) →
    ∀ row, state.database.request requestId = some row →
    (∀ task ∈ state.database.tasksOf requestId, task.status.Terminal) ∧
      state.Stored deployment row

theorem artifactDocument_reports (deployment : Deployment)
    (request : PrivacyRequest) (tasks : List RequestTask) (now : Time) :
    ArtifactReports (encodeArtifact deployment.runtime
        (artifactDocument deployment request tasks now)).1
      (tasks.map RequestTask.report) :=
  ⟨_, rfl, rfl⟩

theorem State.artifact_congr {deployment : Deployment} {state next : State}
    {request other : PrivacyRequest}
    (same : request.identity = other.identity)
    (artifacts : next.artifacts = state.artifacts) :
    next.artifact deployment request = state.artifact deployment other := by
  have key : request.id = other.id := congrArg Prod.fst same
  have tenant : request.tenantId = other.tenantId :=
    congrArg (fun columns => columns.2.1) same
  unfold State.artifact
  rw [key, tenant, artifacts]

namespace Archived

variable {deployment : Deployment} {state next : State}

/-- A refresh that uploads sees all tasks of its request terminal, with the
committed results. -/
theorem view_reports (archived : Archived deployment state) {call : Call}
    (member : call ∈ state.calls) {requestId : String}
    {own reference : Option String}
    (phase : call.phase = .refreshing requestId own reference)
    (derived : (call.session.derivedStatus requestId).Terminal) :
    (call.session.tasksOf requestId).map RequestTask.report =
        state.database.reports requestId ∧
      ∀ task ∈ state.database.tasksOf requestId, task.status.Terminal := by
  have core := archived.steady.core
  have agrees := core.sessions call member
  obtain ⟨ids, loaded⟩ := core.loaded call member requestId own reference phase
  have sees : call.session.SeesTerminal requestId := by
    have all := (terminal_deriveStatus_iff _).mp derived
    intro task inView
    exact all.2 task.status (List.mem_map_of_mem inView)
  have row_of_copy : ∀ row ∈ state.database.tasksOf requestId,
      ∀ copy ∈ call.session.tasksOf requestId,
      call.session.task row.id = some copy →
      copy.report = row.report ∧ row.status.Terminal := by
    intro row inRows copy inView held
    have lookup := core.tidy.tables.task_eq (Database.mem_tasksOf.mp inRows).1
    obtain ⟨shown, shownFound, shows⟩ :=
      (archived.grounded.copies call member).task row.id copy held
    obtain ⟨settled, settledFound, confirms⟩ :=
      (archived.confirmed call member).task row.id copy held
    rw [lookup] at shownFound settledFound
    cases shownFound
    cases settledFound
    obtain ⟨status, result⟩ := confirms (sees copy inView)
    have source : copy.source = row.source :=
      congrArg (fun columns => columns.2.2.2) shows
    exact ⟨Prod.ext source result.symm, status ▸ sees copy inView⟩
  constructor
  · apply agrees.map_tasksOf RequestTask.report loaded
    intro row inRows copy inView held
    exact (row_of_copy row inRows copy inView held).1
  · intro row inRows
    obtain ⟨copy, inView, held⟩ := agrees.mem_tasksOf loaded inRows
    exact (row_of_copy row inRows copy inView held).2

/-- What a successful upload leaves in the store. -/
theorem upload_stores (archived : Archived deployment state) {index : Nat}
    {now : Time}
    (stepped : FleetPrivacy.step deployment state (.upload index true now) =
      some next) :
    ∃ call requestId own reference,
      next.calls = (state.put index { call with
        phase := .refreshing requestId own (some reference) }).calls ∧
      state.calls[index]? = some call ∧
      next.database = state.database ∧
      (∀ row, state.database.request requestId = some row →
        (∀ task ∈ state.database.tasksOf requestId, task.status.Terminal) ∧
          next.Stored deployment row) ∧
      ∀ otherId row, state.database.request otherId = some row →
        otherId ≠ requestId →
        next.artifact deployment row = state.artifact deployment row := by
  obtain ⟨call, requestId, own, request, found, phase, held, needed, shape⟩ :=
    upload_cases stepped
  have member := List.mem_of_getElem? found
  obtain ⟨owner, ownerFound, key, shows⟩ :=
    archived.grounded.request_of_copy member held
  have finished := (PrivacyRequest.needsArtifact_iff.mp needed).2.1
  obtain ⟨reports, terminal⟩ := archived.view_reports member phase
    (RequestStatus.terminal_of_finished finished)
  rw [if_pos rfl] at shape
  subst shape
  refine ⟨call, requestId, own, _, rfl, found, rfl, ?_, ?_⟩
  · intro row rowFound
    rw [ownerFound] at rowFound
    cases rowFound
    have document := artifactDocument_reports deployment request
      (call.session.tasksOf requestId) now
    have isOwner := (Database.request_mem ownerFound).2
    have tenant : request.tenantId = owner.tenantId :=
      congrArg (fun columns => columns.2.1) shows.1
    have same : request.id = owner.id := congrArg Prod.fst shows.1
    refine ⟨terminal, (encodeArtifact deployment.runtime (artifactDocument
      deployment request (call.session.tasksOf requestId) now)).1, ?_, ?_⟩
    · simp only [State.artifact, writeArtifact, ArtifactStore.get,
        ArtifactStore.put, tenant, same, List.lookup_cons_self]
    · dsimp only
      rw [isOwner]
      exact reports ▸ document
  · intro otherId row rowFound different
    obtain ⟨inTable, isOther⟩ := Database.request_mem rowFound
    obtain ⟨ownerTable, isOwner⟩ := Database.request_mem ownerFound
    have apart : artifactLocation deployment row.tenantId row.id ≠
        artifactLocation deployment request.tenantId request.id := by
      intro same
      apply different
      rw [← isOther, ← key]
      apply artifactLocation_injective (archived.plain row inTable) ?_ same
      rw [key, ← isOwner]
      exact archived.plain owner ownerTable
    simp only [State.artifact, writeArtifact, ArtifactStore.get,
      ArtifactStore.put, List.lookup_cons, beq_eq_false_iff_ne.mpr apart]

/-- What is stored for terminal tasks stays. -/
theorem stored_step (archived : Archived deployment state) {action : Action}
    (leads : state.database.Leads next.database)
    (stepped : FleetPrivacy.step deployment state action = some next)
    {requestId : String} {row current : PrivacyRequest}
    (found : state.database.request requestId = some row)
    (after : next.database.request requestId = some current)
    (terminal : ∀ task ∈ state.database.tasksOf requestId,
      task.status.Terminal)
    (stored : state.Stored deployment row) :
    next.Stored deployment current := by
  have formed := archived.grounded.tidy.tables
  have effect := effect_of_step formed.taskIds stepped
  by_cases upload : ∃ index now, action = .upload index true now
  · obtain ⟨index, now, isUpload⟩ := upload
    subst isUpload
    obtain ⟨call, lockedId, own, reference, _, _, same, written, kept⟩ :=
      archived.upload_stores stepped
    rw [same, found] at after
    cases after
    by_cases locked : requestId = lockedId
    · subst locked
      exact (written row found).2
    · obtain ⟨content, held, reports⟩ := stored
      refine ⟨content, (kept requestId row found locked).trans held, ?_⟩
      rw [same]
      exact reports
  · have artifacts := artifacts_of_step formed.taskIds stepped
      (fun index now isUpload => upload ⟨index, now, isUpload⟩)
    obtain ⟨content, held, reports⟩ := stored
    have identity := effect.request_identity found after
    refine ⟨content, (State.artifact_congr identity artifacts).trans held, ?_⟩
    rw [(Database.request_mem after).2,
      effect.reports leads formed found terminal,
      ← (Database.request_mem found).2]
    exact reports

/-- The rows with a path after a step. -/
theorem paths_step (archived : Archived deployment state) {action : Action}
    (leads : state.database.Leads next.database)
    (stepped : FleetPrivacy.step deployment state action = some next)
    {requestId : String} {current : PrivacyRequest}
    (after : next.database.request requestId = some current)
    (path : current.artifactPath ≠ none) :
    current.kind = .access ∧
      (current.status = .completed ∨ current.status = .partially) ∧
      next.Stored deployment current := by
  have core := archived.steady.core
  have effect := effect_of_step core.tidy.tables.taskIds stepped
  obtain ⟨row, found, identity, origin⟩ :=
    effect.path_cases archived.grounded after path
  have kind : current.kind = row.kind :=
    congrArg (fun columns => columns.2.2.2.1) identity
  rcases origin with old |
    ⟨call, member, own, reference, request, now, phase, held, needed, isRow⟩
  · obtain ⟨access, finished, stored⟩ := archived.paths requestId row found old
    have terminal := RequestStatus.terminal_of_finished finished
    obtain ⟨again, againFound, _, kept, _⟩ := leads.request requestId row found
    rw [after] at againFound
    cases againFound
    refine ⟨kind.trans access, ?_, ?_⟩
    · rw [kept terminal]
      exact finished
    · exact archived.stored_step leads stepped found after
        (core.tasks_terminal found terminal) stored
  · obtain ⟨access, finished, _⟩ := PrivacyRequest.needsArtifact_iff.mp needed
    obtain ⟨owner, ownerFound, _, shows⟩ :=
      archived.grounded.request_of_copy member held
    rw [found] at ownerFound
    cases ownerFound
    have sameKind : request.kind = row.kind :=
      congrArg (fun columns => columns.2.2.2.1) shows.1
    obtain ⟨terminal, stored⟩ := archived.uploads call member requestId own
      reference phase row found
    refine ⟨kind.trans (sameKind.symm.trans access), ?_, ?_⟩
    · rcases core.refreshRow_status member phase held found now with
        written | ⟨open_, _⟩
      · rw [isRow, written]
        exact finished
      · exact absurd (RequestStatus.terminal_of_finished finished) open_
    · exact archived.stored_step leads stepped found after terminal stored

/-- The refreshes that have uploaded after a step. -/
theorem uploads_step (archived : Archived deployment state) {action : Action}
    (tidy : next.Tidy) (leads : state.database.Leads next.database)
    (stepped : FleetPrivacy.step deployment state action = some next)
    {call : Call} (member : call ∈ next.calls) {requestId reference : String}
    {own : Option String}
    (phase : call.phase = .refreshing requestId own (some reference))
    {current : PrivacyRequest}
    (after : next.database.request requestId = some current) :
    (∀ task ∈ next.database.tasksOf requestId, task.status.Terminal) ∧
      next.Stored deployment current := by
  have core := archived.steady.core
  have effect := effect_of_step core.tidy.tables.taskIds stepped
  obtain ⟨slot, located⟩ := List.getElem?_of_mem member
  rcases effect.uploaded located phase with old | ⟨now, isUpload⟩
  · have oldMember := List.mem_of_getElem? old
    obtain ⟨ids, loaded⟩ := core.loaded call oldMember requestId own _ phase
    obtain ⟨⟨row, found⟩, _, _⟩ :=
      (core.sessions call oldMember).members requestId ids loaded
    obtain ⟨terminal, stored⟩ := archived.uploads call oldMember requestId own
      reference phase row found
    refine ⟨?_, archived.stored_step leads stepped found after terminal stored⟩
    intro task inTasks
    have statuses := leads.statuses core.tidy.tables tidy.tables found terminal
    have inStatuses : task.status ∈
        (state.database.tasksOf requestId).map RequestTask.status := by
      rw [← statuses]
      exact List.mem_map_of_mem inTasks
    obtain ⟨before, inBefore, same⟩ := List.mem_map.mp inStatuses
    rw [← same]
    exact terminal before inBefore
  · subst isUpload
    obtain ⟨old, lockedId, lockedOwn, written, calls, found, same, stores, _⟩ :=
      archived.upload_stores stepped
    rw [calls, State.put_self found] at located
    cases located
    cases phase
    rw [same] at after ⊢
    exact stores current after

/-- Requests are created under plain ids. -/
theorem plain_step (archived : Archived deployment state) {action : Action}
    (plain : action.plain) (effect : Effect deployment state action next) :
    ∀ row ∈ next.database.requests, '/' ∉ row.id.toList := by
  intro row member
  rcases effect.revision with
    ⟨intake, isCreate, _, inserted⟩ | ⟨task, request, revises, _⟩
  · subst isCreate
    rw [inserted] at member
    rcases List.mem_append.mp member with old | new
    · exact archived.plain row old
    · rw [List.mem_singleton.mp new]
      exact plain _ intake.mem_drawnIds_zero
  · rw [revises.requests] at member
    obtain ⟨old, inTable, rfl⟩ := List.mem_map.mp member
    rw [(revises.requestKey old).1]
    exact archived.plain old inTable

theorem step (postgresql : deployment.dialect = .postgresql)
    (archived : Archived deployment state) {action : Action}
    (allowed : Archiving state action)
    (stepped : FleetPrivacy.step deployment state action = some next) :
    Archived deployment next ∧ state.database.Leads next.database := by
  obtain ⟨live, fenced, plain⟩ := allowed
  have core := archived.steady.core
  obtain ⟨steady, leads⟩ := archived.steady.step postgresql live
    (fun index isRefresh => isRefresh ▸ fenced) stepped
  have effect := effect_of_step core.tidy.tables.taskIds stepped
  refine ⟨⟨steady, archived.grounded.effect effect, ?_, ?_, ?_,
    archived.plain_step plain effect, ?_, ?_⟩, leads⟩
  · exact archived.executing.effect archived.steady.holding core.tidy live
      effect
  · exact archived.confirmed.effect archived.executing archived.steady.holding
      archived.grounded effect
  · exact archived.covered.effect core.tidy.tables effect
  · intro requestId current after path
    exact archived.paths_step leads stepped after path
  · intro call member requestId own reference phase current after
    exact archived.uploads_step steady.core.tidy leads stepped member phase
      after

theorem initial (deployment : Deployment) :
    Archived deployment State.initial := by
  refine ⟨Steady.initial, State.Grounded.initial, Executing.initial,
    Confirmed.initial, ?_, ?_, ?_, ?_⟩
  · intro requestId row found
    cases found
  · intro row member
    cases member
  · intro requestId row found
    cases found
  · intro call member
    cases member

end Archived

/-! ## Locked rows -/

theorem CallMove.caller {deployment : Deployment} {state : State}
    {index : Nat} {call next : Call} {action : Action}
    (move : CallMove deployment state index call action next) :
    action.caller = some index := by
  cases move <;> rfl

theorem PrivacyRequest.flush_self (request row : PrivacyRequest) (now : Time) :
    request.flush request row now = row := by
  simp [PrivacyRequest.flush]

section LockedRow

variable {deployment : Deployment} {state next : State} {action : Action}
  {slot : Nat} {call : Call} {requestId : String} {row : PrivacyRequest}

/-- Nobody but its holder changes the lock of a request row. -/
theorem Effect.locked_call (effect : Effect deployment state action next)
    (other : action.caller ≠ some slot)
    (located : state.calls[slot]? = some call) :
    next.calls[slot]? = some call := by
  have away : ∀ {index : Nat} {old new : Call}, index ≠ slot →
      state.calls[index]? = some old →
      (state.put index new).calls[slot]? = some call := by
    intro index old new different found
    rw [State.put, getElem?_set_slot found, if_neg (Ne.symm different)]
    exact located
  have caller : ∀ {index : Nat}, action.caller = some index → index ≠ slot := by
    intro index isCaller same
    rw [isCaller, same] at other
    exact other rfl
  cases effect with
  | created | relayed | extended => exact located
  | opened | batchClaimed =>
      exact (List.getElem?_append_left
        (List.getElem?_eq_some_iff.mp located).1).trans located
  | moved action index old after artifacts found move =>
      exact away (caller move.caller) found
  | messageClaimed index old taskId now found
  | selected index old taskId todo taskRow found
  | recorded index old taskId work task request now found
  | locked index old lockedId own session found
  | refreshed index old lockedId own reference request noticeId now found
  | acked index old position message found => exact away (caller rfl) found

/-- A claim waits for the row locks of the requests it would start. -/
theorem State.startRow_of_locked {dialect : Dialect}
    {requestIds : List String} {now : Time}
    (startable : state.startable dialect requestIds = true)
    (member : row ∈ state.database.requests)
    (locked : state.rowFree dialect row.id = false) :
    Database.startRow requestIds now row = row := by
  have waits := List.all_eq_true.mp startable row member
  rw [locked, Bool.or_false, Bool.not_eq_true'] at waits
  rw [Database.startRow, waits]
  rfl

theorem Effect.locked_row (effect : Effect deployment state action next)
    (postgresql : deployment.dialect = .postgresql) (grounded : state.Grounded)
    (exclusive : state.Exclusive) (other : action.caller ≠ some slot)
    (located : state.calls[slot]? = some call)
    (locks : call.phase.refreshes requestId = true)
    (found : state.database.request requestId = some row) :
    next.database.request requestId = some row := by
  obtain ⟨inTable, isRow⟩ := Database.request_mem found
  have locked : state.rowFree deployment.dialect row.id = false := by
    rw [Bool.eq_false_iff]
    intro free
    have unlocked := State.unlocked_of_rowFree postgresql free call
      (List.mem_of_getElem? located)
    rw [isRow, locks] at unlocked
    cases unlocked
  cases effect with
  | created intake =>
      dsimp only
      rw [Database.insertRows_request, found]
      rfl
  | relayed | opened | moved | selected | locked | acked | extended =>
      exact found
  | messageClaimed index old taskId now oldFound phase claims startable =>
      dsimp only
      rw [(Database.markClaimed_revises ..).request_eq, found, Option.map_some,
        State.startRow_of_locked startable inTable locked]
  | batchClaimed arguments session taskIds selected claims copies requests
      members startable =>
      dsimp only
      rw [(Database.markClaimed_revises ..).request_eq, found, Option.map_some,
        State.startRow_of_locked startable inTable locked]
  | recorded index old taskId work task request now oldFound phase held
      requestHeld free =>
      dsimp only
      rw [(Database.recordOutcome_revises ..).request_eq, found,
        Option.map_some]
      congr 1
      unfold Database.verifyRow
      split
      next hit =>
        rcases free with unchanged | unlocked
        · rw [unchanged]
          exact request.flush_self row now
        · rw [← of_decide_eq_true hit, locked] at unlocked
          cases unlocked
      next => rfl
  | refreshed index old lockedId own reference request noticeId now oldFound
      phase held =>
      obtain ⟨_, _, key, _⟩ := grounded.request_of_copy
        (List.mem_of_getElem? oldFound) held
      dsimp only
      rw [(Database.commitRefresh_revises ..).request_eq, found,
        Option.map_some]
      congr 1
      unfold Database.refreshRow
      rw [if_neg]
      intro hit
      apply other
      have same : lockedId = requestId := by
        rw [← key, ← of_decide_eq_true hit]
        exact isRow
      rw [exclusive slot index call old requestId located oldFound
        locks (Phase.refreshes_iff.mpr ⟨own, reference, same ▸ phase⟩)]
      rfl

end LockedRow

/-- The refresh of a call takes the lock of its request row. -/
theorem Effect.of_refreshSelect {deployment : Deployment} {state next : State}
    {index : Nat} {target : String × Session}
    (effect : Effect deployment state (.refreshSelect index) next)
    (grounded : state.Grounded)
    (isTarget : state.refreshTarget index = some target) :
    next.database = state.database ∧
      (∃ call, next.calls[index]? = some call ∧
        call.phase.refreshes target.1 = true) ∧
      ∃ row, state.database.request target.1 = some row := by
  have formed := grounded.tidy.tables
  generalize isSelect : Action.refreshSelect index = action at effect
  cases effect with
  | locked slot call requestId own session found refresh free =>
      cases isSelect
      rw [refresh.refreshTarget formed found] at isTarget
      cases isTarget
      refine ⟨rfl, ⟨_, State.put_self found _, ?_⟩, ?_⟩
      · exact Phase.refreshes_iff.mpr ⟨own, none, rfl⟩
      · cases refresh with
        | recorded taskId task phase held =>
            obtain ⟨row, rowFound, shows⟩ := (grounded.copies call
              (List.mem_of_getElem? found)).task taskId task held
            have owner : task.requestId = row.requestId :=
              congrArg (fun columns => columns.2.1) shows
            rw [owner]
            exact formed.owned row (Database.task_mem rowFound).1
        | duplicate taskId row phase member same =>
            exact formed.owned row member
  | moved action slot call after artifacts found move =>
      cases move with
      | vanished taskId phase absent =>
          cases isSelect
          simp only [State.refreshTarget, found, phase,
            Option.map_eq_some_iff] at isTarget
          obtain ⟨row, rowFound, _⟩ := isTarget
          obtain ⟨member, same⟩ := Database.task_mem rowFound
          exact absurd same (absent row member)
      | _ => cases isSelect
  | relayed action relays extra outbox move => cases move <;> cases isSelect
  | _ => cases isSelect

theorem State.Grounded.failedUploadsRevert {deployment : Deployment}
    (postgresql : deployment.dialect = .postgresql) {state : State}
    (grounded : state.Grounded) (exclusive : state.Exclusive) :
    FailedUploadsRevert deployment state := by
  intro index target locked actions waiting now failed isTarget stepped
    waits fails
  have effect := effect_of_step grounded.tidy.tables.taskIds stepped
  obtain ⟨same, ⟨call, located, locks⟩, row, found⟩ :=
    effect.of_refreshSelect grounded isTarget
  -- The lock is kept, and with it the row, until the upload.
  have preserved : ∀ {current : State} {action : Action} {next : State},
      (current.Grounded ∧ current.Exclusive ∧
        current.calls[index]? = some call ∧
        current.database.request target.1 = some row) →
      action.caller ≠ some index →
      FleetPrivacy.step deployment current action = some next →
      next.Grounded ∧ next.Exclusive ∧ next.calls[index]? = some call ∧
        next.database.request target.1 = some row := by
    rintro current action next ⟨currently, alone, holds, held⟩ other moved
    have move := effect_of_step currently.tidy.tables.taskIds moved
    exact ⟨currently.effect move, alone.step postgresql move,
      move.locked_call other holds,
      move.locked_row postgresql currently alone other holds locks held⟩
  obtain ⟨_, _, _, held⟩ := waits.invariant preserved
    ⟨grounded.effect effect, exclusive.step postgresql effect, located,
      same ▸ found⟩
  obtain ⟨_, _, _, _, _, _, _, _, closed⟩ := upload_cases fails
  rw [closed, found]
  exact held

/-! ## Complete and final -/

theorem lookup_report {tasks : List RequestTask}
    (nodup : (tasks.map RequestTask.source).Nodup) {task : RequestTask}
    (member : task ∈ tasks) :
    (tasks.map RequestTask.report).lookup task.source =
      some task.resultSummary := by
  induction tasks with
  | nil => cases member
  | cons first rest induction =>
      rw [List.map_cons, List.nodup_cons] at nodup
      rw [List.map_cons]
      rcases List.mem_cons.mp member with isFirst | inRest
      · rw [isFirst]
        exact List.lookup_cons_self
      · have different : task.source ≠ first.source := by
          intro same
          apply nodup.1
          rw [← same]
          exact List.mem_map_of_mem inRest
        unfold RequestTask.report
        rw [List.lookup_cons, beq_eq_false_iff_ne.mpr different]
        exact induction nodup.2 inRest

/-- An object that reports the tasks of a request shows its sources. -/
theorem Database.Covered.shows {deployment : Deployment} {state : State}
    {database : Database} {request : PrivacyRequest} {content : String}
    (covered : database.Covered)
    (found : database.request request.id = some request)
    (stored : state.artifact deployment request = some content)
    (reports : ArtifactReports content (database.reports request.id)) :
    state.Shows deployment request (database.tasksOf request.id) := by
  obtain ⟨sources, nodup⟩ := covered request.id request found
  refine ⟨content, database.reports request.id, stored, reports, ?_, ?_⟩
  · intro source
    have keys : (database.reports request.id).map Prod.fst =
        request.requestedSources := by
      rw [← sources, Database.reports, List.map_map]
      rfl
    rw [keys]
  · intro task member
    exact lookup_report (sources ▸ nodup) member

/-- Requests with a path keep it, their identity and what their tasks
report. -/
def Database.KeepsReports (before after : Database) : Prop :=
  ∀ requestId row, before.request requestId = some row →
    row.artifactPath ≠ none →
    ∃ current, after.request requestId = some current ∧
      current.identity = row.identity ∧ current.artifactPath ≠ none ∧
      after.reports requestId = before.reports requestId

theorem Database.KeepsReports.refl (database : Database) :
    database.KeepsReports database :=
  fun _ row found path => ⟨row, found, rfl, path, rfl⟩

theorem Database.KeepsReports.trans {first second third : Database}
    (left : first.KeepsReports second) (right : second.KeepsReports third) :
    first.KeepsReports third := by
  intro requestId row found path
  obtain ⟨middle, middleFound, middleSame, middlePath, middleReports⟩ :=
    left requestId row found path
  obtain ⟨last, lastFound, lastSame, lastPath, lastReports⟩ :=
    right requestId middle middleFound middlePath
  exact ⟨last, lastFound, lastSame.trans middleSame, lastPath,
    lastReports.trans middleReports⟩

namespace Archived

variable {deployment : Deployment} {state next : State}

theorem keepsReports (archived : Archived deployment state) {action : Action}
    (leads : state.database.Leads next.database)
    (stepped : FleetPrivacy.step deployment state action = some next) :
    state.database.KeepsReports next.database := by
  intro requestId row found path
  have core := archived.steady.core
  have effect := effect_of_step core.tidy.tables.taskIds stepped
  obtain ⟨_, finished, _⟩ := archived.paths requestId row found path
  obtain ⟨current, after, _, _, kept⟩ := leads.request requestId row found
  refine ⟨current, after, effect.request_identity found after, kept path, ?_⟩
  exact effect.reports leads core.tidy.tables found
    (core.tasks_terminal found (RequestStatus.terminal_of_finished finished))

theorem complete (archived : Archived deployment state) :
    ArtifactsComplete deployment state := by
  have formed := archived.grounded.tidy.tables
  constructor
  · intro request member access _
    constructor
    · intro path
      exact (archived.paths request.id request (formed.request_eq member)
        path).2.1
    · exact archived.grounded.paths request member access
  · intro request member _ _ path
    have found := formed.request_eq member
    obtain ⟨_, _, content, stored, reports⟩ :=
      archived.paths request.id request found path
    exact archived.covered.shows found stored reports
  · intro request member delete
    by_contra path
    obtain ⟨access, _⟩ := archived.paths request.id request
      (formed.request_eq member) path
    rw [delete] at access
    cases access

/-- What is complete in one state is stored in the later ones. -/
theorem kept (archived : Archived deployment state)
    (later : Archived deployment next)
    (keeps : state.database.KeepsReports next.database) :
    ArtifactsKept deployment state next := by
  intro request member _ _ path
  have found := archived.grounded.tidy.tables.request_eq member
  obtain ⟨current, after, same, stillPath, reports⟩ :=
    keeps request.id request found path
  obtain ⟨_, _, content, stored, reported⟩ :=
    later.paths request.id current after stillPath
  rw [State.artifact_congr same rfl] at stored
  rw [(Database.request_mem after).2, reports] at reported
  exact archived.covered.shows found stored reported

end Archived

/-- While leases live and refreshes of terminal requests see no open copies,
access artifacts are complete and final on PostgreSQL, and failed uploads leave
no trace in the request. -/
theorem access_artifacts_are_complete_and_final (deployment : Deployment)
    (postgresql : deployment.dialect = .postgresql)
    {actions later : List Action} {middle finish : State}
    (start : Runs (step deployment) Archiving State.initial actions middle)
    (continuation : Runs (step deployment) Archiving middle later finish) :
    ArtifactsComplete deployment middle ∧
      ArtifactsKept deployment middle finish ∧
      FailedUploadsRevert deployment middle := by
  have reached : Archived deployment middle :=
    start.invariant (fun archived allowed stepped =>
      (archived.step postgresql allowed stepped).1)
      (Archived.initial deployment)
  have ended : Archived deployment finish :=
    continuation.invariant (fun archived allowed stepped =>
      (archived.step postgresql allowed stepped).1) reached
  have keeps : middle.database.KeepsReports finish.database :=
    continuation.related
      (fun state => Database.KeepsReports.refl state.database)
      (fun left right => left.trans right)
      (fun archived allowed stepped =>
        (archived.step postgresql allowed stepped).imp_right
          fun leads => archived.keepsReports leads stepped) reached
  exact ⟨reached.complete, reached.kept ended keeps,
    reached.grounded.failedUploadsRevert postgresql reached.steady.core.locks⟩

/-! The first upload of an artifact fails; a redelivery uploads it, and another
one finds the request complete. -/

private def uploadedOnRedelivery : List Action :=
  .create demoRequest :: demoRelay 0 2 ++ .deliver "w1" 1 true ::
    demoExecution 0 demoSuccess ++
    [.refreshSelect 0, .upload 0 false 13, .deliver "w2" 1 true,
      .messageGet 1 14, .refreshSelect 1, .upload 1 true 15,
      .refreshCommit 1 "n" 16]

private def deliveredAgain : List Action :=
  [.deliver "w3" 1 true, .messageGet 2 17, .refreshSelect 2,
    .refreshCommit 2 "m" 18, .ack 2]

private def State.archive (state : State) : List (Bool × RequestStatus) :=
  state.database.requests.map fun request =>
    (request.artifactPath.isSome, request.status)

theorem redelivery_completes_the_artifact :
    ∃ middle finish,
      Runs (step demoDeployment) Archiving State.initial uploadedOnRedelivery
        middle ∧
      Runs (step demoDeployment) Archiving middle deliveredAgain finish ∧
      middle.archive = [(true, .completed)] ∧
      ArtifactsComplete demoDeployment middle ∧
      ArtifactsKept demoDeployment middle finish ∧
      FailedUploadsRevert demoDeployment middle := by
  have evaluated : (run (step demoDeployment) Archiving State.initial
      uploadedOnRedelivery).bind (fun middle =>
        (run (step demoDeployment) Archiving middle deliveredAgain).map
          fun _ => middle.archive) = some [(true, .completed)] := by
    decide +kernel
  obtain ⟨middle, reached, evaluated⟩ := Option.bind_eq_some_iff.mp evaluated
  obtain ⟨finish, continued, archive⟩ := Option.map_eq_some_iff.mp evaluated
  have start := runs_of_run reached
  have continuation := runs_of_run continued
  exact ⟨middle, finish, start, continuation, archive,
    access_artifacts_are_complete_and_final demoDeployment rfl start
      continuation⟩

/-! The first execution schedules a retry and refreshes last, from its own
`PENDING` copy, after the second one has completed the request. -/

private def refreshedLast : List Action :=
  .create demoRequest :: demoRelay 0 2 ++
    [.deliver "w1" 1 true, .deliver "w2" 1 false] ++
    demoExecution 0
      { ending := .raised "timeout", deleted := [], deletedAt := 0 } ++
    demoExecution 1 demoSuccess ++
    [.refreshSelect 1, .upload 1 true 13, .refreshCommit 1 "n" 14, .ack 1,
      .refreshSelect 0, .refreshCommit 0 "m" 15]

theorem late_refresh_reopens_an_archived_request :
    ∃ state, Runs (step demoDeployment) QueueDriven State.initial refreshedLast
        state ∧
      ¬ ArtifactsComplete demoDeployment state := by
  have evaluated : (run (step demoDeployment) QueueDriven State.initial
      refreshedLast).map (fun state =>
        state.database.requests.any fun request =>
          decide (request.kind = .access) &&
            decide (state.database.tasksOf request.id ≠ []) &&
            decide (request.artifactPath ≠ none) &&
            decide (request.status = .queued)) = some true := by
    decide +kernel
  obtain ⟨state, result, found⟩ := Option.map_eq_some_iff.mp evaluated
  refine ⟨state, runs_of_run result, ?_⟩
  intro complete
  obtain ⟨request, member, shape⟩ := List.any_eq_true.mp found
  simp only [Bool.and_eq_true, decide_eq_true_eq] at shape
  obtain ⟨⟨⟨access, nonempty⟩, path⟩, queued⟩ := shape
  have finished := (complete.finished request member access nonempty).mp path
  rw [queued] at finished
  rcases finished with completed | partially
  · cases completed
  · cases partially

end FleetPrivacy
