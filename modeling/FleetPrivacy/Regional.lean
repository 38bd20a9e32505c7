import FleetPrivacy.Ownership
import FleetPrivacy.Sessions
import FleetPrivacy.SourceConnectors

/-!
# The regional deployment

With `source_backend = "http"` the queue workers hand a regional executor to
`execute_task`; `process_once` takes none, and its work goes to the local
tables.  An observer records every call of the executor.  A succeeded task has
such a call behind it as long as `process_once` starts no work.
-/

namespace FleetPrivacy

open Transition

/-- An action of the deployment; the work of an executor is given by the
answers it gets. -/
inductive RegionalAction where
  | execute (call : Nat) (conduct : Conduct)
  | other (action : Action)

/-- The call of a slot and the operation of its work in progress. -/
def State.operation (state : State) (index : Nat) :
    Option (Call × SourceOperation) :=
  match state.calls[index]? with
  | some call =>
      match call.phase with
      | .working taskId =>
          (call.session.task taskId).bind fun task =>
            (call.session.request task.requestId).map fun request =>
              (call, sourceOperation task request)
      | _ => none
  | none => none

structure SourceCall where
  operation : SourceOperation
  outcome : Outcome SourceReceipt

section Deployment

variable (deployment : Deployment)
  (validate : Json → Except String SourceResultPayload)
  (template : AimdConcurrencyController)

/-- The action of the control plane: `run_worker` passes the executor on, so
every delivery has one, and work without one is that of `process_once`. -/
def State.regional (state : State) : RegionalAction → Option Action
  | .execute index conduct =>
      match state.operation index with
      | some (call, operation) =>
          if call.executor then
            some (.work index {
              ending := sourceEnding
                (sourceExecute validate template operation conduct).2
              deleted := []
              deletedAt := 0 })
          else none
      | none => none
  | .other (.deliver workerId message executor) =>
      if executor then some (.deliver workerId message true) else none
  | .other (.work index work) =>
      match state.calls[index]? with
      | some call => if call.executor then none else some (.work index work)
      | none => none
  | .other action => some action

def regionalStep (state : State) (action : RegionalAction) : Option State :=
  (state.regional validate template action).bind (step deployment state)

def observeSource (state : State) : RegionalAction → List SourceCall
  | .execute index conduct =>
      match state.operation index with
      | some (_, operation) =>
          [⟨operation, (sourceExecute validate template operation conduct).2⟩]
      | none => []
  | .other _ => []

end Deployment

/-- No call without an executor gets past the first select of
`execute_task`. -/
def DatabaseUnused (state : State) : RegionalAction → Prop
  | .other (.selectTask index) =>
      ∀ call ∈ state.calls[index]?, (state.starting index).isSome = true →
        call.executor = true
  | _ => True

instance (state : State) (action : RegionalAction) :
    Decidable (DatabaseUnused state action) :=
  match action with
  | .other (.selectTask index) =>
      inferInstanceAs (Decidable (∀ call ∈ state.calls[index]?,
        (state.starting index).isSome = true → call.executor = true))
  | .execute _ _ | .other (.create _) | .other (.relaySelect _)
  | .other (.relayPublish _ _ _ _) | .other (.relayCommit _)
  | .other (.relayCrash _) | .other (.deliver _ _ _)
  | .other (.messageGet _ _) | .other (.messageClaim _)
  | .other (.processOnce _) | .other (.work _ _) | .other (.recordTask _ _)
  | .other (.refreshSelect _) | .other (.upload _ _ _)
  | .other (.refreshCommit _ _ _) | .other (.ack _) | .other (.crash _)
  | .other (.extendLease _ _ _) => .isTrue trivial

/-- The executor returned this payload for the task, and had accepted it. -/
def Evidence (validate : Json → Except String SourceResultPayload)
    (calls : List SourceCall) (taskId : String) (payload : Json) : Prop :=
  ∃ entry ∈ calls, ∃ receipt, entry.operation.taskId = taskId ∧
    entry.outcome = .returned receipt ∧
    receipt.Accepted validate entry.operation ∧ receipt.payload = payload

theorem Evidence.append {validate : Json → Except String SourceResultPayload}
    {calls : List SourceCall} {taskId : String} {payload : Json}
    (evidence : Evidence validate calls taskId payload)
    (later : List SourceCall) :
    Evidence validate (calls ++ later) taskId payload := by
  obtain ⟨entry, member, receipt, rest⟩ := evidence
  exact ⟨entry, List.mem_append_left later member, receipt, rest⟩

/-- Copies show a result only if the row has one. -/
def RequestTask.ShowsResult (copy row : RequestTask) : Prop :=
  copy.resultSummary ≠ .obj [] → row.resultSummary ≠ .obj []

/-! ## The invariant -/

structure Reporting (validate : Json → Except String SourceResultPayload)
    (past : List SourceCall) (state : State) : Prop where
  grounded : state.Grounded
  executors : ∀ call ∈ state.calls, ∀ taskId, call.current = some taskId →
    call.executor = true
  /-- A recorded operation is that of a task. -/
  operations : ∀ entry ∈ past, ∃ row owner,
    state.database.task entry.operation.taskId = some row ∧
    state.database.request row.requestId = some owner ∧
    entry.operation = sourceOperation row owner
  worked : ∀ call ∈ state.calls, ∀ taskId work payload,
    call.phase = .worked taskId work → work.ending = .returned payload →
    Evidence validate past taskId payload
  results : ∀ row ∈ state.database.tasks, row.resultSummary ≠ .obj [] →
    Evidence validate past row.id row.resultSummary
  succeeded : ∀ row ∈ state.database.tasks, row.status = .succeeded →
    row.resultSummary ≠ .obj []
  copies : ∀ call ∈ state.calls, call.session.Copies RequestTask.ShowsResult
    (fun _ _ => True) state.database

/-- The operation of a task depends on columns that never change. -/
theorem sourceOperation_eq {task row : RequestTask}
    {request owner : PrivacyRequest} (tasks : task.identity = row.identity)
    (requests : request.identity = owner.identity) :
    sourceOperation task request = sourceOperation row owner := by
  simp only [RequestTask.identity, PrivacyRequest.identity,
    Prod.mk.injEq] at tasks requests
  simp [sourceOperation, tasks, requests]

/-- What one action may do to a task row: a result is replaced by one that the
executor returned, and success comes with a result. -/
structure RequestTask.Reports
    (validate : Json → Except String SourceResultPayload)
    (past : List SourceCall) (before after : RequestTask) : Prop where
  id : after.id = before.id
  result : after.resultSummary = before.resultSummary ∨
    after.resultSummary ≠ .obj [] ∧
      Evidence validate past before.id after.resultSummary
  status : after.status = .succeeded →
    before.status = .succeeded ∨ after.resultSummary ≠ .obj []

namespace RequestTask.Reports

variable {validate : Json → Except String SourceResultPayload}
  {past : List SourceCall}

theorem refl (row : RequestTask) : row.Reports validate past row :=
  ⟨rfl, .inl rfl, .inl⟩

theorem claimRow (taskIds : List String) (workerId : String)
    (leaseUntil : Time) (row : RequestTask) :
    row.Reports validate past
      (Database.claimRow taskIds workerId leaseUntil row) := by
  unfold Database.claimRow
  split
  next =>
    refine ⟨rfl, .inl rfl, ?_⟩
    intro isRunning
    cases isRunning
  next => exact refl row

theorem extendRow (workerId taskId : String) (leaseUntil : Time)
    (row : RequestTask) :
    row.Reports validate past
      (Database.extendRow workerId taskId leaseUntil row) := by
  unfold Database.extendRow
  split
  next => exact ⟨rfl, .inl rfl, .inl⟩
  next => exact refl row

/-- The written row has a result if the settled copy has one. -/
theorem settle_shows {task row : RequestTask} (shows : task.ShowsResult row)
    (settings : Settings) (executor : Bool) (ending : Ending) :
    (task.settle settings executor ending).ShowsResult
      (task.flush (task.settle settings executor ending) row) := by
  intro present
  simp only [RequestTask.flush, flushColumn]
  split
  next same => exact shows (same ▸ present)
  next => exact present

/-- The write-back of an execution whose payload has its evidence. -/
theorem flush_settle (settings : Settings) (executor : Bool)
    {ending : Ending} {task row : RequestTask} (shows : task.ShowsResult row)
    (evidence : ∀ payload, ending = .returned payload →
      payload ≠ .obj [] ∧ Evidence validate past row.id payload) :
    row.Reports validate past
      (task.flush (task.settle settings executor ending) row) := by
  cases ending with
  | returned payload =>
      obtain ⟨nonempty, reported⟩ := evidence payload rfl
      have result : (task.flush (task.settle settings executor
          (.returned payload)) row).resultSummary =
          flushColumn task.resultSummary payload row.resultSummary := rfl
      by_cases same : payload = task.resultSummary
      · have kept : (task.flush (task.settle settings executor
            (.returned payload)) row).resultSummary = row.resultSummary := by
          rw [result, same, flushColumn_unchanged]
        refine ⟨rfl, .inl kept, ?_⟩
        intro _
        rw [kept]
        exact .inr (shows (same ▸ nonempty))
      · rw [flushColumn_of_ne same] at result
        refine ⟨rfl, .inr ?_, ?_⟩
        · rw [result]
          exact ⟨nonempty, reported⟩
        · intro _
          rw [result]
          exact .inr nonempty
  | raised message =>
      refine ⟨rfl, .inl (flushColumn_unchanged _ _), ?_⟩
      intro isSucceeded
      have unsuccessful : (task.settle settings executor
          (.raised message)).status ≠ .succeeded := by
        simp only [RequestTask.settle]
        split
        next => simp
        next => simp
      simp only [RequestTask.flush, flushColumn] at isSucceeded
      split at isSucceeded
      next => exact .inl isSucceeded
      next => exact absurd isSucceeded unsuccessful
  | cancelled =>
      refine ⟨rfl, .inl (flushColumn_unchanged _ _), ?_⟩
      intro isSucceeded
      have kept : (task.flush (task.settle settings executor .cancelled)
          row).status = row.status := flushColumn_unchanged _ _
      rw [kept] at isSucceeded
      exact .inl isSucceeded

end RequestTask.Reports

namespace Reporting

variable {deployment : Deployment}
  {validate : Json → Except String SourceResultPayload}
  {template : AimdConcurrencyController} {past : List SourceCall}
  {state next : State}

/-- The payload of an execution is accepted, so it is not empty. -/
theorem payload_ne {taskId : String} {payload : Json}
    (evidence : Evidence validate past taskId payload) :
    payload ≠ .obj [] := by
  obtain ⟨_, _, receipt, _, _, accepted, rfl⟩ := evidence
  exact accepted.payload_ne

theorem revision (reporting : Reporting validate past state) {action : Action}
    (effect : Effect deployment state action next) :
    (∃ intake : Intake, next.database =
        intake.insertRows deployment.runtime state.database) ∨
      ∃ task request,
        Database.Revises state.database next.database task request ∧
        ∀ row ∈ state.database.tasks,
          row.Reports validate past (task row) := by
  cases effect with
  | created intake => exact .inl ⟨intake, rfl⟩
  | relayed | opened | moved | selected | locked | acked =>
      exact .inr ⟨_, _, Database.revises_refl _ _,
        fun row _ => RequestTask.Reports.refl row⟩
  | messageClaimed | batchClaimed =>
      exact .inr ⟨_, _, Database.markClaimed_revises ..,
        fun row _ => RequestTask.Reports.claimRow _ _ _ row⟩
  | refreshed =>
      exact .inr ⟨_, _, Database.commitRefresh_revises ..,
        fun row _ => RequestTask.Reports.refl row⟩
  | extended =>
      exact .inr ⟨_, _, Database.extendTaskLease_revises ..,
        fun row _ => RequestTask.Reports.extendRow _ _ _ row⟩
  | recorded index call taskId work task request now found phase held =>
      refine .inr ⟨_, _, Database.recordOutcome_revises .., ?_⟩
      intro row member
      have callMember := List.mem_of_getElem? found
      have isTask :=
        reporting.grounded.tidy.keyed call callMember taskId task held
      by_cases hit : row.id = task.id
      · rw [Database.recordRow, if_pos (decide_eq_true hit)]
        obtain ⟨committed, committedFound, shows⟩ :=
          (reporting.copies call callMember).task taskId task held
        have lookup := reporting.grounded.tidy.tables.task_eq member
        rw [hit, isTask, committedFound] at lookup
        cases lookup
        apply RequestTask.Reports.flush_settle _ _ shows
        intro payload ended
        have evidence := reporting.worked call callMember taskId work payload
          phase ended
        rw [hit, isTask]
        exact ⟨payload_ne evidence, evidence⟩
      · rw [Database.recordRow, if_neg (by simpa using hit)]
        exact RequestTask.Reports.refl row

/-- Everything but the calls: rows move on and keep their evidence. -/
theorem rows_step (reporting : Reporting validate past state) {action : Action}
    (effect : Effect deployment state action next) :
    (∀ entry ∈ past, ∃ row owner,
        next.database.task entry.operation.taskId = some row ∧
        next.database.request row.requestId = some owner ∧
        entry.operation = sourceOperation row owner) ∧
      (∀ row ∈ next.database.tasks, row.resultSummary ≠ .obj [] →
        Evidence validate past row.id row.resultSummary) ∧
      ∀ row ∈ next.database.tasks, row.status = .succeeded →
        row.resultSummary ≠ .obj [] := by
  refine ⟨?_, ?_⟩
  · intro entry member
    obtain ⟨row, owner, rowFound, ownerFound, same⟩ :=
      reporting.operations entry member
    have carries := reporting.grounded.carries effect
    obtain ⟨after, afterFound, kept⟩ := carries.task _ row rowFound
    obtain ⟨later, laterFound, shows⟩ := carries.request _ owner ownerFound
    have identity := kept row rfl
    have requestId : after.requestId = row.requestId :=
      (congrArg (fun columns => columns.2.1) identity).symm
    refine ⟨after, later, afterFound, requestId ▸ laterFound, ?_⟩
    rw [same]
    exact sourceOperation_eq identity (shows owner ⟨rfl, id⟩).1
  · have rows : ∀ row ∈ next.database.tasks,
        (row.resultSummary ≠ .obj [] →
          Evidence validate past row.id row.resultSummary) ∧
        (row.status = .succeeded → row.resultSummary ≠ .obj []) := by
      intro row member
      rcases reporting.revision effect with
        ⟨intake, inserted⟩ | ⟨task, request, revises, reports⟩
      · rw [inserted] at member
        rcases List.mem_append.mp member with old | new
        · exact ⟨reporting.results row old, reporting.succeeded row old⟩
        · obtain ⟨source, _, isTask⟩ := List.mem_map.mp new
          rw [← isTask]
          refine ⟨fun nonempty => absurd rfl nonempty, ?_⟩
          intro isSucceeded
          cases isSucceeded
      · rw [revises.tasks] at member
        obtain ⟨old, oldMember, rfl⟩ := List.mem_map.mp member
        have report := reports old oldMember
        rcases report.result with same | ⟨nonempty, evidence⟩
        · rw [report.id, same]
          refine ⟨reporting.results old oldMember, ?_⟩
          intro isSucceeded
          rcases report.status isSucceeded with before | nonempty
          · exact reporting.succeeded old oldMember before
          · exact same ▸ nonempty
        · rw [report.id]
          exact ⟨fun _ => evidence, fun _ => nonempty⟩
    exact ⟨fun row member => (rows row member).1,
      fun row member => (rows row member).2⟩

theorem copies_step (reporting : Reporting validate past state)
    {action : Action} (effect : Effect deployment state action next) :
    ∀ call ∈ next.calls, call.session.Copies RequestTask.ShowsResult
      (fun _ _ => True) next.database := by
  have shown : ∀ {before after : RequestTask},
      before.Reports validate past after → before.ShowsResult after := by
    intro before after report nonempty
    rcases report.result with same | ⟨present, _⟩
    · rw [same]
      exact nonempty
    · exact present
  have carries : Database.Carries RequestTask.ShowsResult
      RequestTask.ShowsResult (fun _ _ => True) (fun _ _ => True)
      state.database next.database := by
    rcases reporting.revision effect with
      ⟨intake, inserted⟩ | ⟨task, request, revises, reports⟩
    · rw [inserted]
      exact Database.carries_insertRows (fun _ _ => id) (fun _ _ => id)
    · apply revises.carries
      · intro row member copy shows present
        exact shown (reports row member) (shows present)
      · intro row _ copy _
        trivial
  refine effect.copies reporting.grounded.tidy (fun _ => id) (fun _ => trivial)
    carries ?_ reporting.copies
  constructor
  · intro index now call taskId work task request isRecord found phase held
      requestHeld
    have member := List.mem_of_getElem? found
    have isTask := reporting.grounded.tidy.keyed call member taskId task held
    obtain ⟨row, rowFound, shows⟩ :=
      (reporting.copies call member).task taskId task held
    obtain ⟨owner, ownerFound, key, _⟩ :=
      reporting.grounded.request_of_copy member requestHeld
    obtain ⟨later, laterFound, _⟩ :=
      carries.request task.requestId owner ownerFound
    refine ⟨?_, later, key ▸ laterFound, trivial⟩
    subst isRecord
    obtain ⟨again, workedId, done, copy, other, againFound, againPhase,
      heldCopy, _, rfl⟩ := effect.of_recordTask
    rw [found] at againFound
    cases againFound
    rw [phase] at againPhase
    cases againPhase
    rw [held] at heldCopy
    cases heldCopy
    have hit : decide (row.id = task.id) = true :=
      decide_eq_true ((Database.task_mem rowFound).2.trans isTask.symm)
    refine ⟨_, ?_, RequestTask.Reports.settle_shows shows
      deployment.settings call.executor work.ending⟩
    rw [(Database.recordOutcome_revises ..).task_eq, isTask, rowFound]
    exact congrArg some (if_pos hit)
  · intro index noticeId now call requestId own reference request _ found _
      held _
    obtain ⟨owner, ownerFound, key, _⟩ := reporting.grounded.request_of_copy
      (List.mem_of_getElem? found) held
    obtain ⟨later, laterFound, _⟩ := carries.request requestId owner ownerFound
    exact ⟨later, key ▸ laterFound, trivial⟩

theorem append (reporting : Reporting validate past state)
    {events : List SourceCall}
    (operations : ∀ entry ∈ events, ∃ row owner,
      state.database.task entry.operation.taskId = some row ∧
      state.database.request row.requestId = some owner ∧
      entry.operation = sourceOperation row owner) :
    Reporting validate (past ++ events) state := by
  refine ⟨reporting.grounded, reporting.executors, ?_, ?_, ?_,
    reporting.succeeded, reporting.copies⟩
  · intro entry member
    rcases List.mem_append.mp member with old | new
    · exact reporting.operations entry old
    · exact operations entry new
  · intro call member taskId work payload phase ended
    exact (reporting.worked call member taskId work payload phase ended).append
      events
  · intro row member nonempty
    exact (reporting.results row member nonempty).append events

/-- Actions of the control plane, with what the deployment says about the calls
that take up work or finish it. -/
theorem carry (reporting : Reporting validate past state) {action : Action}
    (effect : Effect deployment state action next) (grounded : next.Grounded)
    (starts : ∀ index, action = .selectTask index →
      ∀ call ∈ state.calls[index]?, (state.starting index).isSome = true →
        call.executor = true)
    (works : ∀ index work payload call taskId, action = .work index work →
      state.calls[index]? = some call → call.phase = .working taskId →
      work.ending = .returned payload →
      Evidence validate past taskId payload) :
    Reporting validate past next := by
  obtain ⟨operations, results, succeeded⟩ := reporting.rows_step effect
  refine ⟨grounded, ?_, operations, ?_, results, succeeded,
    reporting.copies_step effect⟩
  · intro call member taskId busy
    obtain ⟨slot, located⟩ := List.getElem?_of_mem member
    rcases effect.working located busy with
      kept | ⟨old, row, todo, isSelect, found, phase, rest, inTable, same,
        leased, rfl⟩ | ⟨old, work, _, found, phase, rfl⟩
    · exact reporting.executors call (List.mem_of_getElem? kept) taskId busy
    · apply starts slot isSelect old found
      rw [State.starting_eq found phase rest inTable same leased]
      rfl
    · apply reporting.executors old (List.mem_of_getElem? found) taskId
      simp [Call.current, phase]
  · intro call member taskId work payload phase ended
    obtain ⟨slot, located⟩ := List.getElem?_of_mem member
    have busy : call.current = some taskId := by
      simp [Call.current, phase]
    rcases effect.working located busy with
      kept | ⟨_, _, _, _, _, _, _, _, _, _, rfl⟩ |
      ⟨old, done, isWork, found, working, rfl⟩
    · exact reporting.worked call (List.mem_of_getElem? kept) taskId work
        payload phase ended
    · cases phase
    · cases phase
      exact works slot work payload old taskId isWork found working ended

/-- The operation that a call works on is that of a committed task. -/
theorem operation_row (reporting : Reporting validate past state) {index : Nat}
    {call : Call} {operation : SourceOperation}
    (working : state.operation index = some (call, operation)) :
    ∃ taskId row owner, state.calls[index]? = some call ∧
      call.phase = .working taskId ∧ operation.taskId = taskId ∧
      state.database.task operation.taskId = some row ∧
      state.database.request row.requestId = some owner ∧
      operation = sourceOperation row owner := by
  unfold State.operation at working
  split at working
  next found =>
    split at working
    next taskId phase =>
      obtain ⟨task, held, mapped⟩ := Option.bind_eq_some_iff.mp working
      obtain ⟨request, requestHeld, same⟩ := Option.map_eq_some_iff.mp mapped
      cases same
      have member := List.mem_of_getElem? found
      have isTask := reporting.grounded.tidy.keyed call member taskId task held
      obtain ⟨row, rowFound, identity⟩ :=
        (reporting.grounded.copies call member).task taskId task held
      obtain ⟨owner, ownerFound, _, shows⟩ :=
        reporting.grounded.request_of_copy member requestHeld
      have requestId : task.requestId = row.requestId :=
        congrArg (fun columns => columns.2.1) identity
      refine ⟨taskId, row, owner, found, phase, isTask, ?_,
        requestId ▸ ownerFound, sourceOperation_eq identity shows.1⟩
      rw [← isTask] at rowFound
      exact rowFound
    next => cases working
  next => cases working

theorem step {action : RegionalAction}
    (reporting : Reporting validate past state)
    (unused : DatabaseUnused state action)
    (stepped : regionalStep deployment validate template state action =
      some next) :
    Reporting validate (past ++ observeSource validate template state action)
      next := by
  obtain ⟨plain, isPlain, stepped⟩ := Option.bind_eq_some_iff.mp stepped
  have grounded := reporting.grounded.step stepped
  have effect := effect_of_step reporting.grounded.tidy.tables.taskIds stepped
  cases action with
  | execute index conduct =>
      simp only [State.regional] at isPlain
      split at isPlain
      next call operation working =>
        split at isPlain
        next hasExecutor =>
          cases isPlain
          obtain ⟨taskId, row, owner, found, phase, isTask, rowFound,
            ownerFound, same⟩ := reporting.operation_row working
          simp only [observeSource, working]
          have logged := reporting.append (by
            intro entry member
            rw [List.mem_singleton.mp member]
            exact ⟨row, owner, rowFound, ownerFound, same⟩ :
              ∀ entry ∈ [SourceCall.mk operation
                (sourceExecute validate template operation conduct).2],
                ∃ row owner,
                  state.database.task entry.operation.taskId = some row ∧
                  state.database.request row.requestId = some owner ∧
                  entry.operation = sourceOperation row owner)
          apply logged.carry effect grounded
          · intro other isSelect
            cases isSelect
          · intro other work payload current workingId isWork otherFound
              otherPhase ended
            cases isWork
            rw [found] at otherFound
            cases otherFound
            rw [phase] at otherPhase
            cases otherPhase
            obtain ⟨receipt, outcome, succeeded, paid⟩ :=
              accepted_of_sourceEnding ended
            exact ⟨_, List.mem_append_right past (List.mem_singleton_self _),
              receipt, isTask, outcome,
              sourceExecute_accepted outcome succeeded, paid⟩
        next => cases isPlain
      next => cases isPlain
  | other action =>
      rw [observeSource, List.append_nil]
      apply reporting.carry effect grounded
      · intro index isSelect
        subst isSelect
        cases action with
        | selectTask chosen =>
            cases isPlain
            exact unused
        | deliver workerId message executor =>
            simp only [State.regional] at isPlain
            split at isPlain
            next => cases isPlain
            next => cases isPlain
        | work chosen work =>
            simp only [State.regional] at isPlain
            split at isPlain
            next =>
              split at isPlain
              next => cases isPlain
              next => cases isPlain
            next => cases isPlain
        | _ => cases isPlain
      · -- Only calls with an executor are at work.
        intro index work payload call taskId isWork found phase ended
        subst isWork
        have busy : call.current = some taskId := by
          simp [Call.current, phase]
        have hasExecutor := reporting.executors call
          (List.mem_of_getElem? found) taskId busy
        cases action with
        | work chosen done =>
            simp only [State.regional] at isPlain
            split at isPlain
            next current currentFound =>
              split at isPlain
              next => cases isPlain
              next without =>
                cases isPlain
                rw [found] at currentFound
                cases currentFound
                exact absurd hasExecutor without
            next => cases isPlain
        | deliver workerId message executor =>
            simp only [State.regional] at isPlain
            split at isPlain
            next => cases isPlain
            next => cases isPlain
        | _ => cases isPlain

theorem initial : Reporting validate [] State.initial := by
  refine ⟨State.Grounded.initial, ?_, ?_, ?_, ?_, ?_, ?_⟩
  · intro call member
    cases member
  · intro entry member
    cases member
  · intro call member
    cases member
  · intro row member
    cases member
  · intro row member
    cases member
  · intro call member
    cases member

end Reporting

/-- Every succeeded task has an executor call of its own behind it, whose
accepted payload is the task's result. -/
def State.Reported (validate : Json → Except String SourceResultPayload)
    (calls : List SourceCall) (state : State) : Prop :=
  ∀ row ∈ state.database.tasks, row.status = .succeeded →
    ∃ owner, state.database.request row.requestId = some owner ∧
      ∃ entry ∈ calls, ∃ receipt,
        entry.operation = sourceOperation row owner ∧
        entry.outcome = .returned receipt ∧
        receipt.Accepted validate entry.operation ∧
        row.resultSummary = receipt.payload

theorem Reporting.reported
    {validate : Json → Except String SourceResultPayload}
    {past : List SourceCall} {state : State}
    (reporting : Reporting validate past state) :
    state.Reported validate past := by
  intro row member isSucceeded
  obtain ⟨entry, inPast, receipt, isTask, outcome, accepted, paid⟩ :=
    reporting.results row member
      (reporting.succeeded row member isSucceeded)
  obtain ⟨again, owner, found, ownerFound, same⟩ :=
    reporting.operations entry inPast
  rw [isTask, reporting.grounded.tidy.tables.task_eq member] at found
  cases found
  exact ⟨owner, ownerFound, entry, inPast, receipt, same, outcome, accepted,
    paid.symm⟩

/-- In every run of the regional deployment in which `process_once` starts no
work, no task is reported as succeeded that the regional source did not do. -/
theorem regional_success_has_receipt (deployment : Deployment)
    (validate : Json → Except String SourceResultPayload)
    (template : AimdConcurrencyController) {actions : List RegionalAction}
    {state : State}
    (execution : Runs (regionalStep deployment validate template)
      DatabaseUnused State.initial actions state) :
    state.Reported validate (history
      (regionalStep deployment validate template)
      (observeSource validate template) State.initial actions) := by
  have preserved : ∀ {past : List SourceCall} {before : State}
      {action : RegionalAction} {after : State},
      Reporting validate past before → DatabaseUnused before action →
      regionalStep deployment validate template before action = some after →
      Reporting validate (past ++ observeSource validate template before action)
        after :=
    fun reporting unused stepped => reporting.step unused stepped
  have reached := execution.invariant_with_history preserved Reporting.initial
  exact reached.reported

/-! One delete task.  The payload model is checked field by field. -/

private def countValue : Option Json → Except String (Option Int)
  | none | some .null => .ok none
  | some (.int value) => .ok (some value)
  | some _ => .error "Input should be a valid integer"

private def demoValidate : Json → Except String SourceResultPayload
  | .obj fields =>
      match fields.lookup "verified", countValue (fields.lookup "record_count"),
          countValue (fields.lookup "deleted_count"),
          countValue (fields.lookup "remaining_count") with
      | some (.bool verified), .ok recordCount, .ok deletedCount,
          .ok remainingCount =>
          .ok { verified, recordCount, deletedCount, remainingCount
                extra := fields.filter fun field =>
                  decide (field.1 ∉ ["verified", "record_count",
                    "deleted_count", "remaining_count"]) }
      | _, _, _, _ => .error "validation error"
  | _ => .error "Input should be a valid dictionary"

private def demoController : AimdConcurrencyController :=
  { limit := 4, minimum := 1, maximum := 64, targetP95Seconds := 8 / 10
    additiveStep := 1, decreaseRatio := 65 / 100, latencies := []
    failures := 0 }

private def regionalDeletion : Intake :=
  demoIntake 'a' .delete ["jobs"] demoSource_nodup demoSource_allowed

/-- The source has deleted three records. -/
private def deletedThree : Json :=
  .obj [("verified", .bool true), ("deleted_count", .int 3),
    ("remaining_count", .int 0)]

private def deliveredDeletion : List Action :=
  .create regionalDeletion :: demoRelay 0 2 ++
    [.deliver "w1" 1 true, .messageGet 0 11, .messageClaim 0, .selectTask 0]

private def queueDeletion : List RegionalAction :=
  deliveredDeletion.map RegionalAction.other ++
    [.execute 0 {
        admission := some 4
        exchange := .answered 200 (.json deletedThree) (1 / 10)
        adjustError := none
        releaseError := none },
      .other (.recordTask 0 12)]

theorem queue_worker_reports_receipt :
    ∃ state, Runs (regionalStep demoDeployment demoValidate demoController)
        DatabaseUnused State.initial queueDeletion state ∧
      state.database.tasks.map (fun task =>
        (task.status, task.resultSummary)) = [(.succeeded, deletedThree)] ∧
      state.Reported demoValidate (history
        (regionalStep demoDeployment demoValidate demoController)
        (observeSource demoValidate demoController) State.initial
        queueDeletion) := by
  have evaluated : (run (regionalStep demoDeployment demoValidate
      demoController) DatabaseUnused State.initial queueDeletion).map
        (fun state => state.database.tasks.map fun task =>
          (task.status, task.resultSummary)) =
      some [(.succeeded, deletedThree)] := by
    decide +kernel
  obtain ⟨state, result, tasks⟩ := Option.map_eq_some_iff.mp evaluated
  have execution := runs_of_run result
  exact ⟨state, execution, tasks,
    regional_success_has_receipt demoDeployment demoValidate demoController
      execution⟩

/-! The same task, executed by `POST /admin/process-once`. -/

private def batchDeletion : List RegionalAction :=
  [.other (.create regionalDeletion),
    .other (.processOnce (demoClaim "t:api-worker" 0)),
    .other (.selectTask 0),
    .other (.work 0 {
      ending := .returned (deleteResult []), deleted := [], deletedAt := 1 }),
    .other (.recordTask 0 2)]

theorem process_once_reports_without_receipt :
    ∃ state, Runs (regionalStep demoDeployment demoValidate demoController)
        Always State.initial batchDeletion state ∧
      ¬ state.Reported demoValidate (history
        (regionalStep demoDeployment demoValidate demoController)
        (observeSource demoValidate demoController) State.initial
        batchDeletion) := by
  have evaluated : (run (regionalStep demoDeployment demoValidate
      demoController) Always State.initial batchDeletion).map
        (fun state => state.database.tasks.map RequestTask.status) =
      some [.succeeded] := by
    decide +kernel
  obtain ⟨state, result, statuses⟩ := Option.map_eq_some_iff.mp evaluated
  have silent : history (regionalStep demoDeployment demoValidate
      demoController) (observeSource demoValidate demoController)
      State.initial batchDeletion = [] := by
    have observed : (history (regionalStep demoDeployment demoValidate
        demoController) (observeSource demoValidate demoController)
        State.initial batchDeletion).length = 0 := by
      decide +kernel
    exact List.length_eq_zero_iff.mp observed
  refine ⟨state, runs_of_run result, ?_⟩
  rw [silent]
  intro reported
  obtain ⟨task, tasks, status⟩ := List.map_eq_singleton_iff.mp statuses
  have member : task ∈ state.database.tasks := by
    rw [tasks]
    exact List.mem_singleton_self task
  obtain ⟨_, _, entry, inCalls, _⟩ := reported task member status
  cases inCalls

end FleetPrivacy
