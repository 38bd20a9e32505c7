import FleetPrivacy.Api
import FleetPrivacy.Executions

/-!
# Deletions under `READ COMMITTED`

With the database backend `_execute_delete` is four statements of one
transaction: it selects the active records of its scope, marks them by id,
counts what is left and commits.  The control plane runs with these statements
as actions of their own, among other deletions and `seed_records` calls.  The
select takes no lock, so the receipts add up as long as no deletion selects a
record that another one has selected and not yet committed.
-/

namespace FleetPrivacy

open Transition

/-- What a deletion in progress has selected, and when it marked it. -/
structure Deletion where
  rows : List DeviceCloudRecord
  deletedAt : Option Time
  deriving DecidableEq

def Deletion.ids (deletion : Deletion) : List String :=
  deletion.rows.map DeviceCloudRecord.id

structure DeletionState where
  control : State
  /-- The open deletions, by call. -/
  deletions : Nat → Option Deletion

def DeletionState.initial : DeletionState :=
  { control := .initial, deletions := fun _ => none }

inductive DeletionAction where
  | selectRecords (call : Nat)
  | updateRecords (call : Nat) (now : Time)
  /-- The readback; the outcome follows from it. -/
  | countRecords (call : Nat)
  /-- An exception, or a cancellation, between the statements. -/
  | interrupt (call : Nat) (ending : Ending)
  | seed (tenantId subjectKey : String) (recordsPerSource : Nat)
      (fresh : Fresh)
  | other (action : Action)

/-- A call in the `_execute_delete` branch, with the copies it works on. -/
structure Deleter where
  call : Call
  taskId : String
  task : RequestTask
  request : PrivacyRequest

def State.deleting (state : State) (index : Nat) : Option Deleter :=
  match state.calls[index]? with
  | some call =>
      match call.phase with
      | .working taskId =>
          (call.session.task taskId).bind fun task =>
            (call.session.request task.requestId).bind fun request =>
              if request.kind = .delete ∧ call.executor = false then
                some { call, taskId, task, request }
              else none
      | _ => none
  | none => none

namespace DeletionState

def assign (state : DeletionState) (index : Nat)
    (deletion : Option Deletion) : DeletionState :=
  { state with
    deletions := fun other =>
      if other = index then deletion else state.deletions other }

/-- An update waits for the transactions that have updated one of its rows. -/
def unlocked (state : DeletionState) (index : Nat)
    (deletion : Deletion) : Bool :=
  (List.range state.control.calls.length).all fun other =>
    decide (other = index) ||
      match state.deletions other with
      | some held => held.deletedAt.isNone ||
          deletion.ids.all fun id => decide (id ∉ held.ids)
      | none => true

/-- The work of a call is over. -/
def finish (state : DeletionState) (index : Nat) (deleter : Deleter)
    (work : Work) : DeletionState :=
  { state with
    control := state.control.put index
      { deleter.call with phase := .worked deleter.taskId work } }

end DeletionState

/-- `SELECT count(*)`, after the transaction's own update. -/
def remainingCount (database : Database) (deleter : Deleter)
    (ids : List String) (deletedAt : Time) : Nat :=
  (activeRecords
    { database with records := markDeleted ids deletedAt database.records }
    deleter.task deleter.request).length

/-- How `_execute_delete` ends after its readback. -/
def deleteEnding (rows : List DeviceCloudRecord) (remaining : Nat) : Ending :=
  if remaining = 0 then .returned (deleteResult rows)
  else
    .raised ("reverse verification found " ++ toString remaining ++
      " active records")

/-- The call whose transaction an action ends. -/
def Action.ends : Action → Option Nat
  | .recordTask index _ | .crash index | .upload index false _ => some index
  | _ => none

section Step

variable (deployment : Deployment)

def selectRecordsStep (state : DeletionState) (index : Nat) :
    Option DeletionState := do
  let deleter ← state.control.deleting index
  match state.deletions index with
  | some _ => none
  | none =>
      some (state.assign index (some {
        rows := activeRecords state.control.database deleter.task
          deleter.request
        deletedAt := none }))

def updateRecordsStep (state : DeletionState) (index : Nat) (now : Time) :
    Option DeletionState := do
  let _ ← state.control.deleting index
  let deletion ← state.deletions index
  if deletion.deletedAt.isNone && state.unlocked index deletion then
    some (state.assign index (some { deletion with deletedAt := some now }))
  else none

def countRecordsStep (state : DeletionState) (index : Nat) :
    Option DeletionState := do
  let deleter ← state.control.deleting index
  let deletion ← state.deletions index
  let deletedAt ← deletion.deletedAt
  some (state.finish index deleter {
    ending := deleteEnding deletion.rows (remainingCount
      state.control.database deleter deletion.ids deletedAt)
    deleted := deletion.ids
    deletedAt })

/-- The marks that were made before the interruption are committed with the
outcome. -/
def interruptStep (state : DeletionState) (index : Nat) (ending : Ending) :
    Option DeletionState := do
  let deleter ← state.control.deleting index
  match ending with
  | .returned _ => none
  | _ =>
      match (state.deletions index).bind fun deletion =>
          deletion.deletedAt.map fun deletedAt => (deletion, deletedAt) with
      | some (deletion, deletedAt) =>
          some (state.finish index deleter
            { ending, deleted := deletion.ids, deletedAt })
      | none =>
          some (state.finish index deleter
            { ending, deleted := [], deletedAt := 0 })

/-- `seed_records`, with ids that no record uses. -/
def seedStep (state : DeletionState) (tenantId subjectKey : String)
    (recordsPerSource : Nat) (fresh : Fresh) : Option DeletionState :=
  let rows := seedRows deployment.runtime tenantId subjectKey recordsPerSource
    fresh
  let database := state.control.database
  if decide (rows.map DeviceCloudRecord.id).Nodup &&
      database.records.all (fun record =>
        decide (record.id ∉ rows.map DeviceCloudRecord.id)) then
    some { state with
      control := { state.control with
        database := { database with records := database.records ++ rows } } }
  else none

/-- The workers have no source executor, and deletions are made of the
statements above. -/
def DeletionState.admits (state : DeletionState) : Action → Bool
  | .deliver _ _ executor => !executor
  | .work index _ => (state.control.deleting index).isNone
  | _ => true

def otherStep (state : DeletionState) (action : Action) :
    Option DeletionState :=
  if state.admits action then
    (step deployment state.control action).map fun control =>
      { control
        deletions := fun slot =>
          if action.ends = some slot then none else state.deletions slot }
  else none

def deletionStep (state : DeletionState) :
    DeletionAction → Option DeletionState
  | .selectRecords index => selectRecordsStep state index
  | .updateRecords index now => updateRecordsStep state index now
  | .countRecords index => countRecordsStep state index
  | .interrupt index ending => interruptStep state index ending
  | .seed tenantId subjectKey recordsPerSource fresh =>
      seedStep deployment state tenantId subjectKey recordsPerSource fresh
  | .other action => otherStep deployment state action

end Step

/-! ## Receipts -/

structure Scope where
  tenantId : String
  subjectKeyHash : String
  source : String
  deriving DecidableEq

def DeviceCloudRecord.scope (record : DeviceCloudRecord) : Scope :=
  { tenantId := record.tenantId
    subjectKeyHash := record.subjectKeyHash
    source := record.source }

/-- The scope that `_active_records` filters by. -/
def RequestTask.scope (task : RequestTask) (request : PrivacyRequest) : Scope :=
  { tenantId := task.tenantId
    subjectKeyHash := request.subjectKeyHash
    source := task.source }

/-- The task is a delete task of the scope. -/
def Database.deletes (database : Database) (scope : Scope)
    (task : RequestTask) : Bool :=
  database.requests.any fun request =>
    decide (request.id = task.requestId ∧ request.kind = .delete ∧
      task.scope request = scope)

/-- `deleted_count` of a result. -/
def deletedCount (result : Json) : Int :=
  match result.get? "deleted_count" with
  | some (.int count) => count
  | _ => 0

/-- The rows of the scope with `deleted_at` set. -/
def Database.deletedRows (database : Database) (scope : Scope) : Nat :=
  database.records.countP fun record =>
    decide (record.scope = scope ∧ record.deletedAt ≠ none)

/-- The sum of `deleted_count` over the succeeded delete tasks of the scope. -/
def Database.receipts (database : Database) (scope : Scope) : Int :=
  ((database.tasks.filter fun task =>
    database.deletes scope task && decide (task.status = .succeeded)).map
      fun task => deletedCount task.resultSummary).sum

/-- The task failed, or its cancelled execution left it running without a
lease. -/
def RequestTask.Unreceipted (task : RequestTask) : Prop :=
  task.status = .failed ∨ task.status = .running ∧ task.leaseOwner = none ∧
    task.leaseExpiresAt = none

/-- The marks that one committed execution made. -/
structure Marking where
  taskId : String
  ids : List String
  deletedAt : Time

def observeMarkings (state : DeletionState) : DeletionAction → List Marking
  | .other (.recordTask index _) =>
      match state.control.recording index with
      | some (_, taskId, work) =>
          [{ taskId, ids := work.deleted, deletedAt := work.deletedAt }]
      | none => []
  | _ => []

/-- Every record is marked by at most one execution and keeps its mark, and
the receipts of a scope without failures count its marked records. -/
structure CountedOnce (markings : List Marking) (database : Database) :
    Prop where
  once : (markings.flatMap Marking.ids).Nodup
  kept : ∀ marking ∈ markings, ∀ id ∈ marking.ids, ∃ record ∈ database.records,
    record.id = id ∧ record.deletedAt = some marking.deletedAt
  marked : ∀ record ∈ database.records, record.deletedAt ≠ none →
    ∃ marking ∈ markings, record.id ∈ marking.ids
  balanced : ∀ scope, (∀ task ∈ database.tasks,
      database.deletes scope task = true → ¬ task.Unreceipted) →
    (database.deletedRows scope : Int) = database.receipts scope

/-! ## The condition -/

/-- No lease of a live call has run out when a claim is made. -/
def DeletionLeases (state : DeletionState) : DeletionAction → Prop
  | .other action => LeasesLive state.control action
  | _ => True

/-- A deletion selects no record that another one has selected and not yet
committed. -/
def SelectsApart (state : DeletionState) : DeletionAction → Prop
  | .selectRecords index =>
      ∀ deleter ∈ state.control.deleting index,
        ∀ other ∈ List.range state.control.calls.length, other ≠ index →
          ∀ deletion ∈ state.deletions other, ∀ id ∈ deletion.ids,
            id ∉ (activeRecords state.control.database deleter.task
              deleter.request).map DeviceCloudRecord.id
  | _ => True

def DeletionsApart (state : DeletionState) (action : DeletionAction) : Prop :=
  DeletionLeases state action ∧ SelectsApart state action

instance (state : DeletionState) (action : DeletionAction) :
    Decidable (DeletionLeases state action) :=
  match action with
  | .other action => inferInstanceAs (Decidable (LeasesLive state.control action))
  | .selectRecords _ | .updateRecords _ _ | .countRecords _ | .interrupt _ _
  | .seed _ _ _ _ => .isTrue trivial

instance (state : DeletionState) (action : DeletionAction) :
    Decidable (SelectsApart state action) :=
  match action with
  | .selectRecords index =>
      inferInstanceAs (Decidable (∀ deleter ∈ state.control.deleting index,
        ∀ other ∈ List.range state.control.calls.length, other ≠ index →
          ∀ deletion ∈ state.deletions other, ∀ id ∈ deletion.ids,
            id ∉ (activeRecords state.control.database deleter.task
              deleter.request).map DeviceCloudRecord.id))
  | .other _ | .updateRecords _ _ | .countRecords _ | .interrupt _ _
  | .seed _ _ _ _ => .isTrue trivial

instance (state : DeletionState) (action : DeletionAction) :
    Decidable (DeletionsApart state action) :=
  inferInstanceAs (Decidable (_ ∧ _))

/-! ## Calls that delete -/

/-- The call is in the `_execute_delete` branch or has just left it. -/
structure Call.Deletes (call : Call) (taskId : String) (task : RequestTask)
    (request : PrivacyRequest) : Prop where
  busy : call.current = some taskId
  held : call.session.task taskId = some task
  requestHeld : call.session.request task.requestId = some request
  kind : request.kind = .delete

theorem State.deleting_eq_some {state : State} {index : Nat}
    {deleter : Deleter} (located : state.deleting index = some deleter) :
    state.calls[index]? = some deleter.call ∧
      deleter.call.phase = .working deleter.taskId ∧
      deleter.call.Deletes deleter.taskId deleter.task deleter.request := by
  unfold State.deleting at located
  split at located
  next call found =>
    split at located
    next taskId phase =>
      obtain ⟨task, held, located⟩ := Option.bind_eq_some_iff.mp located
      obtain ⟨request, requestHeld, located⟩ :=
        Option.bind_eq_some_iff.mp located
      split at located
      next isDelete =>
        cases located
        have busy : call.current = some taskId := by
          simp [Call.current, phase]
        exact ⟨found, phase, busy, held, requestHeld, isDelete.1⟩
      next => cases located
    next => cases located
  next => cases located

/-- The work of an access execution, or of a call that is not a deletion. -/
theorem work_of_step {deployment : Deployment} {state next : State}
    {index : Nat} {work : Work}
    (stepped : step deployment state (.work index work) = some next) :
    ∃ call taskId task request, state.calls[index]? = some call ∧
      call.phase = .working taskId ∧ call.session.task taskId = some task ∧
      call.session.request task.requestId = some request ∧
      work.admissible state.database call.executor task request = true := by
  simp only [step, workStep, Option.bind_eq_bind,
    Option.bind_eq_some_iff] at stepped
  obtain ⟨call, found, stepped⟩ := stepped
  split at stepped
  next taskId phase =>
    obtain ⟨task, held, stepped⟩ := Option.bind_eq_some_iff.mp stepped
    obtain ⟨request, requestHeld, stepped⟩ :=
      Option.bind_eq_some_iff.mp stepped
    split at stepped
    next admissible =>
      exact ⟨call, taskId, task, request, found, phase, held, requestHeld,
        admissible⟩
    next => cases stepped
  next => cases stepped

section Effect

variable {deployment : Deployment} {state next : State} {action : Action}

/-- A task in hand stays there until its transaction ends. -/
theorem Effect.keeps_working (effect : Effect deployment state action next)
    {slot : Nat} {call : Call} {taskId : String}
    (located : state.calls[slot]? = some call)
    (busy : call.current = some taskId) (goes : action.ends ≠ some slot) :
    ∃ after, next.calls[slot]? = some after ∧ after.current = some taskId ∧
      after.session = call.session := by
  -- Unless the action is one of this call, the slot is left alone.
  have away : ∀ {index : Nat} {old new : Call},
      state.calls[index]? = some old → (index = slot → False) →
      ∃ after, (state.put index new).calls[slot]? = some after ∧
        after.current = some taskId ∧ after.session = call.session := by
    intro index old new found different
    refine ⟨call, ?_, busy, rfl⟩
    rw [State.put, getElem?_set_slot found,
      if_neg (fun same => different same.symm)]
    exact located
  have bound : slot < state.calls.length :=
    (List.getElem?_eq_some_iff.mp located).1
  cases effect with
  | created | relayed | extended => exact ⟨call, located, busy, rfl⟩
  | opened | batchClaimed =>
      refine ⟨call, ?_, busy, rfl⟩
      rw [List.getElem?_append_left bound]
      exact located
  | messageClaimed index old claimedId now found phase
  | selected index old selectedId todo row found phase
  | refreshed index old requestId own reference request noticeId now found
      phase
  | acked index old message delivered found _ _ phase =>
      apply away found
      rintro rfl
      rw [located] at found
      cases found
      simp [Call.current, phase] at busy
  | recorded index old workedId work task request now found =>
      apply away found
      rintro rfl
      exact goes rfl
  | locked index old requestId own session found target =>
      apply away found
      rintro rfl
      rw [located] at found
      cases found
      cases target with
      | recorded recordedId task phase => simp [Call.current, phase] at busy
      | duplicate duplicateId row phase => simp [Call.current, phase] at busy
  | moved action index old after artifacts found move =>
      by_cases same : index = slot
      · subst same
        rw [located] at found
        cases found
        cases move with
        | worked workedId work phase =>
            refine ⟨{ call with phase := .worked workedId work }, ?_, ?_, rfl⟩
            · simp [State.put, bound]
            · simpa [Call.current, phase] using busy
        | failed => exact absurd rfl goes
        | crashed => exact absurd rfl goes
        | ignored _ _ _ phase | terminal _ _ _ _ _ phase
        | unfinished _ _ _ _ phase | raised _ _ _ _ _ phase | busy _ _ phase
        | skipped _ _ phase | vanished _ phase | uploaded _ _ _ _ phase =>
            simp [Call.current, phase] at busy
      · exact away found same

/-- A call whose transaction ended has no task in hand. -/
theorem Effect.ended (effect : Effect deployment state action next)
    {slot : Nat} (ends : action.ends = some slot) {call : Call}
    (located : next.calls[slot]? = some call) : call.current = none := by
  cases effect with
  | relayed action relays extra outbox move => cases move <;> cases ends
  | moved action index old after artifacts found move =>
      cases move with
      | failed | crashed =>
          cases ends
          rcases State.put_cases found located with ⟨_, closed⟩ | ⟨away, _⟩
          · rw [closed]
            rfl
          · exact absurd rfl away
      | _ => cases ends
  | recorded index old taskId work task request now found =>
      cases ends
      rcases State.put_cases found located with ⟨_, after⟩ | ⟨away, _⟩
      · rw [after]
        exact Call.current_afterRecord ..
      · exact absurd rfl away
  | _ => cases ends

end Effect

/-! ## Rows and receipts -/

/-- What happens to a task row when no outcome is recorded on it. -/
structure RequestTask.SameReceipt (before after : RequestTask) : Prop where
  identity : after.identity = before.identity
  succeeded : after.status = .succeeded ↔ before.status = .succeeded
  result : after.resultSummary = before.resultSummary
  unreceipted : before.Unreceipted → after.Unreceipted

theorem RequestTask.SameReceipt.refl (row : RequestTask) :
    row.SameReceipt row :=
  ⟨rfl, Iff.rfl, rfl, fun unreceipted => unreceipted⟩

/-- A claimed row was waiting or had run out of its lease. -/
theorem RequestTask.sameReceipt_claim {row : RequestTask} {now : Time}
    (claimable : row.claimable now = true) (workerId : String)
    (leaseUntil : Time) : row.SameReceipt (row.claim workerId leaseUntil) := by
  refine ⟨rfl, ?_, rfl, ?_⟩
  · rcases RequestTask.claimable_iff.mp claimable with pending | ⟨running, _⟩
    · simp [pending]
    · simp [running]
  · intro unreceipted
    rcases RequestTask.claimable_iff.mp claimable with
      pending | ⟨running, expiry, leased, _⟩
    · simp [RequestTask.Unreceipted, pending] at unreceipted
    · simp [RequestTask.Unreceipted, running, leased] at unreceipted

theorem RequestTask.sameReceipt_extend {row : RequestTask}
    {workerId taskId : String} {leaseUntil : Time} :
    row.SameReceipt (Database.extendRow workerId taskId leaseUntil row) := by
  unfold Database.extendRow
  split
  next hit =>
    refine ⟨rfl, Iff.rfl, rfl, ?_⟩
    have leased := (Bool.and_eq_true _ _ ▸ hit).2
    obtain ⟨running, owned⟩ := RequestTask.leasedBy_iff.mp leased
    intro unreceipted
    simp [RequestTask.Unreceipted, running, owned] at unreceipted
  next => exact .refl row

/-- Scopes are made of columns that never change. -/
theorem RequestTask.scope_eq {task row : RequestTask}
    {request owner : PrivacyRequest} (tasks : task.identity = row.identity)
    (requests : request.identity = owner.identity) :
    task.scope request = row.scope owner := by
  simp only [RequestTask.identity, PrivacyRequest.identity,
    Prod.mk.injEq] at tasks requests
  simp [RequestTask.scope, tasks, requests]

theorem Database.deletes_iff {database : Database}
    (formed : database.WellFormed) {scope : Scope} {task : RequestTask}
    {owner : PrivacyRequest}
    (found : database.request task.requestId = some owner) :
    database.deletes scope task = true ↔
      owner.kind = .delete ∧ task.scope owner = scope := by
  obtain ⟨member, key⟩ := Database.request_mem found
  unfold Database.deletes
  rw [List.any_eq_true]
  constructor
  · rintro ⟨request, inTable, hit⟩
    obtain ⟨same, kind, inScope⟩ := of_decide_eq_true hit
    have isOwner : request = owner :=
      formed.requestIds.eq_of_mem inTable member (same.trans key.symm)
    exact isOwner ▸ ⟨kind, inScope⟩
  · rintro ⟨kind, inScope⟩
    exact ⟨owner, member, decide_eq_true ⟨key, kind, inScope⟩⟩

theorem Database.Revises.deletes_eq {before after : Database}
    {task : RequestTask → RequestTask}
    {request : PrivacyRequest → PrivacyRequest}
    (revises : Database.Revises before after task request)
    (requests : ∀ row, (request row).identity = row.identity)
    {row current : RequestTask} (tasks : current.identity = row.identity)
    (scope : Scope) :
    after.deletes scope current = before.deletes scope row := by
  unfold Database.deletes
  rw [revises.requests, List.any_map]
  congr 1
  funext owner
  have same := requests owner
  rw [Function.comp_apply, RequestTask.scope_eq tasks same]
  simp only [RequestTask.identity, PrivacyRequest.identity,
    Prod.mk.injEq] at tasks same
  simp [tasks, same]

/-- The receipt of a task in a scope. -/
def Database.receipt (database : Database) (scope : Scope)
    (task : RequestTask) : Int :=
  if database.deletes scope task && decide (task.status = .succeeded) then
    deletedCount task.resultSummary
  else 0

theorem Database.receipts_eq (database : Database) (scope : Scope) :
    database.receipts scope =
      (database.tasks.map (database.receipt scope)).sum :=
  Table.sum_map_filter _ _ _

theorem Database.Revises.receipt_eq {before after : Database}
    {task : RequestTask → RequestTask}
    {request : PrivacyRequest → PrivacyRequest}
    (revises : Database.Revises before after task request)
    (requests : ∀ row, (request row).identity = row.identity)
    {row current : RequestTask} (same : row.SameReceipt current)
    (scope : Scope) :
    after.receipt scope current = before.receipt scope row := by
  unfold Database.receipt
  rw [revises.deletes_eq requests same.identity]
  simp only [same.succeeded, same.result]

namespace CountedOnce

variable {markings : List Marking} {before after : Database}
  {deployment : Deployment} {state next : State}

/-- No outcome is recorded. -/
theorem revise (counted : CountedOnce markings before)
    {task : RequestTask → RequestTask}
    {request : PrivacyRequest → PrivacyRequest}
    (revises : Database.Revises before after task request)
    (records : after.records = before.records)
    (requests : ∀ row, (request row).identity = row.identity)
    (tasks : ∀ row ∈ before.tasks, row.SameReceipt (task row)) :
    CountedOnce markings after := by
  refine ⟨counted.once, ?_, ?_, ?_⟩
  · rw [records]
    exact counted.kept
  · rw [records]
    exact counted.marked
  · intro scope receipted
    have rows : after.deletedRows scope = before.deletedRows scope := by
      unfold Database.deletedRows
      rw [records]
    have total : after.receipts scope = before.receipts scope := by
      rw [Database.receipts_eq, Database.receipts_eq, revises.tasks,
        List.map_map]
      apply congrArg
      apply List.map_congr_left
      intro row member
      exact revises.receipt_eq requests (tasks row member) scope
    rw [rows, total]
    apply counted.balanced scope
    intro row member deletes unreceipted
    apply receipted (task row)
    · rw [revises.tasks]
      exact List.mem_map.mpr ⟨row, member, rfl⟩
    · rw [revises.deletes_eq requests (tasks row member).identity]
      exact deletes
    · exact (tasks row member).unreceipted unreceipted

/-- New tasks wait, and have no receipt yet. -/
theorem insertRows (counted : CountedOnce markings before)
    (formed : before.WellFormed) {intake : Intake} {runtime : Runtime}
    (fresh : before.unused intake.drawnIds = true) :
    CountedOnce markings (intake.insertRows runtime before) := by
  have old : ∀ scope, ∀ row ∈ before.tasks,
      (intake.insertRows runtime before).deletes scope row =
        before.deletes scope row := by
    intro scope row member
    obtain ⟨owner, found⟩ := formed.owned row member
    obtain ⟨inTable, key⟩ := Database.request_mem found
    have foreign : (intake.request runtime).id ≠ row.requestId := by
      intro same
      apply (Database.unused_iff.mp fresh).2.1 owner inTable
      rw [key, ← same]
      exact intake.mem_drawnIds_zero
    unfold Database.deletes Intake.insertRows
    rw [List.any_append]
    simp [foreign]
  refine ⟨counted.once, counted.kept, counted.marked, ?_⟩
  intro scope receipted
  have added : (intake.tasks.map ((intake.insertRows runtime before).receipt
      scope)).sum = 0 := by
    apply List.sum_eq_zero
    intro value member
    obtain ⟨row, inBlock, rfl⟩ := List.mem_map.mp member
    obtain ⟨source, _, isTask⟩ := List.mem_map.mp inBlock
    rw [← isTask]
    simp [Database.receipt, Intake.task]
  have total : (intake.insertRows runtime before).receipts scope =
      before.receipts scope := by
    rw [Database.receipts_eq, Database.receipts_eq]
    have tasks : (intake.insertRows runtime before).tasks =
        before.tasks ++ intake.tasks := rfl
    rw [tasks, List.map_append, List.sum_append, added, add_zero]
    apply congrArg
    apply List.map_congr_left
    intro row member
    unfold Database.receipt
    rw [old scope row member]
  rw [total]
  apply counted.balanced scope
  intro row member deletes
  apply receipted row (List.mem_append_left _ member)
  rw [old scope row member]
  exact deletes

/-- New records are active. -/
theorem seeded (counted : CountedOnce markings before)
    {rows : List DeviceCloudRecord} (active : ∀ row ∈ rows,
      row.deletedAt = none) :
    CountedOnce markings { before with records := before.records ++ rows } := by
  refine ⟨counted.once, ?_, ?_, ?_⟩
  · intro marking member id inIds
    obtain ⟨record, present, rest⟩ := counted.kept marking member id inIds
    exact ⟨record, List.mem_append_left _ present, rest⟩
  · intro record present deleted
    rcases List.mem_append.mp present with old | new
    · exact counted.marked record old deleted
    · exact absurd (active record new) deleted
  · intro scope receipted
    have none : rows.countP (fun record =>
        decide (record.scope = scope ∧ record.deletedAt ≠ none)) = 0 := by
      rw [List.countP_eq_zero]
      intro record member
      simp [active record member]
    have same : Database.deletedRows
        { before with records := before.records ++ rows } scope =
        before.deletedRows scope := by
      unfold Database.deletedRows
      rw [List.countP_append, none, Nat.add_zero]
    rw [same]
    exact counted.balanced scope receipted

/-- Actions other than the commit of an outcome. -/
theorem effect (counted : CountedOnce markings state.database)
    (formed : state.database.WellFormed) {action : Action}
    (effect : Effect deployment state action next)
    (unrecorded : ∀ index now, action ≠ .recordTask index now) :
    CountedOnce markings next.database := by
  have records := effect.records unrecorded
  have claimed : ∀ {now : Time} {taskIds : List String} (workerId : String)
      (leaseUntil : Time), state.database.Claims now taskIds →
      ∀ row ∈ state.database.tasks,
        row.SameReceipt (Database.claimRow taskIds workerId leaseUntil row) := by
    intro now taskIds workerId leaseUntil claims row member
    unfold Database.claimRow
    split
    next taken =>
      obtain ⟨other, inTable, same, claimable⟩ :=
        claims.claimable row.id (of_decide_eq_true taken)
      have isRow : other = row := formed.taskIds.eq_of_mem inTable member same
      exact RequestTask.sameReceipt_claim (isRow ▸ claimable) workerId
        leaseUntil
    next => exact .refl row
  cases effect with
  | created intake nodup fresh absent => exact counted.insertRows formed fresh
  | relayed | opened | moved | selected | locked | acked =>
      exact counted.revise (Database.revises_refl _ _) records (fun _ => rfl)
        (fun row _ => .refl row)
  | messageClaimed index call taskId now found phase claims
  | batchClaimed arguments session taskIds same claims =>
      exact counted.revise (Database.markClaimed_revises ..) records
        (fun row => (Database.startRow_keeps _ _ row).identity)
        (claimed _ _ claims)
  | recorded index call taskId work task request now =>
      exact absurd rfl (unrecorded index now)
  | refreshed =>
      exact counted.revise (Database.commitRefresh_revises ..) records
        (Database.refreshRow_identity _ _ _ _) (fun row _ => .refl row)
  | extended =>
      exact counted.revise (Database.extendTaskLease_revises ..) records
        (fun _ => rfl) (fun row _ => RequestTask.sameReceipt_extend)

end CountedOnce

/-! ## The commit of a deletion -/

/-- What an execution commits: the row of its task, and marks on active records
of its scope. -/
structure Database.Receives (before after : Database) (row current : RequestTask)
    (chosen : List DeviceCloudRecord) (deletedAt : Time) : Prop where
  member : row ∈ before.tasks
  running : row.status ≠ .succeeded ∧ ¬ row.Unreceipted
  revises : ∃ task request, Database.Revises before after task request ∧
    (∀ other, (request other).identity = other.identity) ∧
    task row = current ∧
    ∀ other ∈ before.tasks, other.id ≠ row.id → task other = other
  identity : current.identity = row.identity
  records : after.records =
    markDeleted (chosen.map DeviceCloudRecord.id) deletedAt before.records
  distinct : Table.KeyUnique DeviceCloudRecord.id chosen
  active : ∀ record ∈ chosen, record ∈ before.records ∧
    record.deletedAt = none ∧ before.deletes record.scope row = true
  receipt : ∀ scope, before.deletes scope row = true →
    ¬ current.Unreceipted → current.status = .succeeded ∧
      deletedCount current.resultSummary = chosen.length ∧
      ∀ record ∈ chosen, record.scope = scope

namespace Database.Receives

variable {before after : Database} {row current : RequestTask}
  {chosen : List DeviceCloudRecord} {deletedAt : Time}

/-- The chosen records enter the deleted rows of their scope. -/
theorem deletedRows_own
    (receives : before.Receives after row current chosen deletedAt)
    (recordIds : Table.KeyUnique DeviceCloudRecord.id before.records)
    {scope : Scope} (inScope : ∀ record ∈ chosen, record.scope = scope) :
    after.deletedRows scope = before.deletedRows scope + chosen.length := by
  have isChosen : ∀ record ∈ before.records,
      decide (record.id ∈ chosen.map DeviceCloudRecord.id) = true →
      record ∈ chosen := by
    intro record member hit
    obtain ⟨other, inChosen, same⟩ := List.mem_map.mp (of_decide_eq_true hit)
    rw [← recordIds.eq_of_mem (receives.active other inChosen).1 member same]
    exact inChosen
  unfold Database.deletedRows
  rw [receives.records, markDeleted, Table.countP_updateWhere,
    recordIds.countP_mem_keys receives.distinct
      (fun record member => (receives.active record member).1)]
  · intro record member hit
    have active := (receives.active record (isChosen record member hit)).2.1
    simp [active]
  · intro record member hit
    have same := inScope record (isChosen record member hit)
    simpa [DeviceCloudRecord.scope] using same

/-- Other scopes are left alone. -/
theorem deletedRows_foreign
    (receives : before.Receives after row current chosen deletedAt)
    (recordIds : Table.KeyUnique DeviceCloudRecord.id before.records)
    {scope : Scope} (foreign : before.deletes scope row ≠ true) :
    after.deletedRows scope = before.deletedRows scope := by
  unfold Database.deletedRows
  rw [receives.records, markDeleted]
  apply Table.countP_updateWhere_of_kept
  intro record member hit
  obtain ⟨other, inChosen, same⟩ := List.mem_map.mp (of_decide_eq_true hit)
  obtain ⟨present, _, owned⟩ := receives.active other inChosen
  have isRecord := recordIds.eq_of_mem present member same
  have outside : record.scope ≠ scope := by
    intro inScope
    apply foreign
    rw [← inScope, ← isRecord]
    exact owned
  have still : DeviceCloudRecord.scope
      { record with deletedAt := some deletedAt } = record.scope := rfl
  simp [still, outside]

theorem receipts_eq
    (receives : before.Receives after row current chosen deletedAt)
    (formed : before.WellFormed) (scope : Scope) :
    after.receipts scope = before.receipts scope +
      after.receipt scope current := by
  obtain ⟨task, request, revises, requests, isCurrent, others⟩ :=
    receives.revises
  have nothing : before.receipt scope row = 0 := by
    simp [Database.receipt, receives.running.1]
  have change := formed.taskIds.sum_map_change (before.receipt scope)
    (fun other => after.receipt scope (task other)) receives.member (by
      intro other member different
      rw [others other member different]
      exact revises.receipt_eq requests (.refl other) scope)
  rw [nothing, add_zero, isCurrent] at change
  rw [Database.receipts_eq, Database.receipts_eq, revises.tasks, List.map_map]
  exact change

theorem balanced
    (receives : before.Receives after row current chosen deletedAt)
    (formed : before.WellFormed)
    (recordIds : Table.KeyUnique DeviceCloudRecord.id before.records)
    {markings : List Marking} (counted : CountedOnce markings before)
    (scope : Scope) (receipted : ∀ task ∈ after.tasks,
      after.deletes scope task = true → ¬ task.Unreceipted) :
    (after.deletedRows scope : Int) = after.receipts scope := by
  obtain ⟨task, request, revises, requests, isCurrent, others⟩ :=
    receives.revises
  have owned : after.deletes scope current = before.deletes scope row :=
    revises.deletes_eq requests receives.identity scope
  have earlier : (before.deletedRows scope : Int) = before.receipts scope := by
    apply counted.balanced scope
    intro other member deletes
    by_cases same : other.id = row.id
    · rw [formed.taskIds.eq_of_mem member receives.member same]
      exact receives.running.2
    · apply receipted other
      · rw [revises.tasks]
        exact List.mem_map.mpr ⟨other, member, others other member same⟩
      · rw [revises.deletes_eq requests (rfl : other.identity = other.identity)]
        exact deletes
  rw [receives.receipts_eq formed]
  by_cases own : before.deletes scope row = true
  · have finished : ¬ current.Unreceipted := by
      apply receipted current
      · rw [revises.tasks]
        exact List.mem_map.mpr ⟨row, receives.member, isCurrent⟩
      · rw [owned]
        exact own
    obtain ⟨succeeded, count, inScope⟩ := receives.receipt scope own finished
    have receipt : after.receipt scope current = chosen.length := by
      simp [Database.receipt, owned, own, succeeded, count]
    rw [receives.deletedRows_own recordIds inScope, receipt, ← earlier]
    exact Nat.cast_add _ _
  · have receipt : after.receipt scope current = 0 := by
      simp [Database.receipt, owned, own]
    rw [receives.deletedRows_foreign recordIds own, receipt, add_zero]
    exact earlier

/-- Records outside the chosen ones stay as they are. -/
theorem keeps_record
    (receives : before.Receives after row current chosen deletedAt)
    {record : DeviceCloudRecord} (member : record ∈ before.records)
    (outside : record.id ∉ chosen.map DeviceCloudRecord.id) :
    record ∈ after.records := by
  rw [receives.records]
  exact Table.mem_updateWhere.mpr ⟨record, member, by simp [outside]⟩

theorem counted
    (receives : before.Receives after row current chosen deletedAt)
    (formed : before.WellFormed)
    (recordIds : Table.KeyUnique DeviceCloudRecord.id before.records)
    {markings : List Marking} (counted : CountedOnce markings before)
    (taskId : String) :
    CountedOnce (markings ++
      [{ taskId, ids := chosen.map DeviceCloudRecord.id, deletedAt }])
      after := by
  -- What was marked earlier is no longer active.
  have unmarked : ∀ marking ∈ markings, ∀ id ∈ marking.ids,
      id ∉ chosen.map DeviceCloudRecord.id := by
    intro marking member id inIds inChosen
    obtain ⟨record, present, same, marked⟩ :=
      counted.kept marking member id inIds
    obtain ⟨other, otherChosen, otherId⟩ := List.mem_map.mp inChosen
    obtain ⟨otherPresent, active, _⟩ := receives.active other otherChosen
    rw [recordIds.eq_of_mem otherPresent present (otherId.trans same.symm),
      marked] at active
    cases active
  refine ⟨?_, ?_, ?_, receives.balanced formed recordIds counted⟩
  · rw [List.flatMap_append]
    apply List.Nodup.append counted.once
    · rw [List.flatMap_singleton]
      exact receives.distinct
    · intro id earlier now
      obtain ⟨marking, member, inIds⟩ := List.mem_flatMap.mp earlier
      exact unmarked marking member id inIds (by simpa using now)
  · intro marking member id inIds
    rcases List.mem_append.mp member with old | new
    · obtain ⟨record, present, same, marked⟩ :=
        counted.kept marking old id inIds
      refine ⟨record, receives.keeps_record present ?_, same, marked⟩
      rw [same]
      exact unmarked marking old id inIds
    · rw [List.mem_singleton.mp new] at inIds ⊢
      obtain ⟨record, inChosen, same⟩ := List.mem_map.mp inIds
      refine ⟨{ record with deletedAt := some deletedAt }, ?_, same, rfl⟩
      rw [receives.records]
      refine Table.mem_updateWhere.mpr
        ⟨record, (receives.active record inChosen).1, ?_⟩
      exact if_pos (decide_eq_true (List.mem_map.mpr
        ⟨record, inChosen, rfl⟩))
  · intro record present deleted
    rw [receives.records] at present
    obtain ⟨old, oldMember, rfl⟩ := Table.mem_updateWhere.mp present
    by_cases hit : old.id ∈ chosen.map DeviceCloudRecord.id
    · refine ⟨_, List.mem_append_right _ (List.mem_singleton.mpr rfl), ?_⟩
      rw [if_pos (decide_eq_true hit)]
      exact hit
    · rw [if_neg (by simpa using hit)] at deleted ⊢
      obtain ⟨marking, member, inIds⟩ := counted.marked old oldMember deleted
      exact ⟨marking, List.mem_append_left _ member, inIds⟩

end Database.Receives

/-! ## The invariant -/

/-- The finished work of a call is that of its open deletion, or it marked
nothing and is not the success of a deletion. -/
def Work.Accounted (work : Work) (call : Call) (taskId : String)
    (deletion : Option Deletion) : Prop :=
  (work.deleted = [] ∧ ∀ payload, work.ending = .returned payload →
      ∀ task request, ¬ call.Deletes taskId task request) ∨
    ∃ current, deletion = some current ∧ work.deleted = current.ids ∧
      ∀ payload, work.ending = .returned payload →
        payload = deleteResult current.rows

/-- An open deletion has selected active records of its task's scope. -/
structure Deletion.Selects (deletion : Deletion) (control : State)
    (index : Nat) : Prop where
  distinct : Table.KeyUnique DeviceCloudRecord.id deletion.rows
  deleter : ∃ call taskId task request,
    control.calls[index]? = some call ∧ call.Deletes taskId task request ∧
    ∀ record ∈ deletion.rows, record ∈ control.database.records ∧
      record.deletedAt = none ∧ record.scope = task.scope request

structure Deleting (past : List Marking) (state : DeletionState) : Prop where
  grounded : state.control.Grounded
  holding : Holding state.control
  executing : Executing state.control
  executors : ∀ call ∈ state.control.calls, call.executor = false
  recordIds : Table.KeyUnique DeviceCloudRecord.id
    state.control.database.records
  selects : ∀ index deletion, state.deletions index = some deletion →
    deletion.Selects state.control index
  apart : ∀ first second left right, state.deletions first = some left →
    state.deletions second = some right → ∀ id ∈ left.ids, id ∈ right.ids →
    first = second
  worked : ∀ (index : Nat) (call : Call) (taskId : String) (work : Work),
    state.control.calls[index]? = some call →
    call.phase = .worked taskId work →
    work.Accounted call taskId (state.deletions index)
  counted : CountedOnce past state.control.database

/-- Executors come with deliveries only. -/
theorem Effect.executors {deployment : Deployment} {state next : State}
    {action : Action} (effect : Effect deployment state action next)
    (without : ∀ workerId message, action ≠ .deliver workerId message true)
    (before : ∀ call ∈ state.calls, call.executor = false) :
    ∀ call ∈ next.calls, call.executor = false := by
  intro call member
  cases effect with
  | created | relayed | extended => exact before call member
  | opened workerId message executor =>
      rcases State.mem_append_call member with new | old
      · rw [new]
        cases executor with
        | false => rfl
        | true => exact absurd rfl (without workerId message)
      · exact before call old
  | batchClaimed =>
      rcases State.mem_append_call member with new | old
      · rw [new]
      · exact before call old
  | moved action index old after artifacts found move =>
      rcases State.mem_put member with new | kept
      · rw [new]
        have same : after.executor = old.executor := by
          cases move <;> rfl
        rw [same]
        exact before old (List.mem_of_getElem? found)
      · exact before call kept
  | recorded index old taskId work task request now found =>
      rcases State.mem_put member with new | kept
      · rw [new, Call.afterRecord_executor]
        exact before old (List.mem_of_getElem? found)
      · exact before call kept
  | messageClaimed index old _ _ found
  | selected index old _ _ _ found
  | locked index old _ _ _ found
  | refreshed index old _ _ _ _ _ _ found
  | acked index old _ _ found =>
      rcases State.mem_put member with new | kept
      · rw [new]
        exact before old (List.mem_of_getElem? found)
      · exact before call kept

namespace Deleting

variable {deployment : Deployment} {past : List Marking}
  {state : DeletionState} {control : State}

/-- The rows of a deletion's task and request. -/
theorem rows_of_deleter (deleting : Deleting past state) {index : Nat}
    {call : Call} (found : state.control.calls[index]? = some call)
    {taskId : String} {task : RequestTask} {request : PrivacyRequest}
    (held : call.session.task taskId = some task)
    (requestHeld : call.session.request task.requestId = some request) :
    ∃ row owner, state.control.database.task taskId = some row ∧
      state.control.database.request row.requestId = some owner ∧
      task.identity = row.identity ∧ request.identity = owner.identity := by
  have member := List.mem_of_getElem? found
  obtain ⟨row, rowFound, identity⟩ :=
    (deleting.grounded.copies call member).task taskId task held
  obtain ⟨owner, ownerFound, _, shows⟩ :=
    deleting.grounded.request_of_copy member requestHeld
  have requestId : task.requestId = row.requestId :=
    congrArg (fun columns => columns.2.1) identity
  exact ⟨row, owner, rowFound, requestId ▸ ownerFound, identity, shows.1⟩

/-- The statements of a deletion change nothing but its progress. -/
theorem progress (deleting : Deleting past state) {index : Nat}
    {deleter : Deleter}
    (located : state.control.deleting index = some deleter)
    {deletion : Deletion} (selects : deletion.Selects state.control index)
    (apart : ∀ other held, other ≠ index → state.deletions other = some held →
      ∀ id ∈ held.ids, id ∉ deletion.ids) :
    Deleting past (state.assign index (some deletion)) := by
  have lookup : ∀ {slot : Nat} {held : Deletion},
      (state.assign index (some deletion)).deletions slot = some held →
      slot = index ∧ held = deletion ∨
        slot ≠ index ∧ state.deletions slot = some held := by
    intro slot held assigned
    simp only [DeletionState.assign] at assigned
    split at assigned
    next same => exact .inl ⟨same, (Option.some.inj assigned).symm⟩
    next different => exact .inr ⟨different, assigned⟩
  refine ⟨deleting.grounded, deleting.holding, deleting.executing,
    deleting.executors, deleting.recordIds, ?_, ?_, ?_, deleting.counted⟩
  · intro slot held assigned
    rcases lookup assigned with ⟨rfl, rfl⟩ | ⟨_, old⟩
    · exact selects
    · exact deleting.selects slot held old
  · intro first second left right isLeft isRight id inLeft inRight
    rcases lookup isLeft with ⟨rfl, rfl⟩ | ⟨notFirst, oldLeft⟩
    · rcases lookup isRight with ⟨isSecond, _⟩ | ⟨notSecond, oldRight⟩
      · exact isSecond.symm
      · exact absurd inLeft (apart second right notSecond oldRight id inRight)
    · rcases lookup isRight with ⟨_, rfl⟩ | ⟨_, oldRight⟩
      · exact absurd inRight (apart first left notFirst oldLeft id inLeft)
      · exact deleting.apart first second left right oldLeft oldRight id inLeft
          inRight
  · intro slot call taskId work found phase
    have different : slot ≠ index := by
      rintro rfl
      obtain ⟨deleterFound, working, _⟩ := State.deleting_eq_some located
      have same := found.symm.trans deleterFound
      cases same
      rw [working] at phase
      cases phase
    simp only [DeletionState.assign, if_neg different]
    exact deleting.worked slot call taskId work found phase

/-- A deletion selects the active records of its scope. -/
theorem selected (deleting : Deleting past state) {index : Nat}
    {next : DeletionState}
    (apart : SelectsApart state (.selectRecords index))
    (stepped : selectRecordsStep state index = some next) :
    Deleting past next := by
  simp only [selectRecordsStep, Option.bind_eq_bind,
    Option.bind_eq_some_iff] at stepped
  obtain ⟨deleter, located, stepped⟩ := stepped
  split at stepped
  next => cases stepped
  next unselected =>
    cases stepped
    obtain ⟨found, _, deletes⟩ := State.deleting_eq_some located
    apply deleting.progress located
    · refine ⟨deleting.recordIds.filter _, deleter.call, deleter.taskId,
        deleter.task, deleter.request, found, deletes, ?_⟩
      intro record member
      obtain ⟨present, matching⟩ := List.mem_filter.mp member
      obtain ⟨tenant, subject, source, active⟩ := of_decide_eq_true matching
      refine ⟨present, active, ?_⟩
      simp [DeviceCloudRecord.scope, RequestTask.scope, tenant, subject, source]
    · intro other held different isHeld id inHeld
      obtain ⟨_, _, _, _, otherFound, _⟩ :=
        (deleting.selects other held isHeld).deleter
      have bound : other < state.control.calls.length :=
        (List.getElem?_eq_some_iff.mp otherFound).1
      exact apart deleter located other (List.mem_range.mpr bound) different
        held isHeld id inHeld

theorem updated (deleting : Deleting past state) {index : Nat} {now : Time}
    {next : DeletionState}
    (stepped : updateRecordsStep state index now = some next) :
    Deleting past next := by
  simp only [updateRecordsStep, Option.bind_eq_bind,
    Option.bind_eq_some_iff] at stepped
  obtain ⟨deleter, located, deletion, isOpen, stepped⟩ := stepped
  split at stepped
  next =>
    cases stepped
    have selects := deleting.selects index deletion isOpen
    apply deleting.progress located
    · exact ⟨selects.distinct, selects.deleter⟩
    · intro other held different isHeld id inHeld inDeletion
      exact different (deleting.apart other index held deletion isHeld isOpen id
        inHeld inDeletion)
  next => cases stepped

/-- `seed_records` adds active records. -/
theorem seeded (deleting : Deleting past state)
    {tenantId subjectKey : String} {recordsPerSource : Nat} {fresh : Fresh}
    {next : DeletionState}
    (stepped : seedStep deployment state tenantId subjectKey recordsPerSource
      fresh = some next) : Deleting past next := by
  simp only [seedStep] at stepped
  split at stepped
  next guards =>
    cases stepped
    simp only [Bool.and_eq_true, decide_eq_true_eq, List.all_eq_true] at guards
    obtain ⟨distinct, unused⟩ := guards
    have grounded := deleting.grounded
    refine ⟨⟨⟨⟨grounded.tidy.tables.taskIds, grounded.tidy.tables.requestIds,
        grounded.tidy.tables.owned, grounded.tidy.tables.named⟩,
        grounded.tidy.keyed⟩, ?_, grounded.paths⟩,
      ⟨?_, deleting.holding.exclusive⟩, deleting.executing, deleting.executors,
      ?_, ?_, deleting.apart, deleting.worked, ?_⟩
    · intro call member
      obtain ⟨tasks, requests⟩ := grounded.copies call member
      exact ⟨tasks, requests⟩
    · intro call member
      obtain ⟨nodup, rows⟩ := deleting.holding.leases call member
      exact ⟨nodup, rows⟩
    · apply deleting.recordIds.append distinct
      intro old present new added same
      apply unused old present
      exact List.mem_map.mpr ⟨new, added, same.symm⟩
    · intro index deletion isOpen
      obtain ⟨rowIds, call, taskId, task, request, found, deletes, rows⟩ :=
        deleting.selects index deletion isOpen
      refine ⟨rowIds, call, taskId, task, request, found, deletes, ?_⟩
      intro record member
      obtain ⟨present, rest⟩ := rows record member
      exact ⟨List.mem_append_left _ present, rest⟩
    · apply deleting.counted.seeded
      intro record member
      obtain ⟨_, _, rfl⟩ := List.mem_map.mp member
      rfl
  next => cases stepped

/-- An open deletion, after an action that does not end it. -/
theorem selects_step (deleting : Deleting past state) {action : Action}
    (effect : Effect deployment state.control action control) {index : Nat}
    {deletion : Deletion} (isOpen : state.deletions index = some deletion)
    (goes : action.ends ≠ some index)
    (records : ∀ record ∈ deletion.rows,
      record ∈ state.control.database.records →
      record ∈ control.database.records) :
    deletion.Selects control index := by
  obtain ⟨distinct, call, taskId, task, request, found, deletes, rows⟩ :=
    deleting.selects index deletion isOpen
  obtain ⟨after, afterFound, busy, session⟩ :=
    effect.keeps_working found deletes.busy goes
  refine ⟨distinct, after, taskId, task, request, afterFound,
    ⟨busy, ?_, ?_, deletes.kind⟩, ?_⟩
  · rw [session]
    exact deletes.held
  · rw [session]
    exact deletes.requestHeld
  · intro record member
    obtain ⟨present, active, inScope⟩ := rows record member
    exact ⟨records record member present, active, inScope⟩

/-- An action of the control plane; `deletions` are those that go on. -/
theorem carry {next : List Marking} (deleting : Deleting past state)
    {action : Action}
    (effect : Effect deployment state.control action control)
    (live : LeasesLive state.control action)
    (without : ∀ workerId message, action ≠ .deliver workerId message true)
    (recordIds : Table.KeyUnique DeviceCloudRecord.id
      control.database.records)
    (records : ∀ index deletion, state.deletions index = some deletion →
      action.ends ≠ some index → ∀ record ∈ deletion.rows,
      record ∈ state.control.database.records →
      record ∈ control.database.records)
    (finished : ∀ slot work call taskId, action = .work slot work →
      state.control.calls[slot]? = some call →
      call.phase = .working taskId →
      work.Accounted { call with phase := .worked taskId work } taskId
        (state.deletions slot))
    (counted : CountedOnce next control.database) :
    Deleting next
      { control
        deletions := fun slot =>
          if action.ends = some slot then none else state.deletions slot } := by
  have lookup : ∀ {slot : Nat} {held : Deletion},
      (if action.ends = some slot then none else state.deletions slot) =
        some held →
      action.ends ≠ some slot ∧ state.deletions slot = some held := by
    intro slot held isOpen
    split at isOpen
    next => cases isOpen
    next goes => exact ⟨goes, isOpen⟩
  refine ⟨deleting.grounded.effect effect,
    deleting.holding.effect deleting.grounded.tidy live effect,
    deleting.executing.effect deleting.holding deleting.grounded.tidy live
      effect,
    effect.executors without deleting.executors, recordIds, ?_, ?_, ?_,
    counted⟩
  · intro index deletion isOpen
    obtain ⟨goes, held⟩ := lookup isOpen
    exact deleting.selects_step effect held goes
      (records index deletion held goes)
  · intro first second left right isLeft isRight
    exact deleting.apart first second left right (lookup isLeft).2
      (lookup isRight).2
  · intro slot call taskId work located phase
    have busy : call.current = some taskId := by
      simp [Call.current, phase]
    have goes : action.ends ≠ some slot := by
      intro ends
      rw [effect.ended ends located] at busy
      cases busy
    dsimp only
    rw [if_neg goes]
    rcases effect.working located busy with
      kept | ⟨_, _, _, _, _, _, _, _, _, _, rfl⟩ |
      ⟨old, done, isWork, found, working, rfl⟩
    · exact deleting.worked slot call taskId work kept phase
    · cases phase
    · cases phase
      exact finished slot work old taskId isWork found working

/-- The last statement of a deletion, or its interruption. -/
theorem finish (deleting : Deleting past state) {index : Nat}
    {deleter : Deleter}
    (located : state.control.deleting index = some deleter) {work : Work}
    (accounted : work.Accounted
      { deleter.call with phase := .worked deleter.taskId work }
      deleter.taskId (state.deletions index)) :
    Deleting past (state.finish index deleter work) := by
  obtain ⟨found, phase, _⟩ := State.deleting_eq_some located
  have effect : Effect demoDeployment state.control (.work index work)
      (state.control.put index
        { deleter.call with phase := .worked deleter.taskId work }) :=
    .moved (.work index work) index deleter.call _ state.control.artifacts
      found (.worked deleter.taskId work phase)
  have live : LeasesLive state.control (.work index work) := by
    intro now isClock
    cases isClock
  refine deleting.carry effect live ?_ deleting.recordIds ?_ ?_ ?_
  · intro workerId message isDelivery
    cases isDelivery
  · intro other deletion _ _ record _ present
    exact present
  · intro slot done call taskId isWork slotFound working
    cases isWork
    have same := slotFound.symm.trans found
    cases same
    rw [phase] at working
    cases working
    exact accounted
  · apply deleting.counted.effect deleting.grounded.tidy.tables effect
    intro other now isRecord
    cases isRecord

/-- Work that is no deletion marks nothing. -/
theorem accessed (deleting : Deleting past state) {index : Nat} {work : Work}
    (stepped : FleetPrivacy.step deployment state.control (.work index work) =
      some control)
    (admitted : state.admits (.work index work) = true) {call : Call}
    {taskId : String} (found : state.control.calls[index]? = some call)
    (phase : call.phase = .working taskId) :
    work.Accounted { call with phase := .worked taskId work } taskId
      (state.deletions index) := by
  obtain ⟨other, otherId, task, request, otherFound, working, held,
    requestHeld, admissible⟩ := work_of_step stepped
  have same := otherFound.symm.trans found
  cases same
  rw [phase] at working
  cases working
  have executor := deleting.executors call (List.mem_of_getElem? found)
  have access : request.kind = .access := by
    cases kind : request.kind with
    | access => rfl
    | delete =>
        have located : state.control.deleting index =
            some { call, taskId, task, request } := by
          simp [State.deleting, found, phase, held, requestHeld, kind, executor]
        simp [DeletionState.admits, located] at admitted
  refine .inl ⟨?_, ?_⟩
  · simp only [Work.admissible, executor, access] at admissible
    cases ending : work.ending with
    | returned payload =>
        simp only [ending, Bool.false_eq_true, if_false, Bool.and_eq_true,
          decide_eq_true_eq] at admissible
        exact admissible.1
    | raised message => simpa [ending] using admissible
    | cancelled => simpa [ending] using admissible
  · intro payload _ copy owner deletes
    have sameTask := deletes.held.symm.trans held
    cases sameTask
    have sameRequest := deletes.requestHeld.symm.trans requestHeld
    cases sameRequest
    rw [deletes.kind] at access
    cases access

/-- The records that an execution has marked when it commits. -/
theorem marks_of_worked (deleting : Deleting past state) {index : Nat}
    {call : Call} {taskId : String} {work : Work} {task : RequestTask}
    {request : PrivacyRequest}
    (found : state.control.calls[index]? = some call)
    (phase : call.phase = .worked taskId work)
    (held : call.session.task taskId = some task)
    (requestHeld : call.session.request task.requestId = some request) :
    ∃ chosen, work.deleted = chosen.map DeviceCloudRecord.id ∧
      Table.KeyUnique DeviceCloudRecord.id chosen ∧
      (∀ record ∈ chosen, record ∈ state.control.database.records ∧
        record.deletedAt = none ∧ request.kind = .delete ∧
        record.scope = task.scope request) ∧
      ∀ payload, work.ending = .returned payload → request.kind = .delete →
        payload = deleteResult chosen := by
  have busy : call.current = some taskId := by
    simp [Call.current, phase]
  rcases deleting.worked index call taskId work found phase with
    ⟨nothing, unsuccessful⟩ | ⟨deletion, isOpen, ids, result⟩
  · refine ⟨[], nothing, List.nodup_nil, ?_, ?_⟩
    · intro record inNone
      cases inNone
    · intro payload ended kind
      exact absurd ⟨busy, held, requestHeld, kind⟩
        (unsuccessful payload ended task request)
  · obtain ⟨rowIds, other, otherId, copy, owned, otherFound, deletes, rows⟩ :=
      deleting.selects index deletion isOpen
    have same := otherFound.symm.trans found
    cases same
    have sameId := deletes.busy.symm.trans busy
    cases sameId
    have sameTask := deletes.held.symm.trans held
    cases sameTask
    have sameRequest := deletes.requestHeld.symm.trans requestHeld
    cases sameRequest
    refine ⟨deletion.rows, ids, rowIds, ?_, fun payload ended _ =>
      result payload ended⟩
    intro record inRows
    obtain ⟨present, isActive, inScope⟩ := rows record inRows
    exact ⟨present, isActive, deletes.kind, inScope⟩

theorem receives (deleting : Deleting past state) {index : Nat} {call : Call}
    {taskId : String} {work : Work} {task : RequestTask}
    {request : PrivacyRequest}
    (found : state.control.calls[index]? = some call)
    (phase : call.phase = .worked taskId work)
    (held : call.session.task taskId = some task)
    (requestHeld : call.session.request task.requestId = some request)
    (deployment : Deployment) (now : Time) :
    ∃ row chosen, work.deleted = chosen.map DeviceCloudRecord.id ∧
      state.control.database.Receives
        (recordOutcome deployment.runtime deployment.settings call.executor work
          task request now state.control.database)
        row (row.settle deployment.settings call.executor work.ending) chosen
        work.deletedAt := by
  have member := List.mem_of_getElem? found
  have formed := deleting.grounded.tidy.tables
  have isTask := deleting.grounded.tidy.keyed call member taskId task held
  have executor := deleting.executors call member
  obtain ⟨row, owner, rowFound, ownerFound, tasks, requests⟩ :=
    deleting.rows_of_deleter found held requestHeld
  obtain ⟨rowMember, rowId⟩ := Database.task_mem rowFound
  have ownScope := RequestTask.scope_eq tasks requests
  have ownKind : request.kind = owner.kind :=
    congrArg (fun columns => columns.2.2.2.1) requests
  have leased := deleting.holding.leasedBy_of_recording deleting.grounded.tidy
    (by simp [State.recording, found, phase] :
      state.control.recording index = some (call, taskId, work))
    rowMember rowId
  obtain ⟨running, owned⟩ := RequestTask.leasedBy_iff.mp leased
  obtain ⟨chosen, marked, distinct, active, result⟩ :=
    deleting.marks_of_worked found phase held requestHeld
  refine ⟨row, chosen, marked, rowMember, ⟨?_, ?_⟩, ⟨_, _,
    Database.recordOutcome_revises .., fun other =>
      (Database.verifyRow_keeps request now other).identity,
    deleting.executing.recordRow_eq deleting.grounded.tidy _ found phase held
      rowFound, ?_⟩, ?_, ?_, distinct, ?_, ?_⟩
  · rw [running]
    intro same
    cases same
  · simp [RequestTask.Unreceipted, running, owned]
  · intro other _ different
    rw [rowId, ← isTask] at different
    exact Database.recordRow_of_ne different _ _ _
  · cases work.ending <;> rfl
  · rw [← marked]
    rfl
  · intro record inChosen
    obtain ⟨present, isActive, kind, inScope⟩ := active record inChosen
    refine ⟨present, isActive, ?_⟩
    rw [Database.deletes_iff formed ownerFound]
    exact ⟨ownKind ▸ kind, ownScope.symm.trans inScope.symm⟩
  · intro scope deletes receipted
    obtain ⟨kind, inScope⟩ :=
      (Database.deletes_iff formed ownerFound).mp deletes
    cases ending : work.ending with
    | returned payload =>
        refine ⟨rfl, ?_, ?_⟩
        · rw [result payload ending (ownKind.trans kind)]
          rfl
        · intro record inChosen
          rw [(active record inChosen).2.2.2, ownScope]
          exact inScope
    | raised message =>
        rw [ending] at receipted
        refine absurd (.inl ?_) receipted
        simp [RequestTask.settle, executor]
    | cancelled =>
        rw [ending] at receipted
        exact absurd (.inr ⟨running, rfl, rfl⟩) receipted

theorem recordTask (deleting : Deleting past state) {index : Nat} {now : Time}
    (live : LeasesLive state.control (.recordTask index now))
    (effect : Effect deployment state.control (.recordTask index now)
      control) :
    Deleting (past ++ observeMarkings state (.other (.recordTask index now)))
      { control
        deletions := fun slot =>
          if (Action.recordTask index now).ends = some slot then none
          else state.deletions slot } := by
  obtain ⟨call, taskId, work, task, request, found, phase, held, requestHeld,
    isNext⟩ := effect.of_recordTask
  have written : control.database = recordOutcome deployment.runtime
      deployment.settings call.executor work task request now
      state.control.database := by
    rw [isNext]
  obtain ⟨row, chosen, marked, receives⟩ :=
    deleting.receives found phase held requestHeld deployment now
  rw [← written] at receives
  have observed : observeMarkings state (.other (.recordTask index now)) =
      [{ taskId, ids := chosen.map DeviceCloudRecord.id
         deletedAt := work.deletedAt }] := by
    simp [observeMarkings, State.recording, found, phase, marked]
  rw [observed]
  refine deleting.carry effect live ?_ ?_ ?_ ?_
    (receives.counted deleting.grounded.tidy.tables deleting.recordIds
      deleting.counted taskId)
  · intro workerId message isDelivery
    cases isDelivery
  · rw [receives.records]
    exact deleting.recordIds.updateWhere fun _ => rfl
  · intro slot deletion isOpen goes record inRows present
    apply receives.keeps_record present
    intro inChosen
    rw [← marked] at inChosen
    rcases deleting.worked index call taskId work found phase with
      ⟨nothing, _⟩ | ⟨own, isOwn, ids, _⟩
    · rw [nothing] at inChosen
      cases inChosen
    · rw [ids] at inChosen
      apply goes
      exact congrArg some (deleting.apart index slot own deletion isOwn isOpen
        record.id inChosen (List.mem_map.mpr ⟨record, inRows, rfl⟩))
  · intro slot done other otherId isWork
    cases isWork

theorem step {action : DeletionAction} {next : DeletionState}
    (deleting : Deleting past state) (permitted : DeletionsApart state action)
    (stepped : deletionStep deployment state action = some next) :
    Deleting (past ++ observeMarkings state action) next := by
  obtain ⟨live, apart⟩ := permitted
  cases action with
  | selectRecords index =>
      change Deleting (past ++ []) next
      rw [List.append_nil]
      exact deleting.selected apart stepped
  | updateRecords index now =>
      change Deleting (past ++ []) next
      rw [List.append_nil]
      exact deleting.updated stepped
  | seed tenantId subjectKey recordsPerSource fresh =>
      change Deleting (past ++ []) next
      rw [List.append_nil]
      exact deleting.seeded stepped
  | countRecords index =>
      change Deleting (past ++ []) next
      rw [List.append_nil]
      simp only [deletionStep, countRecordsStep, Option.bind_eq_bind,
        Option.bind_eq_some_iff] at stepped
      obtain ⟨deleter, located, deletion, isOpen, deletedAt, _, stepped⟩ :=
        stepped
      cases stepped
      apply deleting.finish located
      refine .inr ⟨deletion, isOpen, rfl, ?_⟩
      intro payload ended
      simp only [deleteEnding] at ended
      split at ended
      next => exact (Ending.returned.inj ended).symm
      next => cases ended
  | interrupt index ending =>
      change Deleting (past ++ []) next
      rw [List.append_nil]
      simp only [deletionStep, interruptStep, Option.bind_eq_bind,
        Option.bind_eq_some_iff] at stepped
      obtain ⟨deleter, located, stepped⟩ := stepped
      split at stepped
      next => cases stepped
      next unreturned =>
        split at stepped
        next deletion deletedAt isMarked =>
          cases stepped
          obtain ⟨current, isOpen, marks⟩ :=
            Option.bind_eq_some_iff.mp isMarked
          obtain ⟨_, _, same⟩ := Option.map_eq_some_iff.mp marks
          cases same
          apply deleting.finish located
          refine .inr ⟨deletion, isOpen, rfl, ?_⟩
          intro payload ended
          exact absurd ended (unreturned payload)
        next =>
          cases stepped
          apply deleting.finish located
          refine .inl ⟨rfl, ?_⟩
          intro payload ended
          exact absurd ended (unreturned payload)
  | other action =>
      simp only [deletionStep, otherStep] at stepped
      split at stepped
      next admitted =>
        obtain ⟨control, moved, rfl⟩ := Option.map_eq_some_iff.mp stepped
        have effect := effect_of_step deleting.grounded.tidy.tables.taskIds moved
        by_cases record : ∃ index now, action = .recordTask index now
        · obtain ⟨index, now, rfl⟩ := record
          exact deleting.recordTask live effect
        · have unrecorded : ∀ index now, action ≠ .recordTask index now := by
            intro index now isRecord
            exact record ⟨index, now, isRecord⟩
          have nothing : observeMarkings state (.other action) = [] := by
            cases action with
            | recordTask index now => exact absurd rfl (unrecorded index now)
            | _ => rfl
          have records := effect.records unrecorded
          rw [nothing, List.append_nil]
          refine deleting.carry effect live ?_ ?_ ?_ ?_
            (deleting.counted.effect deleting.grounded.tidy.tables effect
              unrecorded)
          · rintro workerId message rfl
            cases admitted
          · rw [records]
            exact deleting.recordIds
          · intro index deletion _ _ record _ present
            rw [records]
            exact present
          · rintro slot work call taskId rfl found phase
            exact deleting.accessed moved admitted found phase
      next => cases stepped

end Deleting

theorem Deleting.initial : Deleting [] DeletionState.initial := by
  refine ⟨.initial, .initial, .initial, ?_, List.nodup_nil, ?_, ?_, ?_, ?_⟩
  · intro call member
    cases member
  · intro index deletion isOpen
    cases isOpen
  · intro first second left right isOpen
    cases isOpen
  · intro index call taskId work found
    cases found
  · refine ⟨List.nodup_nil, ?_, ?_, ?_⟩
    · intro marking member
      cases member
    · intro record member
      cases member
    · intro scope _
      rfl

/-- While deletions select apart, every record is marked once and for all by
one committed execution, and the receipts add up to the marked records. -/
theorem deletion_receipts_count_records_once (deployment : Deployment)
    {first second : List DeletionAction} {middle finish : DeletionState}
    (earlier : Runs (deletionStep deployment) DeletionsApart .initial first
      middle)
    (later : Runs (deletionStep deployment) DeletionsApart middle second
      finish) :
    CountedOnce (history (deletionStep deployment) observeMarkings .initial
        first) middle.control.database ∧
      ∀ record ∈ middle.control.database.records, ∀ deletedAt,
        record.deletedAt = some deletedAt →
        ∃ current ∈ finish.control.database.records,
          current.id = record.id ∧ current.deletedAt = some deletedAt := by
  have preserved : ∀ {past : List Marking} {state : DeletionState}
      {action : DeletionAction} {next : DeletionState}, Deleting past state →
      DeletionsApart state action →
      deletionStep deployment state action = some next →
      Deleting (past ++ observeMarkings state action) next :=
    fun deleting permitted stepped => deleting.step permitted stepped
  have before := earlier.invariant_with_history preserved Deleting.initial
  have after := later.invariant_with_history preserved before
  rw [List.nil_append] at before after
  refine ⟨before.counted, ?_⟩
  intro record present deletedAt deleted
  obtain ⟨marking, member, inIds⟩ := before.counted.marked record present (by
    rw [deleted]
    exact Option.some_ne_none deletedAt)
  obtain ⟨same, samePresent, sameId, markedAt⟩ :=
    before.counted.kept marking member record.id inIds
  have isRecord : same = record :=
    before.recordIds.eq_of_mem samePresent present sameId
  obtain ⟨current, currentPresent, currentId, kept⟩ := after.counted.kept
    marking (List.mem_append_left _ member) record.id inIds
  refine ⟨current, currentPresent, currentId, ?_⟩
  rw [kept, ← markedAt, isRecord, deleted]

/-! Two delete requests for one subject, each claimed by a worker of its own. -/

def demoDeletion (letter : Char) (idempotencyKey : String) : Intake :=
  { demoIntake letter .delete ["jobs"] demoSource_nodup
      demoSource_allowed with
    idempotencyKey }

def demoDeletions : List DeletionAction :=
  [.seed "t" "abc" 1 {
      ids := fun index => String.ofList (List.replicate (index + 1) 's')
      clock := fun _ => 0 },
    .other (.create (demoDeletion 'a' "k")),
    .other (.create (demoDeletion 'b' "l")),
    .other (.processOnce { demoClaim "v" 10 with batchSize := some 1 }),
    .other (.processOnce { demoClaim "w" 11 with batchSize := some 1 }),
    .other (.selectTask 0), .other (.selectTask 1)]

/-- What follows the select of a deletion. -/
def demoMarking (call : Nat) (now : Time) : List DeletionAction :=
  [.updateRecords call now, .countRecords call,
    .other (.recordTask call (now + 1))]

def demoScope : Scope :=
  { tenantId := "t", subjectKeyHash := "h", source := "jobs" }

def successiveDeletions : List DeletionAction :=
  demoDeletions ++ .selectRecords 0 :: demoMarking 0 20 ++
    .selectRecords 1 :: demoMarking 1 22

/-- The second deletion finds nothing left. -/
theorem successive_deletions_are_counted_once :
    ∃ finish, Runs (deletionStep demoDeployment) DeletionsApart .initial
        successiveDeletions finish ∧
      CountedOnce (history (deletionStep demoDeployment) observeMarkings
        .initial successiveDeletions) finish.control.database ∧
      finish.control.database.deletedRows demoScope = 1 ∧
      finish.control.database.receipts demoScope = 1 := by
  have evaluated : (run (deletionStep demoDeployment) DeletionsApart .initial
      successiveDeletions).map (fun state =>
        (state.control.database.deletedRows demoScope,
          state.control.database.receipts demoScope)) = some (1, 1) := by
    decide +kernel
  obtain ⟨finish, reached, values⟩ := Option.map_eq_some_iff.mp evaluated
  obtain ⟨rows, receipts⟩ := Prod.mk.inj values
  have execution := runs_of_run reached
  exact ⟨finish, execution, (deletion_receipts_count_records_once
    demoDeployment execution (.nil finish)).1, rows, receipts⟩

def overlappingDeletions : List DeletionAction :=
  demoDeletions ++ [.selectRecords 0, .selectRecords 1] ++ demoMarking 0 20 ++
    demoMarking 1 22

/-- Both deletions have selected the one record before either marks it: it is
marked twice, and both receipts count it. -/
theorem overlapping_deletions_count_record_twice :
    ∃ finish, Runs (deletionStep demoDeployment) DeletionLeases .initial
        overlappingDeletions finish ∧
      (∀ task ∈ finish.control.database.tasks, task.status = .succeeded) ∧
      finish.control.database.deletedRows demoScope = 1 ∧
      finish.control.database.receipts demoScope = 2 ∧
      (history (deletionStep demoDeployment) observeMarkings .initial
        overlappingDeletions).flatMap Marking.ids = ["ss", "ss"] := by
  have evaluated : (run (deletionStep demoDeployment) DeletionLeases .initial
      overlappingDeletions).map (fun state =>
        (state.control.database.tasks.all fun task =>
            decide (task.status = .succeeded),
          state.control.database.deletedRows demoScope,
          state.control.database.receipts demoScope)) = some (true, 1, 2) := by
    decide +kernel
  have marks : (history (deletionStep demoDeployment) observeMarkings .initial
      overlappingDeletions).flatMap Marking.ids = ["ss", "ss"] := by
    decide +kernel
  obtain ⟨finish, reached, values⟩ := Option.map_eq_some_iff.mp evaluated
  simp only [Prod.mk.injEq] at values
  obtain ⟨succeeded, rows, receipts⟩ := values
  refine ⟨finish, runs_of_run reached, ?_, rows, receipts, marks⟩
  intro task member
  exact of_decide_eq_true (List.all_eq_true.mp succeeded task member)

end FleetPrivacy
