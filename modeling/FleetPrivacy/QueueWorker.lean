import FleetPrivacy.Outbox
import FleetPrivacy.Requests

/-!
# Message handling

The statements of `queue_worker.py`: how a message names its task, how
`claim_message_task` takes it and how `extend_task_lease` keeps it.
-/

namespace FleetPrivacy

/-- The task that `handle_task_envelope` looks for; `none` when it returns
before touching the database. -/
def Envelope.taskId? (body : Envelope) : Option String :=
  if body.eventType ≠ EventType.taskReady.value then none
  else
    let taskId := payloadTaskId body.payload
    if taskId = "" then none else some taskId

/-- SQLite gives `lease_expires_at` back without its zone, and the ORM also
evaluates the criterion of the UPDATE of `claim_message_task` on the row that
its session has loaded.  For a running task it compares the lease with an aware
clock reading, which raises `TypeError`; a pending task is decided before. -/
def RequestTask.incomparable (dialect : Dialect) (task : RequestTask) : Bool :=
  decide (dialect = .sqlite) && decide (task.status = .running) &&
    task.leaseExpiresAt.isSome

/-- The update of `claim_message_task`, once its criterion is evaluated, and
the request update after it; `none` when no row matched and the transaction was
rolled back (`BUSY`). -/
def claimMessageTask (settings : Settings) (workerId taskId : String)
    (now : Time) (database : Database) : Option Database :=
  let matching := fun task : RequestTask =>
    decide (task.id = taskId) && task.claimable now
  match database.tasks.find? matching with
  | some row =>
      some { database with
        tasks := Table.updateWhere matching
          (RequestTask.claim workerId (now + settings.leaseSeconds))
          database.tasks
        requests := startRequests [row.requestId] now database.requests }
  | none => none

/-- `ClaimResult` of `queue_worker.py`. -/
inductive ClaimResult where
  | claimed
  | terminalDuplicate
  | busy
  | missing
  deriving DecidableEq, Repr

/-- `claim_message_task` with no transaction between its read and its update;
no result when the evaluation of the criterion raises. -/
def runClaimMessageTask (settings : Settings) (dialect : Dialect)
    (workerId taskId : String) (now : Time) (database : Database) :
    Database × Option ClaimResult :=
  match Table.get RequestTask.id taskId database.tasks with
  | none => (database, some .missing)
  | some task =>
      if task.status.Terminal then (database, some .terminalDuplicate)
      else if task.incomparable dialect then (database, none)
      else
        match claimMessageTask settings workerId taskId now database with
        | none => (database, some .busy)
        | some next => (next, some .claimed)

/-- `extend_task_lease`. -/
def extendTaskLease (settings : Settings) (workerId taskId : String)
    (now : Time) (database : Database) : Database :=
  { database with
    tasks := Table.updateWhere
      (fun task => decide (task.id = taskId) && task.leasedBy workerId)
      (fun task =>
        { task with leaseExpiresAt := some (now + settings.leaseSeconds) })
      database.tasks }

theorem RequestTask.incomparable_iff {dialect : Dialect}
    {task : RequestTask} :
    task.incomparable dialect = true ↔
      dialect = .sqlite ∧ task.status = .running ∧
        task.leaseExpiresAt ≠ none := by
  simp [RequestTask.incomparable, Option.isSome_iff_ne_none, and_assoc]

theorem RequestTask.not_terminal_of_incomparable {dialect : Dialect}
    {task : RequestTask} (incomparable : task.incomparable dialect = true) :
    ¬ task.status.Terminal := by
  obtain ⟨_, running, _⟩ := RequestTask.incomparable_iff.mp incomparable
  rw [running]
  exact not_false

/-- `claim_message_task` has the common effect of the claim statements. -/
theorem claimMessageTask_eq_some {settings : Settings}
    {workerId taskId : String} {now : Time} {database next : Database}
    (unique : Table.KeyUnique RequestTask.id database.tasks)
    (claimed : claimMessageTask settings workerId taskId now database =
      some next) :
    next = database.markClaimed [taskId] workerId
        (now + settings.leaseSeconds) now ∧
      database.Claims now [taskId] := by
  simp only [claimMessageTask] at claimed
  split at claimed
  next row found =>
    cases claimed
    have inTable := List.mem_of_find?_eq_some found
    have matching := List.find?_some found
    rw [Bool.and_eq_true, decide_eq_true_iff] at matching
    obtain ⟨same, claimable⟩ := matching
    have chosen : ∀ other ∈ database.tasks,
        (decide (other.id = taskId) && other.claimable now) =
          decide (other.id ∈ [taskId]) := by
      intro other member
      by_cases hit : other.id = taskId
      · have equal : other = row :=
          unique.eq_of_mem member inTable (hit.trans same.symm)
        simp [equal, same, claimable]
      · simp [hit]
    have request : database.requestIdsOf [taskId] = [row.requestId] := by
      have only : (database.tasks.filter fun task =>
          decide (task.id ∈ [taskId])) = [row] := by
        have distinct := unique.filter fun task =>
          decide (task.id ∈ [taskId])
        apply List.perm_singleton.mp
        apply (List.perm_ext_iff_of_nodup distinct.of_map
          (List.nodup_singleton row)).mpr
        intro other
        simp only [List.mem_filter, List.mem_singleton, decide_eq_true_eq]
        constructor
        · rintro ⟨member, hit⟩
          exact unique.eq_of_mem member inTable (hit.trans same.symm)
        · rintro rfl
          exact ⟨inTable, same⟩
      rw [Database.requestIdsOf, only]
      rfl
    refine ⟨?_, List.nodup_singleton taskId, ?_⟩
    · rw [Database.markClaimed, Table.updateWhere_congr chosen, request]
    · intro id member
      exact ⟨row, inTable, same.trans (List.mem_singleton.mp member).symm,
        claimable⟩
  next => cases claimed

/-- Without `CLAIMED` the database is as it was. -/
theorem runClaimMessageTask_database (settings : Settings) (dialect : Dialect)
    (workerId taskId : String) (now : Time) (database : Database) :
    (runClaimMessageTask settings dialect workerId taskId now database).2 ≠
        some .claimed ∧
      (runClaimMessageTask settings dialect workerId taskId now database).1 =
        database ∨
    ∃ next, claimMessageTask settings workerId taskId now database =
        some next ∧
      runClaimMessageTask settings dialect workerId taskId now database =
        (next, some .claimed) := by
  unfold runClaimMessageTask
  split
  next => simp
  next task stored =>
    split
    next => simp
    next =>
      split
      next => simp
      next =>
        split
        next => simp
        next next claimed => exact .inr ⟨next, claimed, rfl⟩

theorem claimMessageTask_eq_none {settings : Settings}
    {workerId taskId : String} {now : Time} {database : Database}
    (busy : claimMessageTask settings workerId taskId now database = none) :
    ∀ row ∈ database.tasks, row.id = taskId → row.claimable now = false := by
  simp only [claimMessageTask] at busy
  split at busy
  next => cases busy
  next unmatched =>
    intro row member same
    have mismatch := List.find?_eq_none.mp unmatched row member
    simpa [same] using mismatch

end FleetPrivacy
