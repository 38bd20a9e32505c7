import FleetPrivacy.WholeCalls

/-!
# Recovery by redelivery

What is left when nothing is in progress, after any interleaving and any
crashes: tasks whose lease runs out, outcomes whose refresh never ran, requests
with an outdated status.  Whole calls then only settle tasks, and a request is
finished once the messages of its tasks have been handled again after their
leases, unless a cancelled execution has cleared a lease.
-/

namespace FleetPrivacy

open Transition

/-! ## Settling -/

/-- Running under no lease: no claim takes the task. -/
def RequestTask.Stranded (task : RequestTask) : Prop :=
  task.status = .running ∧ task.leaseExpiresAt = none

instance (task : RequestTask) : Decidable task.Stranded :=
  inferInstanceAs (Decidable (_ ∧ _))

/-- The request shows the status that its tasks derive. -/
def Database.Synced (database : Database) (requestId : String) : Prop :=
  ∀ request, database.request requestId = some request →
    request.status = database.derivedStatus requestId

/-- What a whole call does to tasks and to the status of requests. -/
structure Database.Settles (before after : Database) : Prop where
  formed : after.WellFormed
  kept : ∀ old ∈ before.tasks, ∃ row ∈ after.tasks, row.id = old.id
  rows : ∀ row ∈ after.tasks, row ∈ before.tasks ∨
    (row.status = .pending ∧ ∀ old ∈ before.tasks, old.id ≠ row.id) ∨
      row.status.Terminal ∧ after.Synced row.requestId
  synced : ∀ requestId, before.Synced requestId → after.Synced requestId

namespace Database.Settles

variable {before after : Database}

theorem refl (formed : before.WellFormed) : before.Settles before :=
  ⟨formed, fun old member => ⟨old, member, rfl⟩, fun _ member => .inl member,
    fun _ synced => synced⟩

/-- Neither tasks nor requests change. -/
theorem of_same (formed : before.WellFormed)
    (tasks : after.tasks = before.tasks)
    (requests : after.requests = before.requests) : before.Settles after := by
  have revises : Database.Revises before after id id :=
    ⟨tasks.trans (List.map_id _).symm, requests.trans (List.map_id _).symm,
      fun _ => ⟨rfl, rfl⟩, fun _ => ⟨rfl, rfl⟩⟩
  refine ⟨formed.revise revises, ?_, ?_, ?_⟩
  · intro old member
    exact ⟨old, tasks ▸ member, rfl⟩
  · intro row member
    exact .inl (tasks ▸ member)
  · intro requestId synced request found
    unfold Database.request at found
    rw [requests] at found
    unfold Database.derivedStatus Database.tasksOf
    rw [tasks]
    exact synced request found

end Database.Settles

/-! ## One execution -/

section Execution

variable {deployment : Deployment} {session : Session} {storage : Storage}

/-- What an execution of a held task leaves. -/
structure Storage.Executed (before after : Storage) (next : Session)
    (row : RequestTask) : Prop where
  formed : after.database.WellFormed
  current : next.Current after.database
  revised : ∃ task request,
    Database.Revises before.database after.database task request ∧
      (task row).status.Terminal ∧ ∀ other, other.id ≠ row.id →
        task other = other
  synced : after.database.Synced row.requestId
  others : ∀ requestId, requestId ≠ row.requestId →
    before.database.Synced requestId → after.database.Synced requestId

theorem executeTask_held (deployment : Deployment)
    (formed : storage.database.WellFormed)
    (current : session.Current storage.database) {row : RequestTask}
    (member : row ∈ storage.database.tasks) {workerId : String}
    (leased : row.leasedBy workerId = true) (draws : TaskDraws) :
    storage.Executed
      (executeTask deployment draws workerId row.id session storage).1
      (executeTask deployment draws workerId row.id session storage).2.1
      row := by
  obtain ⟨owner, owned⟩ := formed.owned row member
  obtain ⟨selected, heldTask, request, heldRequest, same⟩ :=
    select_of_claimed formed member leased owned
      (current.fits (formed.task_eq member))
  obtain ⟨work, isWork, rewrites, _⟩ := @executeTask_claimed deployment session
    storage formed workerId row owner member leased owned
      (current.fits (formed.task_eq member)) draws
  obtain ⟨payload, returned⟩ : ∃ payload, work.ending = .returned payload := by
    rw [isWork, databaseWork_eq rfl]
    cases owner.kind with
    | access => exact ⟨_, rfl⟩
    | delete => exact ⟨_, rfl⟩
  have sameWork : databaseWork storage.database row request draws.deletedAt =
      work := by
    rw [isWork, databaseWork_eq same, databaseWork_eq rfl]
  obtain ⟨rewrite, whole, _⟩ := rewrites.revises
  have loaded := current.load formed member
  have own : request.id = row.requestId := loaded.request_id heldRequest
  have revises := Database.recordOutcome_revises deployment.runtime
    deployment.settings false work row request draws.recordedAt
    storage.database
  have recorded := loaded.record deployment heldTask heldRequest work
    draws.recordedAt
  have ownedAfter := revises.request_eq row.requestId
  rw [owned, Option.map_some] at ownedAfter
  let middle : Storage := { storage with
    database := recordOutcome deployment.runtime deployment.settings false work
      row request draws.recordedAt storage.database }
  have formedMiddle : middle.database.WellFormed := formed.revise revises
  obtain ⟨refreshed, later⟩ := refreshRequestStatus_current deployment
    formedMiddle recorded ownedAfter draws
  have written : executeTask deployment draws workerId row.id session storage =
      ((refreshRequestStatus deployment draws row.requestId
          (((session.loadExecution storage.database row).putTask
            (row.settle deployment.settings false work.ending)).putRequest
              request.verify) middle).1,
        (refreshRequestStatus deployment draws row.requestId
          (((session.loadExecution storage.database row).putTask
            (row.settle deployment.settings false work.ending)).putRequest
              request.verify) middle).2,
        decide ((row.settle deployment.settings false work.ending).status =
          .succeeded)) :=
    executeTask_some selected draws session heldTask heldRequest sameWork
  rw [written] at whole ⊢
  refine ⟨refreshed.formed, later, ⟨_, rewrite, whole, ?_, ?_⟩, ?_, ?_⟩
  · rw [Database.recordRow, if_pos (decide_eq_true rfl),
      RequestTask.flush_settle_self, returned]
    trivial
  · intro other different
    exact Database.recordRow_of_ne different _ _ _
  · intro shown found
    obtain ⟨_, _, _, status⟩ := refreshed.requests row.requestId shown found
    rw [status, if_pos rfl]
    exact (refreshed.derivedStatus row.requestId).symm
  · intro requestId different synced shown found
    obtain ⟨verified, verifiedFound, _, status⟩ :=
      refreshed.requests requestId shown found
    rw [if_neg different] at status
    rw [status]
    refine Eq.trans ?_ (refreshed.derivedStatus requestId).symm
    rw [revises.request_eq] at verifiedFound
    obtain ⟨old, oldFound, rfl⟩ := Option.map_eq_some_iff.mp verifiedFound
    have miss : old.id ≠ request.id := by
      rw [(Database.request_mem oldFound).2, own]
      exact different
    rw [Database.verifyRow, if_neg (by simpa using miss),
      synced old oldFound]
    symm
    apply Database.derivedStatus_of_revises revises
    intro task ofRequest
    obtain ⟨inTable, isOwner⟩ := Database.mem_tasksOf.mp ofRequest
    rw [Database.recordRow_of_ne]
    intro isRow
    apply different
    rw [← isOwner, formed.taskIds.eq_of_mem inTable member isRow]

/-- A call that has these claimed tasks left. -/
structure Storage.Working (start : Database) (storage : Storage)
    (session : Session) (workerId : String) (todo : List String) : Prop where
  formed : storage.database.WellFormed
  current : session.Current storage.database
  nodup : todo.Nodup
  leased : ∀ taskId ∈ todo, ∃ row, storage.database.task taskId = some row ∧
    row.leasedBy workerId = true
  kept : ∀ old ∈ start.tasks, ∃ row ∈ storage.database.tasks, row.id = old.id
  rows : ∀ row ∈ storage.database.tasks, row.id ∈ todo ∨ row ∈ start.tasks ∨
    row.status.Terminal ∧ storage.database.Synced row.requestId
  synced : ∀ requestId, start.Synced requestId →
    storage.database.Synced requestId ∨
      ∃ task ∈ storage.database.tasks, task.requestId = requestId ∧
        task.id ∈ todo

namespace Storage.Working

variable {start : Database} {workerId taskId : String} {todo : List String}

theorem settles (working : storage.Working start session workerId []) :
    start.Settles storage.database := by
  refine ⟨working.formed, working.kept, ?_, ?_⟩
  · intro row member
    rcases working.rows row member with left | old | settled
    · cases left
    · exact .inl old
    · exact .inr (.inr settled)
  · intro requestId before
    rcases working.synced requestId before with still | ⟨_, _, _, left⟩
    · exact still
    · cases left

/-- The first task left is executed. -/
theorem execute (deployment : Deployment)
    (working : storage.Working start session workerId (taskId :: todo))
    (draws : TaskDraws) :
    (executeTask deployment draws workerId taskId session storage).1.Working
      start
      (executeTask deployment draws workerId taskId session storage).2.1
      workerId todo := by
  obtain ⟨held, found, leased⟩ := working.leased taskId List.mem_cons_self
  obtain ⟨member, rfl⟩ := Database.task_mem found
  obtain ⟨isNew, nodup⟩ := List.nodup_cons.mp working.nodup
  obtain ⟨formed, current, ⟨task, request, revises, terminal, unchanged⟩,
    synced, others⟩ := executeTask_held deployment working.formed
      working.current member leased draws
  have resynced : ∀ requestId, storage.database.Synced requestId →
      (executeTask deployment draws workerId held.id session
        storage).1.database.Synced requestId := by
    intro requestId before
    by_cases own : requestId = held.requestId
    · rw [own]
      exact synced
    · exact others requestId own before
  refine ⟨formed, current, nodup, ?_, ?_, ?_, ?_⟩
  · intro otherId isLeft
    obtain ⟨other, otherFound, otherLeased⟩ :=
      working.leased otherId (List.mem_cons_of_mem held.id isLeft)
    refine ⟨other, ?_, otherLeased⟩
    rw [revises.task_eq, otherFound, Option.map_some, unchanged]
    rw [(Database.task_mem otherFound).2]
    exact fun isHeld => isNew (isHeld ▸ isLeft)
  · intro old inStart
    obtain ⟨row, inTable, same⟩ := working.kept old inStart
    refine ⟨task row, ?_, (revises.taskKey row).1.trans same⟩
    rw [revises.tasks]
    exact List.mem_map_of_mem inTable
  · intro row inAfter
    rw [revises.tasks] at inAfter
    obtain ⟨old, inTable, rfl⟩ := List.mem_map.mp inAfter
    by_cases isHeld : old.id = held.id
    · rw [working.formed.taskIds.eq_of_mem inTable member isHeld]
      refine .inr (.inr ⟨terminal, ?_⟩)
      rw [(revises.taskKey held).2]
      exact synced
    · rw [unchanged old isHeld]
      rcases working.rows old inTable with left | inStart | ⟨final, before⟩
      · exact .inl ((List.mem_cons.mp left).resolve_left isHeld)
      · exact .inr (.inl inStart)
      · exact .inr (.inr ⟨final, resynced _ before⟩)
  · intro requestId before
    rcases working.synced requestId before with
      still | ⟨other, inTable, ofRequest, left⟩
    · exact .inl (resynced requestId still)
    · by_cases isHeld : other.id = held.id
      · left
        rw [← ofRequest,
          working.formed.taskIds.eq_of_mem inTable member isHeld]
        exact synced
      · refine .inr ⟨other, ?_, ofRequest,
          (List.mem_cons.mp left).resolve_left isHeld⟩
        rw [revises.tasks]
        exact List.mem_map.mpr ⟨other, inTable, unchanged other isHeld⟩

theorem executeTasks (deployment : Deployment)
    (working : storage.Working start session workerId todo) (fresh : Fresh)
    (position : Nat) :
    start.Settles (executeTasks deployment fresh workerId position todo session
      storage).1.database := by
  induction todo generalizing storage session position with
  | nil => exact working.settles
  | cons taskId todo induction =>
      exact induction (working.execute deployment (fresh.task position))
        (position + 1)

end Storage.Working

end Execution

/-! ## Claims -/

section Claims

variable {storage : Storage} {now leaseUntil : Time} {taskIds : List String}
  {workerId : String}

/-- The session that a claim leaves holds what was committed. -/
theorem Database.Claims.working (claims : storage.database.Claims now taskIds)
    (formed : storage.database.WellFormed) {session : Session}
    (copies : ∀ taskId copy, session.task taskId = some copy →
      ∃ row ∈ storage.database.tasks, row.id = taskId ∧ taskId ∈ taskIds ∧
        copy = row.claim workerId leaseUntil)
    (requests : session.request = Session.empty.request)
    (members : session.members = Session.empty.members) :
    Storage.Working storage.database
      { storage with
        database := storage.database.markClaimed taskIds workerId leaseUntil
          now }
      session workerId taskIds := by
  have revises := Database.markClaimed_revises storage.database taskIds
    workerId leaseUntil now
  have located : ∀ row ∈ storage.database.tasks, row.id ∈ taskIds →
      (storage.database.markClaimed taskIds workerId leaseUntil now).task
        row.id = some (row.claim workerId leaseUntil) := by
    intro row inTable isClaimed
    rw [revises.task_eq, formed.task_eq inTable, Option.map_some,
      Database.claimRow, if_pos (decide_eq_true isClaimed)]
  refine ⟨formed.revise revises, ⟨⟨?_, ?_⟩, ?_⟩, claims.nodup, ?_, ?_, ?_, ?_⟩
  · intro taskId copy held
    obtain ⟨row, inTable, rfl, isClaimed, written⟩ := copies taskId copy held
    exact ⟨_, located row inTable isClaimed, written⟩
  · intro requestId copy held
    rw [requests] at held
    cases held
  · intro requestId ids held
    rw [members] at held
    cases held
  · intro taskId isClaimed
    obtain ⟨row, inTable, rfl, _⟩ := claims.claimable taskId isClaimed
    refine ⟨_, located row inTable isClaimed, ?_⟩
    exact RequestTask.leasedBy_iff.mpr ⟨rfl, rfl⟩
  · intro old inStart
    refine ⟨Database.claimRow taskIds workerId leaseUntil old, ?_,
      (revises.taskKey old).1⟩
    rw [revises.tasks]
    exact List.mem_map_of_mem inStart
  · intro row inAfter
    rw [revises.tasks] at inAfter
    obtain ⟨old, inTable, rfl⟩ := List.mem_map.mp inAfter
    by_cases isClaimed : old.id ∈ taskIds
    · left
      rw [(revises.taskKey old).1]
      exact isClaimed
    · rw [Database.claimRow_of_not_mem isClaimed]
      exact .inr (.inl inTable)
  · intro requestId before
    by_cases claimed : ∃ task ∈ storage.database.tasks,
        task.requestId = requestId ∧ task.id ∈ taskIds
    · obtain ⟨task, inTable, ofRequest, isClaimed⟩ := claimed
      right
      refine ⟨Database.claimRow taskIds workerId leaseUntil task, ?_,
        (revises.taskKey task).2.trans ofRequest, ?_⟩
      · rw [revises.tasks]
        exact List.mem_map_of_mem inTable
      · rw [(revises.taskKey task).1]
        exact isClaimed
    · left
      intro request found
      rw [revises.request_eq] at found
      obtain ⟨old, oldFound, rfl⟩ := Option.map_eq_some_iff.mp found
      have same : (storage.database.markClaimed taskIds workerId leaseUntil
          now).derivedStatus requestId =
            storage.database.derivedStatus requestId := by
        apply Database.derivedStatus_of_revises revises
        intro task ofRequest
        obtain ⟨inTable, isOwner⟩ := Database.mem_tasksOf.mp ofRequest
        rw [Database.claimRow_of_not_mem]
        exact fun isClaimed => claimed ⟨task, inTable, isOwner, isClaimed⟩
      have notStarted : old.id ∉ storage.database.requestIdsOf taskIds := by
        intro starts
        obtain ⟨task, selected, isOwner⟩ := List.mem_map.mp starts
        obtain ⟨inTable, isClaimed⟩ := List.mem_filter.mp selected
        apply claimed
        refine ⟨task, inTable, ?_, of_decide_eq_true isClaimed⟩
        rw [isOwner, (Database.request_mem oldFound).2]
      rw [same, Database.startRow, decide_eq_false notStarted,
        Bool.false_and]
      exact before old oldFound

end Claims

/-! ## Whole calls -/

section Calls

variable {deployment : Deployment} {storage : Storage}

/-- New tasks are `PENDING`, and their request is `QUEUED`. -/
theorem Database.Settles.insertRows {database : Database} {intake : Intake}
    (formed : database.WellFormed) (nodup : intake.drawnIds.Nodup)
    (unused : database.unused intake.drawnIds = true) (runtime : Runtime) :
    database.Settles (intake.insertRows runtime database) := by
  have drawn : ∀ task ∈ intake.tasks,
      task.status = .pending ∧ task.id ∈ intake.drawnIds := by
    intro task member
    refine ⟨?_, Intake.task_id_mem member⟩
    obtain ⟨_, _, rfl⟩ := List.mem_map.mp member
    rfl
  refine ⟨formed.insertRows nodup unused, ?_, ?_, ?_⟩
  · intro old member
    exact ⟨old, List.mem_append_left _ member, rfl⟩
  · intro row member
    rcases List.mem_append.mp member with old | new
    · exact .inl old
    · obtain ⟨pending, isDrawn⟩ := drawn row new
      refine .inr (.inl ⟨pending, ?_⟩)
      intro old inTable same
      exact (unused_iff.mp unused).2.2.1 old inTable (same ▸ isDrawn)
  · intro requestId before row found
    rw [Database.insertRows_request] at found
    unfold Database.derivedStatus
    rcases Option.or_eq_some_iff.mp found with old | ⟨_, new⟩
    · rw [Database.insertRows_tasksOf unused old]
      exact before row old
    · obtain ⟨member, same⟩ := Table.get_mem new
      rw [List.mem_singleton.mp member] at same ⊢
      rw [← same]
      refine Eq.trans ?_ (congrArg (fun tasks => deriveStatus
        (tasks.map RequestTask.status))
        (Database.insertRows_tasksOf_new formed unused)).symm
      symm
      apply if_pos
      intro status inTasks
      obtain ⟨task, isNew, rfl⟩ := List.mem_map.mp inTasks
      exact (drawn task isNew).1

theorem Database.Settles.processOnce (deployment : Deployment)
    (formed : storage.database.WellFormed) (arguments : ClaimArguments)
    (fresh : Fresh) :
    storage.database.Settles
      (processOnce deployment arguments fresh storage).1.database := by
  obtain ⟨session, taskIds, claimed, claims, copies, requests, members⟩ :=
    claimTasks_spec deployment.settings deployment.dialect arguments
      formed.taskIds
  have working := claims.working formed copies requests members
  unfold FleetPrivacy.processOnce
  rw [claimed]
  dsimp only
  split
  next => exact .refl formed
  next => exact working.executeTasks deployment fresh 0

/-- The refresh of a terminal duplicate. -/
theorem Database.Settles.duplicate (deployment : Deployment)
    (formed : storage.database.WellFormed) {task : RequestTask}
    (member : task ∈ storage.database.tasks) (draws : TaskDraws) :
    storage.database.Settles (refreshRequestStatus deployment draws
        task.requestId .empty storage).1.database ∧
      (refreshRequestStatus deployment draws task.requestId .empty
        storage).1.database.tasks = storage.database.tasks ∧
      (refreshRequestStatus deployment draws task.requestId .empty
        storage).1.database.Synced task.requestId := by
  obtain ⟨owner, owned⟩ := formed.owned task member
  have current : Session.empty.Current storage.database := by
    refine ⟨Session.copies_empty storage.database, ?_⟩
    intro requestId ids held
    cases held
  obtain ⟨refreshed, _⟩ :=
    refreshRequestStatus_current deployment formed current owned draws
  have own : (refreshRequestStatus deployment draws task.requestId .empty
      storage).1.database.Synced task.requestId := by
    intro row found
    obtain ⟨_, _, _, status⟩ := refreshed.requests task.requestId row found
    rw [status, if_pos rfl]
    exact (refreshed.derivedStatus task.requestId).symm
  refine ⟨⟨refreshed.formed, ?_, ?_, ?_⟩, refreshed.tasks, own⟩
  · intro old inTable
    exact ⟨old, refreshed.tasks ▸ inTable, rfl⟩
  · intro row inAfter
    exact .inl (refreshed.tasks ▸ inAfter)
  · intro requestId before
    by_cases isOwn : requestId = task.requestId
    · rw [isOwn]
      exact own
    · intro row found
      obtain ⟨old, oldFound, _, status⟩ :=
        refreshed.requests requestId row found
      rw [status, if_neg isOwn, before old oldFound]
      exact (refreshed.derivedStatus requestId).symm

/-- A worker id that the column of the lease owner takes. -/
def Deployment.fits (deployment : Deployment) (workerId : String) : Bool :=
  !decide (deployment.dialect = .postgresql ∧
    leaseOwnerWidth < workerId.length)

/-- No lease of the task is left at that time. -/
def RequestTask.expired (now : Time) (task : RequestTask) : Bool :=
  match task.leaseExpiresAt with
  | none => true
  | some expiry => decide (expiry < now)

theorem RequestTask.claimable_of_expired {task : RequestTask} {now : Time}
    (expired : task.expired now = true) (open_ : ¬ task.status.Terminal) :
    task.claimable now = true ∨ task.Stranded := by
  cases status : task.status with
  | pending => exact .inl (claimable_iff.mpr (.inl status))
  | running =>
      cases lease : task.leaseExpiresAt with
      | none => exact .inr ⟨status, lease⟩
      | some expiry =>
          rw [RequestTask.expired, lease] at expired
          exact .inl (claimable_iff.mpr
            (.inr ⟨status, expiry, lease, of_decide_eq_true expired⟩))
  | succeeded => exact absurd (by rw [status]; trivial) open_
  | failed => exact absurd (by rw [status]; trivial) open_

/-- The task of a handled message is final, with a request that shows it, or
was and is stranded. -/
def Database.Handles (before after : Database) (taskId : String) : Prop :=
  ∀ row ∈ after.tasks, row.id = taskId →
    row.status.Terminal ∧ after.Synced row.requestId ∨
      row.Stranded ∧ row ∈ before.tasks

/-- The handling of a message settles, and on PostgreSQL it handles its task
when no lease is left. -/
theorem Database.Settles.handleTaskEnvelope (deployment : Deployment)
    (postgresql : deployment.dialect = .postgresql)
    (formed : storage.database.WellFormed) (workerId : String)
    (draws : HandlingDraws) (body : Envelope) :
    storage.database.Settles (handleTaskEnvelope deployment workerId draws body
        storage).1.database ∧
      ∀ taskId task, body.taskId? = some taskId →
        storage.database.task taskId = some task →
        deployment.fits workerId = true →
        task.expired draws.claimedAt = true →
        storage.database.Handles (handleTaskEnvelope deployment workerId draws
          body storage).1.database taskId := by
  have handling := handleTaskEnvelope_handling deployment workerId draws body
    storage
  revert handling
  generalize FleetPrivacy.handleTaskEnvelope deployment workerId draws body
    storage = handled
  intro handling
  cases handling with
  | unnamed unnamed =>
      refine ⟨.refl formed, ?_⟩
      intro taskId task named
      rw [unnamed] at named
      cases named
  | missing taskId named missing =>
      refine ⟨.refl formed, ?_⟩
      intro otherId task isTask found
      rw [named] at isTask
      cases isTask
      rw [missing] at found
      cases found
  | duplicate taskId task named stored terminal =>
      obtain ⟨member, key⟩ := Database.task_mem stored
      obtain ⟨settles, same, synced⟩ :=
        Database.Settles.duplicate deployment formed member draws.task
      refine ⟨settles, ?_⟩
      intro otherId _ isTask _ _ _ row inAfter isRow
      rw [named] at isTask
      cases isTask
      rw [same] at inAfter
      rw [formed.taskIds.eq_of_mem inAfter member (isRow.trans key.symm)]
      exact .inl ⟨terminal, synced⟩
  | raised taskId task named stored incomparable =>
      rw [postgresql] at incomparable
      cases incomparable
  | busy taskId task named stored open_ busy =>
      obtain ⟨member, key⟩ := Database.task_mem stored
      refine ⟨.refl formed, ?_⟩
      intro otherId other isTask found _ expired row inTable isRow
      rw [named] at isTask
      cases isTask
      rw [stored] at found
      cases found
      have isStored := formed.taskIds.eq_of_mem inTable member
        (isRow.trans key.symm)
      rw [isStored]
      rcases RequestTask.claimable_of_expired expired open_ with
        claimable | stranded
      · rw [claimMessageTask_eq_none busy task member key] at claimable
        cases claimable
      · exact .inr ⟨stranded, member⟩
  | rejected taskId task named stored wide =>
      refine ⟨.refl formed, ?_⟩
      intro _ _ _ _ fits
      rw [Deployment.fits, decide_eq_true wide] at fits
      cases fits
  | executed taskId task database named stored open_ claimed =>
      obtain ⟨marked, claims⟩ := claimMessageTask_eq_some formed.taskIds claimed
      have working : Storage.Working storage.database { storage with database }
          .empty workerId [taskId] := by
        rw [marked]
        refine claims.working formed ?_ rfl rfl
        intro otherId copy held
        cases held
      refine ⟨(working.execute deployment draws.task).settles, ?_⟩
      intro otherId other isTask found _ _ row inAfter isRow
      rw [named] at isTask
      cases isTask
      obtain ⟨held, heldFound, leased⟩ :=
        working.leased taskId List.mem_cons_self
      obtain ⟨member, rfl⟩ := Database.task_mem heldFound
      have executed := executeTask_held deployment working.formed
        working.current member leased draws.task
      obtain ⟨rewrite, request, revises, terminal, _⟩ := executed.revised
      rw [revises.tasks] at inAfter
      obtain ⟨old, inTable, rfl⟩ := List.mem_map.mp inAfter
      rw [(revises.taskKey old).1] at isRow
      rw [working.formed.taskIds.eq_of_mem inTable member isRow]
      refine .inl ⟨terminal, ?_⟩
      rw [(revises.taskKey held).2]
      exact executed.synced

end Calls

/-! ## Histories -/

/-- The task whose message a call handles when its lease, if it has one, has
run out. -/
def redelivered (deployment : Deployment) (service : Service) :
    ServiceCall → List String
  | .consumeTaskMessage workerId slot draws =>
      ((service.queue[slot]?.bind fun message => message.body.taskId?).filter
        fun taskId => deployment.fits workerId &&
          (service.storage.database.task taskId).any
            (RequestTask.expired draws.claimedAt)).toList
  | _ => []

/-- Where a history stands that has handled these tasks again. -/
structure Service.Recovering (start : Database) (past : List String)
    (service : Service) : Prop where
  formed : service.storage.database.WellFormed
  present : ∀ taskId ∈ past, ∃ row ∈ service.storage.database.tasks,
    row.id = taskId
  running : ∀ row ∈ service.storage.database.tasks, row.status = .running →
    row ∈ start.tasks
  handled : ∀ row ∈ service.storage.database.tasks, row.id ∈ past →
    row.status.Terminal ∧ service.storage.database.Synced row.requestId ∨
      row.Stranded ∧ row ∈ start.tasks

section Histories

variable {deployment : Deployment} {service next : Service}
  {call : ServiceCall} {start : Database} {past : List String}

theorem serviceStep_settles (postgresql : deployment.dialect = .postgresql)
    (formed : service.storage.database.WellFormed)
    (stepped : serviceStep deployment service call = some next) :
    service.storage.database.Settles next.storage.database ∧
      ∀ taskId ∈ redelivered deployment service call,
        (∃ row ∈ service.storage.database.tasks, row.id = taskId) ∧
        service.storage.database.Handles next.storage.database taskId := by
  cases call with
  | create intake =>
      simp only [serviceStep] at stepped
      split at stepped
      next enabled =>
        cases stepped
        simp only [Bool.and_eq_true, decide_eq_true_iff] at enabled
        refine ⟨.insertRows formed enabled.1.1 enabled.1.2 _, ?_⟩
        intro taskId member
        cases member
      next => cases stepped
  | relayOutboxOnce batchSize answers =>
      cases stepped
      refine ⟨.of_same formed rfl rfl, ?_⟩
      intro taskId member
      cases member
  | processOnce arguments fresh =>
      simp only [serviceStep] at stepped
      split at stepped
      next =>
        cases stepped
        refine ⟨.processOnce deployment formed arguments fresh, ?_⟩
        intro taskId member
        cases member
      next => cases stepped
  | consumeTaskMessage workerId slot draws =>
      simp only [serviceStep] at stepped
      split at stepped
      next =>
        simp only [consumeTaskMessage] at stepped
        obtain ⟨message, delivered, written⟩ :=
          Option.bind_eq_some_iff.mp stepped
        cases written
        obtain ⟨settles, handles⟩ := Database.Settles.handleTaskEnvelope
          deployment postgresql formed workerId draws message.body
        refine ⟨settles, ?_⟩
        intro taskId member
        obtain ⟨named, timely⟩ := Option.filter_eq_some_iff.mp
          (Option.mem_toList.mp member)
        obtain ⟨fits, leased⟩ := Bool.and_eq_true_iff.mp timely
        rw [delivered, Option.bind_some] at named
        obtain ⟨task, stored, expired⟩ := (Option.any_eq_true _ _).mp leased
        exact ⟨⟨task, Database.task_mem stored⟩,
          handles taskId task named stored fits expired⟩
      next => cases stepped

/-- One whole call. -/
theorem Service.Recovering.step (postgresql : deployment.dialect = .postgresql)
    (recovering : service.Recovering start past)
    (stepped : serviceStep deployment service call = some next) :
    next.Recovering start (past ++ redelivered deployment service call) := by
  obtain ⟨settles, handles⟩ := serviceStep_settles postgresql recovering.formed
    stepped
  refine ⟨settles.formed, ?_, ?_, ?_⟩
  · intro taskId member
    have before : ∃ row ∈ service.storage.database.tasks, row.id = taskId := by
      rcases List.mem_append.mp member with earlier | now
      · exact recovering.present taskId earlier
      · exact (handles taskId now).1
    obtain ⟨old, inTable, same⟩ := before
    obtain ⟨row, inAfter, key⟩ := settles.kept old inTable
    exact ⟨row, inAfter, key.trans same⟩
  · intro row inAfter running
    rcases settles.rows row inAfter with old | ⟨pending, _⟩ | ⟨terminal, _⟩
    · exact recovering.running row old running
    · rw [running] at pending
      cases pending
    · rw [running] at terminal
      cases terminal
  · intro row inAfter member
    rcases List.mem_append.mp member with earlier | now
    · rcases settles.rows row inAfter with old | ⟨_, isNew⟩ | settled
      · rcases recovering.handled row old earlier with
          ⟨terminal, synced⟩ | stranded
        · exact .inl ⟨terminal, settles.synced _ synced⟩
        · exact .inr stranded
      · obtain ⟨old, inTable, same⟩ := recovering.present row.id earlier
        exact absurd same (isNew old inTable)
      · exact .inl settled
    · rcases (handles row.id now).2 row inAfter rfl with
        settled | ⟨stranded, old⟩
      · exact .inl settled
      · exact .inr ⟨stranded, recovering.running row old stranded.1⟩

end Histories

end FleetPrivacy
