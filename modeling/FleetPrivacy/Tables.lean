import FleetPrivacy.Effects

/-!
# How the tables evolve

Rows are looked up by primary key.  Every action except an intake rewrites rows
in place (`Revises`); an intake only adds rows with new keys.  The tables stay
well formed in every run, whatever the interleaving.
-/

namespace FleetPrivacy

namespace Database

def task (database : Database) (taskId : String) : Option RequestTask :=
  Table.get RequestTask.id taskId database.tasks

def request (database : Database) (requestId : String) :
    Option PrivacyRequest :=
  Table.get PrivacyRequest.id requestId database.requests

structure WellFormed (database : Database) : Prop where
  taskIds : Table.KeyUnique RequestTask.id database.tasks
  requestIds : Table.KeyUnique PrivacyRequest.id database.requests
  owned : ∀ task ∈ database.tasks,
    ∃ request, database.request task.requestId = some request
  named : ∀ task ∈ database.tasks, task.id ≠ ""

theorem task_mem {database : Database} {taskId : String} {row : RequestTask}
    (found : database.task taskId = some row) :
    row ∈ database.tasks ∧ row.id = taskId :=
  Table.get_mem found

theorem request_mem {database : Database} {requestId : String}
    {row : PrivacyRequest} (found : database.request requestId = some row) :
    row ∈ database.requests ∧ row.id = requestId :=
  Table.get_mem found

/-- The `WHERE id = ? AND ...` of a statement finds a row. -/
theorem matches_iff {database : Database} {taskId : String}
    {test : RequestTask → Bool} :
    (database.tasks.any fun task =>
        decide (task.id = taskId) && test task) = true ↔
      ∃ row ∈ database.tasks, row.id = taskId ∧ test row = true := by
  simp

theorem matches_eq_false {database : Database} {taskId : String}
    {test : RequestTask → Bool}
    (fails : ∀ row ∈ database.tasks, row.id = taskId → test row = false) :
    (database.tasks.any fun task =>
      decide (task.id = taskId) && test task) = false := by
  rw [Bool.eq_false_iff]
  intro hit
  obtain ⟨row, member, same, passes⟩ := matches_iff.mp hit
  rw [fails row member same] at passes
  cases passes

theorem WellFormed.task_eq {database : Database}
    (formed : database.WellFormed) {row : RequestTask}
    (member : row ∈ database.tasks) : database.task row.id = some row :=
  formed.taskIds.get_eq_some member

theorem WellFormed.request_eq {database : Database}
    (formed : database.WellFormed) {row : PrivacyRequest}
    (member : row ∈ database.requests) : database.request row.id = some row :=
  formed.requestIds.get_eq_some member

/-- The select of a request by its id loads the row that is found. -/
theorem WellFormed.get_select {database : Database}
    (formed : database.WellFormed) {requestId : String}
    {owner : PrivacyRequest}
    (found : database.request requestId = some owner) :
    Table.get PrivacyRequest.id requestId
        (database.requests.filter fun request =>
          decide (request.id = requestId)) = some owner := by
  obtain ⟨present, key⟩ := request_mem found
  have kept : owner ∈ database.requests.filter fun request =>
      decide (request.id = requestId) :=
    List.mem_filter.mpr ⟨present, decide_eq_true key⟩
  have located := (formed.requestIds.filter _).get_eq_some kept
  rw [key] at located
  exact located

theorem mem_tasksOf {database : Database} {requestId : String}
    {row : RequestTask} :
    row ∈ database.tasksOf requestId ↔
      row ∈ database.tasks ∧ row.requestId = requestId := by
  simp [tasksOf]

def taskIds (database : Database) (requestId : String) : List String :=
  (database.tasksOf requestId).map RequestTask.id

theorem mem_taskIds {database : Database} {requestId taskId : String} :
    taskId ∈ database.taskIds requestId ↔
      ∃ row ∈ database.tasks, row.requestId = requestId ∧ row.id = taskId := by
  unfold taskIds
  rw [List.mem_map]
  constructor
  · rintro ⟨row, member, same⟩
    obtain ⟨inTable, owner⟩ := mem_tasksOf.mp member
    exact ⟨row, inTable, owner, same⟩
  · rintro ⟨row, inTable, owner, same⟩
    exact ⟨row, mem_tasksOf.mpr ⟨inTable, owner⟩, same⟩

/-- Both tables are rewritten row by row; keys and kinds stay. -/
structure Revises (before after : Database)
    (task : RequestTask → RequestTask)
    (request : PrivacyRequest → PrivacyRequest) : Prop where
  tasks : after.tasks = before.tasks.map task
  requests : after.requests = before.requests.map request
  taskKey : ∀ row, (task row).id = row.id ∧ (task row).requestId = row.requestId
  requestKey : ∀ row, (request row).id = row.id ∧ (request row).kind = row.kind

section Revises

variable {before after : Database} {task : RequestTask → RequestTask}
  {request : PrivacyRequest → PrivacyRequest}

theorem Revises.task_eq (revises : Revises before after task request)
    (taskId : String) :
    after.task taskId = (before.task taskId).map task := by
  unfold Database.task Table.get
  rw [revises.tasks, List.find?_map]
  congr 1
  have same : ((fun row : RequestTask => decide (row.id = taskId)) ∘ task) =
      fun row => decide (row.id = taskId) := by
    funext row
    simp [(revises.taskKey row).1]
  rw [same]

theorem Revises.task_eq_of_fixed (revises : Revises before after task request)
    {taskId : String} (fixed : ∀ row, row.id = taskId → task row = row) :
    after.task taskId = before.task taskId := by
  rw [revises.task_eq]
  cases found : before.task taskId with
  | none => rfl
  | some row => rw [Option.map_some, fixed row (task_mem found).2]

theorem Revises.request_eq (revises : Revises before after task request)
    (requestId : String) :
    after.request requestId = (before.request requestId).map request := by
  unfold Database.request Table.get
  rw [revises.requests, List.find?_map]
  congr 1
  have same : ((fun row : PrivacyRequest => decide (row.id = requestId)) ∘
      request) = fun row => decide (row.id = requestId) := by
    funext row
    simp [(revises.requestKey row).1]
  rw [same]

theorem Revises.tasksOf_eq (revises : Revises before after task request)
    (requestId : String) :
    after.tasksOf requestId = (before.tasksOf requestId).map task := by
  unfold Database.tasksOf
  rw [revises.tasks, List.filter_map]
  have same : ((fun row : RequestTask => decide (row.requestId = requestId)) ∘
      task) = fun row => decide (row.requestId = requestId) := by
    funext row
    simp [(revises.taskKey row).2]
  rw [same]

theorem Revises.ids_eq (revises : Revises before after task request)
    (requestId : String) :
    (after.tasksOf requestId).map RequestTask.id =
      (before.tasksOf requestId).map RequestTask.id := by
  rw [revises.tasksOf_eq, List.map_map]
  apply List.map_congr_left
  intro row _
  exact (revises.taskKey row).1

theorem WellFormed.revise (formed : before.WellFormed)
    (revises : Revises before after task request) : after.WellFormed := by
  constructor
  · unfold Table.KeyUnique
    rw [revises.tasks, List.map_map]
    have same : RequestTask.id ∘ task = RequestTask.id := by
      funext row
      exact (revises.taskKey row).1
    rw [same]
    exact formed.taskIds
  · unfold Table.KeyUnique
    rw [revises.requests, List.map_map]
    have same : PrivacyRequest.id ∘ request = PrivacyRequest.id := by
      funext row
      exact (revises.requestKey row).1
    rw [same]
    exact formed.requestIds
  · intro row member
    rw [revises.tasks] at member
    obtain ⟨old, oldMember, rfl⟩ := List.mem_map.mp member
    obtain ⟨owner, found⟩ := formed.owned old oldMember
    refine ⟨request owner, ?_⟩
    rw [(revises.taskKey old).2, revises.request_eq, found]
    rfl
  · intro row member
    rw [revises.tasks] at member
    obtain ⟨old, oldMember, rfl⟩ := List.mem_map.mp member
    rw [(revises.taskKey old).1]
    exact formed.named old oldMember

end Revises

/-! ## The revision that each statement makes -/

/-- A claim leases the rows it selected. -/
def claimRow (taskIds : List String) (workerId : String) (leaseUntil : Time)
    (row : RequestTask) : RequestTask :=
  if decide (row.id ∈ taskIds) then row.claim workerId leaseUntil else row

def startRow (requestIds : List String) (now : Time) (row : PrivacyRequest) :
    PrivacyRequest :=
  if decide (row.id ∈ requestIds) && decide (row.status = .queued) then
    { row with status := .running, updatedAt := now }
  else row

theorem markClaimed_revises (database : Database) (taskIds : List String)
    (workerId : String) (leaseUntil now : Time) :
    Revises database (database.markClaimed taskIds workerId leaseUntil now)
      (claimRow taskIds workerId leaseUntil)
      (startRow (database.requestIdsOf taskIds) now) := by
  refine ⟨rfl, rfl, ?_, ?_⟩
  · intro row
    unfold claimRow
    split
    next => exact ⟨rfl, rfl⟩
    next => exact ⟨rfl, rfl⟩
  · intro row
    unfold startRow
    split
    next => exact ⟨rfl, rfl⟩
    next => exact ⟨rfl, rfl⟩

theorem claimRow_of_not_mem {taskIds : List String} {row : RequestTask}
    (missed : row.id ∉ taskIds) (workerId : String) (leaseUntil : Time) :
    claimRow taskIds workerId leaseUntil row = row := by
  simp [claimRow, missed]

/-- A claim rewrites the rows of its own tasks only. -/
theorem markClaimed_task_of_not_mem (database : Database)
    {taskIds : List String} (workerId : String) (leaseUntil now : Time)
    {taskId : String} (missed : taskId ∉ taskIds) :
    (database.markClaimed taskIds workerId leaseUntil now).task taskId =
      database.task taskId := by
  apply (markClaimed_revises ..).task_eq_of_fixed
  intro row same
  exact claimRow_of_not_mem (same ▸ missed) workerId leaseUntil

def recordRow (settings : Settings) (executor : Bool) (ending : Ending)
    (task row : RequestTask) : RequestTask :=
  if decide (row.id = task.id) then
    task.flush (task.settle settings executor ending) row
  else row

theorem recordRow_of_ne {task row : RequestTask} (different : row.id ≠ task.id)
    (settings : Settings) (executor : Bool) (ending : Ending) :
    recordRow settings executor ending task row = row := by
  simp [recordRow, different]

def verifyRow (request : PrivacyRequest) (now : Time) (row : PrivacyRequest) :
    PrivacyRequest :=
  if decide (row.id = request.id) then request.flush request.verify row now
  else row

theorem recordOutcome_revises (runtime : Runtime) (settings : Settings)
    (executor : Bool) (work : Work) (task : RequestTask)
    (request : PrivacyRequest) (now : Time) (database : Database) :
    Revises database
      (recordOutcome runtime settings executor work task request now database)
      (recordRow settings executor work.ending task)
      (verifyRow request now) := by
  refine ⟨rfl, rfl, ?_, ?_⟩
  · intro row
    unfold recordRow
    split
    next => exact ⟨rfl, rfl⟩
    next => exact ⟨rfl, rfl⟩
  · intro row
    unfold verifyRow
    split
    next => exact ⟨rfl, rfl⟩
    next => exact ⟨rfl, rfl⟩

/-- An outcome rewrites the row of its own task only. -/
theorem recordOutcome_task_of_ne (runtime : Runtime) (settings : Settings)
    (executor : Bool) (work : Work) {task : RequestTask}
    (request : PrivacyRequest) (now : Time) (database : Database)
    {otherId : String} (different : otherId ≠ task.id) :
    (recordOutcome runtime settings executor work task request now
      database).task otherId = database.task otherId := by
  apply (recordOutcome_revises ..).task_eq_of_fixed
  intro row same
  exact recordRow_of_ne (same ▸ different) settings executor work.ending

def refreshRow (request : PrivacyRequest) (status : RequestStatus)
    (reference : Option String) (now : Time) (row : PrivacyRequest) :
    PrivacyRequest :=
  if decide (row.id = request.id) then
    request.flush (request.refresh status reference) row now
  else row

theorem commitRefresh_tasks (runtime : Runtime) (session : Session)
    (request : PrivacyRequest) (reference : Option String) (noticeId : String)
    (now : Time) (database : Database) :
    (commitRefresh runtime session request reference noticeId now
      database).tasks = database.tasks := by
  unfold commitRefresh
  dsimp only
  split
  next => rfl
  next => rfl

theorem commitRefresh_task (runtime : Runtime) (session : Session)
    (request : PrivacyRequest) (reference : Option String) (noticeId : String)
    (now : Time) (database : Database) (taskId : String) :
    (commitRefresh runtime session request reference noticeId now
      database).task taskId = database.task taskId := by
  unfold Database.task
  rw [commitRefresh_tasks]

theorem commitRefresh_requests (runtime : Runtime) (session : Session)
    (request : PrivacyRequest) (reference : Option String) (noticeId : String)
    (now : Time) (database : Database) :
    (commitRefresh runtime session request reference noticeId now
      database).requests =
      database.requests.map (refreshRow request
        (session.derivedStatus request.id) reference now) := by
  unfold commitRefresh
  dsimp only
  split
  next => rfl
  next => rfl

theorem commitRefresh_revises (runtime : Runtime) (session : Session)
    (request : PrivacyRequest) (reference : Option String) (noticeId : String)
    (now : Time) (database : Database) :
    Revises database
      (commitRefresh runtime session request reference noticeId now database)
      id (refreshRow request (session.derivedStatus request.id) reference
        now) := by
  refine ⟨?_, commitRefresh_requests .., fun _ => ⟨rfl, rfl⟩, ?_⟩
  · rw [commitRefresh_tasks, List.map_id]
  · intro row
    unfold refreshRow
    split
    next => exact ⟨rfl, rfl⟩
    next => exact ⟨rfl, rfl⟩

/-- A refresh rewrites the row of its own request only. -/
theorem commitRefresh_request_of_ne (runtime : Runtime) (session : Session)
    {request : PrivacyRequest} (reference : Option String)
    (noticeId : String) (now : Time) (database : Database)
    {otherId : String} (different : otherId ≠ request.id) :
    (commitRefresh runtime session request reference noticeId now
      database).request otherId = database.request otherId := by
  rw [(commitRefresh_revises ..).request_eq]
  cases located : database.request otherId with
  | none => rfl
  | some row =>
      have miss : row.id ≠ request.id := by
        rw [(request_mem located).2]
        exact different
      simp [refreshRow, miss]

def extendRow (workerId taskId : String) (leaseUntil : Time)
    (row : RequestTask) : RequestTask :=
  if decide (row.id = taskId) && row.leasedBy workerId then
    { row with leaseExpiresAt := some leaseUntil }
  else row

theorem extendTaskLease_revises (settings : Settings)
    (workerId taskId : String) (now : Time) (database : Database) :
    Revises database
      (extendTaskLease settings workerId taskId now database)
      (extendRow workerId taskId (now + settings.leaseSeconds)) id := by
  refine ⟨rfl, ?_, ?_, fun _ => ⟨rfl, rfl⟩⟩
  · exact (List.map_id _).symm
  · intro row
    unfold extendRow
    split
    next => exact ⟨rfl, rfl⟩
    next => exact ⟨rfl, rfl⟩

/-- Only open tasks are claimed. -/
theorem Claims.claimRow_of_terminal {database : Database} {now : Time}
    {taskIds : List String} (claims : database.Claims now taskIds)
    (formed : database.WellFormed) {row : RequestTask}
    (member : row ∈ database.tasks) (terminal : row.status.Terminal)
    (workerId : String) (leaseUntil : Time) :
    claimRow taskIds workerId leaseUntil row = row := by
  unfold claimRow
  rw [if_neg]
  intro hit
  obtain ⟨candidate, inTable, same, claimable⟩ :=
    claims.claimable row.id (of_decide_eq_true hit)
  have isRow : candidate = row :=
    formed.taskIds.eq_of_mem inTable member same
  rw [isRow] at claimable
  exact RequestTask.not_terminal_of_claimable claimable terminal

/-- Only running tasks are extended. -/
theorem extendRow_of_terminal {row : RequestTask}
    (terminal : row.status.Terminal) (workerId taskId : String)
    (leaseUntil : Time) :
    extendRow workerId taskId leaseUntil row = row := by
  unfold extendRow
  rw [if_neg]
  intro hit
  have leased := (Bool.and_eq_true _ _ ▸ hit).2
  rw [(RequestTask.leasedBy_iff.mp leased).1] at terminal
  exact terminal

theorem extendRow_status (workerId taskId : String) (leaseUntil : Time)
    (row : RequestTask) :
    (extendRow workerId taskId leaseUntil row).status = row.status := by
  unfold extendRow
  split
  next => rfl
  next => rfl

theorem extendRow_attempt (workerId taskId : String) (leaseUntil : Time)
    (row : RequestTask) :
    (extendRow workerId taskId leaseUntil row).attempt = row.attempt := by
  unfold extendRow
  split
  next => rfl
  next => rfl

theorem revises_refl (database : Database) (outbox : List OutboxEvent) :
    Revises database { database with outbox } id id :=
  ⟨(List.map_id _).symm, (List.map_id _).symm, fun _ => ⟨rfl, rfl⟩,
    fun _ => ⟨rfl, rfl⟩⟩

/-! ## Intake -/

theorem unused_iff {database : Database} {ids : List String} :
    database.unused ids = true ↔
      "" ∉ ids ∧ (∀ request ∈ database.requests, request.id ∉ ids) ∧
        (∀ task ∈ database.tasks, task.id ∉ ids) ∧
        ∀ event ∈ database.outbox, event.id ∉ ids := by
  simp [unused, and_assoc]

section Intake

variable {database : Database} {intake : Intake} {runtime : Runtime}

theorem insertRows_task (taskId : String) :
    (intake.insertRows runtime database).task taskId =
      (database.task taskId).or
        (Table.get RequestTask.id taskId intake.tasks) :=
  Table.get_append taskId database.tasks intake.tasks

theorem insertRows_request (requestId : String) :
    (intake.insertRows runtime database).request requestId =
      (database.request requestId).or
        (Table.get PrivacyRequest.id requestId [intake.request runtime]) :=
  Table.get_append requestId database.requests [intake.request runtime]

/-- The requests that were there keep their tasks. -/
theorem insertRows_tasksOf (fresh : database.unused intake.drawnIds = true)
    {requestId : String} {row : PrivacyRequest}
    (found : database.request requestId = some row) :
    (intake.insertRows runtime database).tasksOf requestId =
      database.tasksOf requestId := by
  obtain ⟨_, freshRequests, _, _⟩ := unused_iff.mp fresh
  obtain ⟨member, same⟩ := request_mem found
  have foreign : (intake.tasks.filter fun task =>
      decide (task.requestId = requestId)) = [] := by
    rw [List.filter_eq_nil_iff]
    intro task inBlock
    obtain ⟨_, _, _, owner⟩ := Intake.mem_tasks inBlock
    rw [decide_eq_true_iff, owner]
    intro isOld
    apply freshRequests row member
    rw [same, ← isOld]
    exact intake.mem_drawnIds_zero
  unfold tasksOf Intake.insertRows
  rw [List.filter_append, foreign, List.append_nil]

/-- The tasks of a new request are the ones its intake adds. -/
theorem insertRows_tasksOf_new (formed : database.WellFormed)
    (fresh : database.unused intake.drawnIds = true) :
    (intake.insertRows runtime database).tasksOf (intake.fresh.ids 0) =
      intake.tasks := by
  obtain ⟨_, freshRequests, _, _⟩ := unused_iff.mp fresh
  have older : database.tasksOf (intake.fresh.ids 0) = [] := by
    unfold tasksOf
    rw [List.filter_eq_nil_iff]
    intro task inTable
    rw [decide_eq_true_iff]
    intro owner
    obtain ⟨request, found⟩ := formed.owned task inTable
    obtain ⟨member, same⟩ := request_mem found
    apply freshRequests request member
    rw [same, owner]
    exact intake.mem_drawnIds_zero
  have newer : (intake.tasks.filter fun task =>
      decide (task.requestId = intake.fresh.ids 0)) = intake.tasks := by
    apply List.filter_eq_self.mpr
    intro task member
    obtain ⟨_, _, _, owner⟩ := Intake.mem_tasks member
    exact decide_eq_true owner
  unfold tasksOf at older ⊢
  unfold Intake.insertRows
  rw [List.filter_append, older, newer, List.nil_append]

theorem WellFormed.insertRows (formed : database.WellFormed)
    (nodup : intake.drawnIds.Nodup)
    (fresh : database.unused intake.drawnIds = true) :
    (intake.insertRows runtime database).WellFormed := by
  obtain ⟨nonempty, freshRequests, freshTasks, _⟩ := unused_iff.mp fresh
  constructor
  · apply formed.taskIds.append
    · unfold Table.KeyUnique
      rw [Intake.tasks_map_id]
      exact Intake.nodup_taskIds nodup
    · intro old oldMember new newMember same
      apply freshTasks old oldMember
      rw [same]
      exact Intake.task_id_mem newMember
  · have single : Table.KeyUnique PrivacyRequest.id
        [intake.request runtime] := List.nodup_singleton _
    apply formed.requestIds.append single
    intro old oldMember new newMember same
    apply freshRequests old oldMember
    rw [same, List.mem_singleton.mp newMember]
    exact intake.mem_drawnIds_zero
  · intro task member
    rw [insertRows_request]
    rcases List.mem_append.mp member with old | new
    · obtain ⟨owner, found⟩ := formed.owned task old
      exact ⟨owner, by rw [found]; rfl⟩
    · obtain ⟨_, _, _, owner⟩ := Intake.mem_tasks new
      cases located : database.request task.requestId with
      | some row => exact ⟨row, rfl⟩
      | none =>
          refine ⟨intake.request runtime, ?_⟩
          rw [owner]
          simp [Table.get, Intake.request]
  · intro task member
    rcases List.mem_append.mp member with old | new
    · exact formed.named task old
    · intro isEmpty
      apply nonempty
      rw [← isEmpty]
      exact Intake.task_id_mem new

end Intake

end Database

/-- The tables after an action: those of an intake, or a revision. -/
theorem Effect.tables {deployment : Deployment} {state next : State}
    {action : Action} (effect : Effect deployment state action next) :
    (∃ intake : Intake, intake.drawnIds.Nodup ∧
        state.database.unused intake.drawnIds = true ∧
        next.database =
          intake.insertRows deployment.runtime state.database) ∨
      ∃ task request,
        Database.Revises state.database next.database task request := by
  cases effect with
  | created intake nodup fresh _ => exact .inl ⟨intake, nodup, fresh, rfl⟩
  | relayed => exact .inr ⟨_, _, Database.revises_refl _ _⟩
  | opened | moved | selected | locked | acked =>
      exact .inr ⟨_, _, Database.revises_refl _ _⟩
  | messageClaimed | batchClaimed =>
      exact .inr ⟨_, _, Database.markClaimed_revises ..⟩
  | recorded => exact .inr ⟨_, _, Database.recordOutcome_revises ..⟩
  | refreshed => exact .inr ⟨_, _, Database.commitRefresh_revises ..⟩
  | extended => exact .inr ⟨_, _, Database.extendTaskLease_revises ..⟩

theorem Effect.wellFormed {deployment : Deployment} {state next : State}
    {action : Action} (effect : Effect deployment state action next)
    (formed : state.database.WellFormed) : next.database.WellFormed := by
  rcases effect.tables with ⟨intake, nodup, fresh, inserted⟩ | revised
  · rw [inserted]
    exact formed.insertRows nodup fresh
  · obtain ⟨task, request, revises⟩ := revised
    exact formed.revise revises

/-- Sessions file their task copies under the copies' own keys. -/
def Session.Keyed (session : Session) : Prop :=
  ∀ taskId copy, session.task taskId = some copy → copy.id = taskId

theorem Session.keyed_empty : Session.empty.Keyed := by
  intro taskId copy held
  cases held

theorem Session.Keyed.load {session : Session} (keyed : session.Keyed)
    {rows : List RequestTask} {taskId : String} {copy : RequestTask}
    (held : (session.task taskId).or
      (Table.get RequestTask.id taskId rows) = some copy) :
    copy.id = taskId := by
  rcases Option.or_eq_some_iff.mp held with kept | ⟨_, fresh⟩
  · exact keyed taskId copy kept
  · exact (Table.get_mem fresh).2

/-- What holds in every reachable state without any condition. -/
structure State.Tidy (state : State) : Prop where
  tables : state.database.WellFormed
  keyed : ∀ call ∈ state.calls, call.session.Keyed

/-- A step that replaces or adds one call keeps the other sessions. -/
private theorem State.Tidy.replace {state next : State} (tidy : state.Tidy)
    (call : Call) (tables : next.database.WellFormed)
    (calls : ∀ other ∈ next.calls, other = call ∨ other ∈ state.calls)
    (keyed : call.session.Keyed) : next.Tidy := by
  refine ⟨tables, ?_⟩
  intro other member
  rcases calls other member with replaced | kept
  · rw [replaced]
    exact keyed
  · exact tidy.keyed other kept

theorem State.Tidy.effect {deployment : Deployment} {state next : State}
    {action : Action} (tidy : state.Tidy)
    (effect : Effect deployment state action next) : next.Tidy := by
  have tables := effect.wellFormed tidy.tables
  cases effect with
  | created | relayed | extended => exact ⟨tables, tidy.keyed⟩
  | opened =>
      exact tidy.replace _ tables (fun other => State.mem_append_call)
        Session.keyed_empty
  | moved action index call after artifacts found move =>
      refine tidy.replace _ tables (fun other => State.mem_put) ?_
      rcases move.frame with closed | ⟨same, _⟩
      · rw [closed]
        exact Session.keyed_empty
      · rw [same]
        exact tidy.keyed call (List.mem_of_getElem? found)
  | messageClaimed =>
      exact tidy.replace _ tables (fun other => State.mem_put)
        Session.keyed_empty
  | batchClaimed arguments session taskIds selected claims copies =>
      refine tidy.replace _ tables (fun other => State.mem_append_call) ?_
      intro taskId copy held
      obtain ⟨row, _, same, _, rfl⟩ := copies taskId copy held
      exact same
  | selected index call taskId todo row found =>
      refine tidy.replace _ tables (fun other => State.mem_put) ?_
      intro otherId copy held
      exact (tidy.keyed call (List.mem_of_getElem? found)).load held
  | recorded index call taskId work task request now found phase held =>
      have keyed := tidy.keyed call (List.mem_of_getElem? found)
      refine tidy.replace _ tables (fun other => State.mem_put) ?_
      unfold Call.afterRecord
      split
      next => exact Session.keyed_empty
      next =>
        intro otherId copy heldAfter
        by_cases own : otherId = task.id
        · have settled : task.settle deployment.settings call.executor
              work.ending = copy := by
            simpa [Session.putRequest, Session.putTask, own] using heldAfter
          rw [← settled, own, RequestTask.settle_id]
        · apply keyed otherId copy
          simpa [Session.putRequest, Session.putTask, own] using heldAfter
  | locked index call requestId own session found target =>
      refine tidy.replace _ tables (fun other => State.mem_put) ?_
      intro taskId copy held
      rw [Session.loadRefresh_task] at held
      cases target with
      | recorded =>
          exact (tidy.keyed call (List.mem_of_getElem? found)).load held
      | duplicate => exact Session.keyed_empty.load held
  | refreshed index call requestId own reference request noticeId now found =>
      exact tidy.replace _ tables (fun other => State.mem_put)
        (tidy.keyed call (List.mem_of_getElem? found))
  | acked =>
      exact tidy.replace _ tables (fun other => State.mem_put)
        Session.keyed_empty

theorem State.Tidy.step {deployment : Deployment} {state next : State}
    {action : Action} (tidy : state.Tidy)
    (stepped : step deployment state action = some next) : next.Tidy :=
  tidy.effect (effect_of_step tidy.tables.taskIds stepped)

theorem State.tidy_initial : State.initial.Tidy := by
  refine ⟨⟨List.nodup_nil, List.nodup_nil, ?_, ?_⟩, ?_⟩
  · intro task member
    cases member
  · intro task member
    cases member
  · intro call member
    cases member

end FleetPrivacy
