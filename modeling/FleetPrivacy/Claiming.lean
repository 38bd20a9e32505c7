import FleetPrivacy.ControlPlane

/-!
# The three claim statements compared

`claim_tasks` selects and mutates on PostgreSQL and updates with a subquery
elsewhere; `claim_message_task` updates one row.  With no other transaction
open the three take the same tasks and write the same rows, but for the tasks
whose lease `claim_message_task` cannot compare on SQLite.
-/

namespace FleetPrivacy

/-- The task is `RUNNING` under a lease that has expired. -/
def RequestTask.overdue (now : Time) (task : RequestTask) : Bool :=
  decide (task.status = .running) && task.claimable now

/-- The rows that the filter selects and that were created before the task. -/
def ClaimArguments.ahead (arguments : ClaimArguments)
    (tasks : List RequestTask) (task : RequestTask) : Nat :=
  tasks.countP fun other =>
    arguments.filter other && decide (other.createdAt < task.createdAt)

/-- The table without the other tasks that can be claimed. -/
def Database.onlyClaimable (database : Database) (now : Time)
    (taskId : String) : Database :=
  { database with
    tasks := database.tasks.filter fun task =>
      decide (task.id = taskId) || !task.claimable now }

/-- The tenant filter, when there is one, is the task's own tenant. -/
def ClaimArguments.Covers (arguments : ClaimArguments) (database : Database)
    (taskId : String) : Prop :=
  ∀ row ∈ database.tasks, row.id = taskId →
    ∀ tenantId, arguments.tenantId = some tenantId → row.tenantId = tenantId

/-- What holds of `claim_message_task` for one task: it returns `CLAIMED`
exactly when the task can be claimed, then writes what `claim_tasks` writes
once no other task can be claimed, and else writes nothing. -/
structure ClaimMessageTaskAgrees (settings : Settings) (dialect : Dialect)
    (arguments : ClaimArguments) (database : Database)
    (taskId : String) : Prop where
  claims : (runClaimMessageTask settings dialect arguments.workerId taskId
      arguments.now database).2 = some .claimed ↔
    ∃ row ∈ database.tasks, row.id = taskId ∧
      row.claimable arguments.now = true
  otherwise : (runClaimMessageTask settings dialect arguments.workerId taskId
      arguments.now database).2 ≠ some .claimed →
    (runClaimMessageTask settings dialect arguments.workerId taskId
      arguments.now database).1 = database
  agrees : (runClaimMessageTask settings dialect arguments.workerId taskId
      arguments.now database).2 = some .claimed →
    arguments.Covers database taskId → ∀ branch,
      (claimTasks settings branch arguments
          (database.onlyClaimable arguments.now taskId)).1 =
        (runClaimMessageTask settings dialect arguments.workerId taskId
          arguments.now database).1.onlyClaimable arguments.now taskId ∧
      ((∀ row ∈ database.tasks, row.claimable arguments.now = true →
          row.id = taskId) →
        (claimTasks settings branch arguments database).1 =
          (runClaimMessageTask settings dialect arguments.workerId taskId
            arguments.now database).1)

/-! ## Claims by the same ids -/

theorem Database.markClaimed_congr {first second : List String}
    (same : ∀ id, id ∈ first ↔ id ∈ second) (database : Database)
    (workerId : String) (leaseUntil now : Time) :
    database.markClaimed first workerId leaseUntil now =
      database.markClaimed second workerId leaseUntil now := by
  simp only [Database.markClaimed, Database.requestIdsOf, same]

section Selection

variable {arguments : ClaimArguments} {settings : Settings}
  {tasks : List RequestTask}

/-- The candidates are the rows with fewer than `limit` rows ahead of them. -/
theorem ClaimArguments.mem_candidates_iff
    (distinct : (tasks.map RequestTask.createdAt).Nodup)
    (task : RequestTask) :
    task ∈ arguments.candidates settings [] tasks ↔
      task ∈ tasks ∧ arguments.filter task = true ∧
        arguments.ahead tasks task < arguments.limit settings := by
  have chosen : ∀ row, row ∈ tasks.filter (fun task =>
      arguments.filter task && decide (task.id ∉ [])) ↔
        row ∈ tasks ∧ arguments.filter row = true := by
    intro row
    simp [List.mem_filter]
  have rank := distinct.sublist ((List.filter_sublist (p := fun task =>
    arguments.filter task && decide (task.id ∉ []))).map RequestTask.createdAt)
  have counted : ((tasks.filter fun task =>
      arguments.filter task && decide (task.id ∉ [])).countP fun other =>
        decide (other.createdAt < task.createdAt)) =
      arguments.ahead tasks task := by
    rw [List.countP_filter, ClaimArguments.ahead]
    apply List.countP_congr
    intro other _
    simp [and_comm]
  constructor
  · intro member
    obtain ⟨inTable, matching⟩ := mem_candidates member
    have first := (Table.mem_take_insertionSort_iff rank
      ((chosen task).mpr ⟨inTable, matching⟩) _).mp member
    rw [counted] at first
    exact ⟨inTable, matching, first⟩
  · rintro ⟨inTable, matching, few⟩
    apply (Table.mem_take_insertionSort_iff rank
      ((chosen task).mpr ⟨inTable, matching⟩) _).mpr
    rw [counted]
    exact few

end Selection

section Agreement

variable {settings : Settings} {arguments : ClaimArguments}
  {database : Database}

/-- Each branch of `claim_tasks` returns the ids of the candidates. -/
theorem mem_claimTasks_iff (dialect : Dialect)
    (unique : Table.KeyUnique RequestTask.id database.tasks)
    (distinct : (database.tasks.map RequestTask.createdAt).Nodup)
    (alone : arguments.locked = []) (id : String) :
    id ∈ (claimTasks settings dialect arguments database).2.2 ↔
      ∃ row ∈ database.tasks, row.id = id ∧ arguments.filter row = true ∧
        arguments.ahead database.tasks row < arguments.limit settings := by
  have candidate : ∀ task, task ∈ arguments.candidates settings []
      database.tasks ↔ _ :=
    ClaimArguments.mem_candidates_iff distinct
  cases dialect with
  | postgresql =>
      simp only [claimTasks, alone, List.mem_map, candidate]
      constructor
      · rintro ⟨row, ⟨inTable, matching, few⟩, same⟩
        exact ⟨row, inTable, same, matching, few⟩
      · rintro ⟨row, inTable, same, matching, few⟩
        exact ⟨row, ⟨inTable, matching, few⟩, same⟩
  | sqlite =>
      simp only [claimTasks, List.mem_map, List.mem_filter, Bool.and_eq_true,
        decide_eq_true_iff, candidate]
      constructor
      · rintro ⟨row, ⟨inTable, ⟨other, ⟨present, _, few⟩, shared⟩, matching⟩,
          same⟩
        have equal := unique.eq_of_mem present inTable shared
        subst equal
        exact ⟨other, inTable, same, matching, few⟩
      · rintro ⟨row, inTable, same, matching, few⟩
        exact ⟨row, ⟨inTable, ⟨row, ⟨inTable, matching, few⟩, rfl⟩, matching⟩,
          same⟩

/-- The rows that `claim_tasks` writes are known from its ids. -/
theorem claimTasks_database (dialect : Dialect)
    (unique : Table.KeyUnique RequestTask.id database.tasks)
    {taskIds : List String}
    (same : ∀ id, id ∈ (claimTasks settings dialect arguments database).2.2 ↔
      id ∈ taskIds) :
    (claimTasks settings dialect arguments database).1 =
      database.markClaimed taskIds arguments.workerId
        (arguments.leaseUntil settings) arguments.now := by
  obtain ⟨session, returned, claimed, _⟩ :=
    claimTasks_spec settings dialect arguments unique
  rw [claimed] at same ⊢
  exact Database.markClaimed_congr same database _ _ _

theorem ClaimArguments.limit_eq {size : Nat}
    (batch : arguments.batchSize = some size) (positive : 1 ≤ size) :
    arguments.limit settings = size := by
  unfold ClaimArguments.limit
  rw [batch]
  cases size with
  | zero => omega
  | succ size => rfl

theorem ClaimArguments.filter_eq_of_covers {row : RequestTask}
    (inTable : row ∈ database.tasks)
    (covers : arguments.Covers database row.id) :
    arguments.filter row = row.claimable arguments.now := by
  unfold ClaimArguments.filter
  cases tenant : arguments.tenantId with
  | none => simp
  | some tenantId => simp [covers row inTable rfl tenantId tenant]

/-- `claim_tasks` on a table where only one task can be claimed. -/
theorem claimTasks_onlyClaimable (dialect : Dialect)
    (unique : Table.KeyUnique RequestTask.id database.tasks)
    (distinct : (database.tasks.map RequestTask.createdAt).Nodup)
    (alone : arguments.locked = []) {size : Nat}
    (batch : arguments.batchSize = some size) (positive : 1 ≤ size)
    {row : RequestTask} (inTable : row ∈ database.tasks)
    (claimable : row.claimable arguments.now = true)
    (covers : arguments.Covers database row.id)
    (only : ∀ other ∈ database.tasks,
      other.claimable arguments.now = true → other.id = row.id) :
    (claimTasks settings dialect arguments database).1 =
      database.markClaimed [row.id] arguments.workerId
        (arguments.leaseUntil settings) arguments.now := by
  apply claimTasks_database dialect unique
  intro id
  rw [mem_claimTasks_iff dialect unique distinct alone, List.mem_singleton]
  constructor
  · rintro ⟨other, present, rfl, matching, _⟩
    exact only other present (ClaimArguments.claimable_of_filter matching)
  · rintro rfl
    refine ⟨row, inTable, rfl, ?_, ?_⟩
    · rw [ClaimArguments.filter_eq_of_covers inTable covers]
      exact claimable
    · -- another row ahead could be claimed too, so it would be this one
      have none : arguments.ahead database.tasks row = 0 := by
        unfold ClaimArguments.ahead
        rw [List.countP_eq_zero]
        intro other present
        rw [Bool.and_eq_true, decide_eq_true_iff]
        rintro ⟨matching, before⟩
        have shared := only other present
          (ClaimArguments.claimable_of_filter matching)
        rw [unique.eq_of_mem present inTable shared] at before
        exact lt_irrefl _ before
      rw [none, ClaimArguments.limit_eq batch positive]
      exact positive

end Agreement

/-! ## One message -/

section Message

variable {settings : Settings} {dialect : Dialect} {workerId taskId : String}
  {now : Time} {database : Database}

/-- Of the tasks that can be claimed, SQLite fails to compare the overdue
ones. -/
theorem RequestTask.incomparable_of_claimable {row : RequestTask}
    (claimable : row.claimable now = true) :
    row.incomparable dialect = true ↔
      dialect = .sqlite ∧ row.overdue now = true := by
  rw [RequestTask.incomparable_iff, RequestTask.overdue, claimable,
    Bool.and_true, decide_eq_true_iff]
  constructor
  · rintro ⟨isSqlite, running, _⟩
    exact ⟨isSqlite, running⟩
  · rintro ⟨isSqlite, running⟩
    refine ⟨isSqlite, running, ?_⟩
    rcases RequestTask.claimable_iff.mp claimable with
      pending | ⟨_, expiry, lease, _⟩
    · rw [pending] at running
      cases running
    · simp [lease]

/-- `claim_message_task` succeeds on a task that can be claimed, unless its
comparison raises. -/
theorem runClaimMessageTask_of_claimable
    (unique : Table.KeyUnique RequestTask.id database.tasks)
    {row : RequestTask} (inTable : row ∈ database.tasks)
    (claimable : row.claimable now = true)
    (comparable : row.incomparable dialect = false) :
    runClaimMessageTask settings dialect workerId row.id now database =
      (database.markClaimed [row.id] workerId (now + settings.leaseSeconds) now,
        some .claimed) := by
  have open_ := RequestTask.not_terminal_of_claimable claimable
  unfold runClaimMessageTask
  rw [unique.get_eq_some inTable]
  simp only [if_neg open_, comparable, Bool.false_eq_true, if_false]
  cases attempted : claimMessageTask settings workerId row.id now database with
  | none =>
      have refused := claimMessageTask_eq_none attempted row inTable rfl
      rw [claimable] at refused
      cases refused
  | some next =>
      rw [(claimMessageTask_eq_some unique attempted).1]

/-- It raises where the comparison does. -/
theorem runClaimMessageTask_of_incomparable
    (unique : Table.KeyUnique RequestTask.id database.tasks)
    {row : RequestTask} (inTable : row ∈ database.tasks)
    (incomparable : row.incomparable dialect = true) :
    runClaimMessageTask settings dialect workerId row.id now database =
      (database, none) := by
  have open_ := RequestTask.not_terminal_of_incomparable incomparable
  unfold runClaimMessageTask
  rw [unique.get_eq_some inTable]
  simp only [if_neg open_, if_pos incomparable]

/-- It claims only what can be claimed. -/
theorem claimable_of_runClaimMessageTask
    (unique : Table.KeyUnique RequestTask.id database.tasks)
    (claimed : (runClaimMessageTask settings dialect workerId taskId now
      database).2 = some .claimed) :
    ∃ row ∈ database.tasks, row.id = taskId ∧ row.claimable now = true := by
  rcases runClaimMessageTask_database settings dialect workerId taskId now
      database with ⟨refused, _⟩ | ⟨next, taken, _⟩
  · exact absurd claimed refused
  · exact (claimMessageTask_eq_some unique taken).2.claimable taskId
      (List.mem_singleton_self taskId)

/-- Otherwise it leaves the database alone. -/
theorem runClaimMessageTask_of_refused
    (refused : (runClaimMessageTask settings dialect workerId taskId now
      database).2 ≠ some .claimed) :
    (runClaimMessageTask settings dialect workerId taskId now database).1 =
      database := by
  rcases runClaimMessageTask_database settings dialect workerId taskId now
      database with ⟨_, same⟩ | ⟨next, _, claimed⟩
  · exact same
  · rw [claimed] at refused
    exact absurd rfl refused

/-- A claim of one task leaves the other claimable tasks alone. -/
theorem Database.onlyClaimable_markClaimed (leaseUntil : Time) :
    (database.markClaimed [taskId] workerId leaseUntil now).onlyClaimable now
        taskId =
      (database.onlyClaimable now taskId).markClaimed [taskId] workerId
        leaseUntil now := by
  have requests : (database.onlyClaimable now taskId).requestIdsOf [taskId] =
      database.requestIdsOf [taskId] := by
    unfold Database.requestIdsOf Database.onlyClaimable
    rw [Table.filter_filter_of_imp]
    intro row _ hit
    simp at hit
    simp [hit]
  have tasks : (Table.updateWhere (fun task => decide (task.id ∈ [taskId]))
        (RequestTask.claim workerId leaseUntil) database.tasks).filter
          (fun task => decide (task.id = taskId) || !task.claimable now) =
      Table.updateWhere (fun task => decide (task.id ∈ [taskId]))
        (RequestTask.claim workerId leaseUntil)
        (database.tasks.filter fun task =>
          decide (task.id = taskId) || !task.claimable now) := by
    induction database.tasks with
    | nil => rfl
    | cons row rows induction =>
        simp only [Table.updateWhere, List.map_cons] at induction ⊢
        by_cases hit : row.id = taskId
        · simpa [hit] using induction
        · by_cases claimable : row.claimable now = true
          · simpa [hit, claimable] using induction
          · simpa [hit, claimable] using induction
  simp only [Database.onlyClaimable, Database.markClaimed] at requests ⊢
  rw [tasks]
  simp only [Database.mk.injEq, and_true]
  rw [requests]

end Message

/-- A task that can be claimed and compared is claimed as `claim_tasks` claims
it. -/
theorem claimMessageTaskAgrees_of_claimed {settings : Settings}
    {dialect : Dialect} {arguments : ClaimArguments} {database : Database}
    {size : Nat} (unique : Table.KeyUnique RequestTask.id database.tasks)
    (distinct : (database.tasks.map RequestTask.createdAt).Nodup)
    (alone : arguments.locked = [])
    (batch : arguments.batchSize = some size) (positive : 1 ≤ size)
    {row : RequestTask} (inTable : row ∈ database.tasks)
    (claimable : row.claimable arguments.now = true)
    (comparable : row.incomparable dialect = false) :
    ClaimMessageTaskAgrees settings dialect arguments database row.id := by
  have claimed : runClaimMessageTask settings dialect arguments.workerId row.id
      arguments.now database = (_, some .claimed) :=
    runClaimMessageTask_of_claimable unique inTable claimable comparable
  constructor
  · rw [claimed]
    exact ⟨fun _ => ⟨row, inTable, rfl, claimable⟩, fun _ => rfl⟩
  · intro refused
    rw [claimed] at refused
    exact absurd rfl refused
  · intro _ covers branch
    rw [claimed]
    constructor
    · rw [Database.onlyClaimable_markClaimed]
      apply claimTasks_onlyClaimable branch (unique.filter _)
        (distinct.sublist (List.filter_sublist.map _)) alone batch positive
        _ claimable
      · intro other present same
        exact covers other (List.mem_of_mem_filter present) same
      · intro other present open_
        have kept := (List.mem_filter.mp present).2
        simpa [open_] using kept
      · exact List.mem_filter.mpr ⟨inTable, by simp⟩
    · intro only
      exact claimTasks_onlyClaimable branch unique distinct alone batch
        positive inTable claimable covers only

/-- A task that cannot be claimed is left alone. -/
theorem claimMessageTaskAgrees_of_unclaimable {settings : Settings}
    {dialect : Dialect} {arguments : ClaimArguments} {database : Database}
    (unique : Table.KeyUnique RequestTask.id database.tasks) {taskId : String}
    (unclaimable : ¬ ∃ row ∈ database.tasks, row.id = taskId ∧
      row.claimable arguments.now = true) :
    ClaimMessageTaskAgrees settings dialect arguments database taskId := by
  have refused : (runClaimMessageTask settings dialect arguments.workerId
      taskId arguments.now database).2 ≠ some .claimed :=
    fun claimed => unclaimable (claimable_of_runClaimMessageTask unique claimed)
  constructor
  · exact ⟨fun claimed => absurd claimed refused,
      fun present => absurd present unclaimable⟩
  · exact runClaimMessageTask_of_refused
  · intro claimed
    exact absurd claimed refused

/-- With no other transaction open, the two branches of `claim_tasks` take the
first `size` claimable tasks of the filter and write the same rows, and
`claim_message_task` agrees with them on every task but the overdue ones of
SQLite. -/
theorem claim_statements_agree (settings : Settings)
    (arguments : ClaimArguments) (database : Database) (size : Nat)
    (unique : Table.KeyUnique RequestTask.id database.tasks)
    (distinct : (database.tasks.map RequestTask.createdAt).Nodup)
    (alone : arguments.locked = [])
    (batch : arguments.batchSize = some size) (positive : 1 ≤ size) :
    (∀ dialect id,
      id ∈ (claimTasks settings dialect arguments database).2.2 ↔
        ∃ row ∈ database.tasks, row.id = id ∧ arguments.filter row = true ∧
          arguments.ahead database.tasks row < size) ∧
    (claimTasks settings .postgresql arguments database).1 =
      (claimTasks settings .sqlite arguments database).1 ∧
    ∀ dialect taskId,
      ClaimMessageTaskAgrees settings dialect arguments database taskId ↔
        dialect = .postgresql ∨ ∀ row ∈ database.tasks, row.id = taskId →
          row.overdue arguments.now = false := by
  have selected : ∀ dialect id,
      id ∈ (claimTasks settings dialect arguments database).2.2 ↔
        ∃ row ∈ database.tasks, row.id = id ∧ arguments.filter row = true ∧
          arguments.ahead database.tasks row < size := by
    intro dialect id
    rw [mem_claimTasks_iff dialect unique distinct alone,
      ClaimArguments.limit_eq batch positive]
  refine ⟨selected, ?_, ?_⟩
  · rw [claimTasks_database .sqlite unique fun id => Iff.rfl]
    apply claimTasks_database .postgresql unique
    intro id
    rw [selected, selected]
  · intro dialect taskId
    constructor
    · intro agrees
      rw [or_iff_not_imp_left]
      rintro other row inTable rfl
      have isSqlite : dialect = .sqlite := by
        cases dialect with
        | postgresql => exact absurd rfl other
        | sqlite => rfl
      rw [Bool.eq_false_iff]
      intro overdue
      have claimable := (Bool.and_eq_true _ _ ▸ overdue).2
      have incomparable := (RequestTask.incomparable_of_claimable
        claimable).mpr ⟨isSqlite, overdue⟩
      have claimed := agrees.claims.mpr ⟨row, inTable, rfl, claimable⟩
      rw [runClaimMessageTask_of_incomparable unique inTable incomparable]
        at claimed
      cases claimed
    · intro condition
      by_cases claimable : ∃ row ∈ database.tasks, row.id = taskId ∧
          row.claimable arguments.now = true
      · obtain ⟨row, inTable, rfl, open_⟩ := claimable
        apply claimMessageTaskAgrees_of_claimed unique distinct alone batch
          positive inTable open_
        rw [Bool.eq_false_iff]
        intro incomparable
        obtain ⟨isSqlite, overdue⟩ :=
          (RequestTask.incomparable_of_claimable open_).mp incomparable
        rcases condition with isPostgresql | current
        · rw [isSqlite] at isPostgresql
          cases isPostgresql
        · rw [current row inTable rfl] at overdue
          cases overdue
      · exact claimMessageTaskAgrees_of_unclaimable unique claimable

private def demoRow (id : String) (status : TaskStatus)
    (leaseExpiresAt : Option Time) (createdAt : Time) : RequestTask :=
  { id, requestId := "request", tenantId := "tenant", source := id, status
    attempt := 1, leaseOwner := leaseExpiresAt.map fun _ => "lost"
    leaseExpiresAt, resultSummary := .obj [], error := none, createdAt }

/-- A pending task, an expired lease, a live lease and a finished task. -/
private def demoRows : Database :=
  { Database.empty with
    tasks := [
      demoRow "pending" .pending none 7,
      demoRow "expired" .running (some 10) 3,
      demoRow "leased" .running (some 90) 1,
      demoRow "done" .succeeded none 2] }

private def demoBatch : ClaimArguments :=
  { demoClaim "worker" 20 with batchSize := some 1 }

/-- The expired lease is older than the pending task, so it is taken first. -/
theorem oldest_claimable_task_is_taken :
    (claimTasks demoDeployment.settings .sqlite demoBatch demoRows).2.2 =
      ["expired"] ∧
    (claimTasks demoDeployment.settings .postgresql demoBatch demoRows).1 =
      (claimTasks demoDeployment.settings .sqlite demoBatch demoRows).1 ∧
    ClaimMessageTaskAgrees demoDeployment.settings .postgresql demoBatch
      demoRows "expired" ∧
    ClaimMessageTaskAgrees demoDeployment.settings .sqlite demoBatch demoRows
      "pending" := by
  have unique : (demoRows.tasks.map RequestTask.id).Nodup := by decide
  have agree := claim_statements_agree demoDeployment.settings demoBatch
    demoRows 1 unique (by decide) rfl rfl (by decide)
  exact ⟨by decide, agree.2.1, (agree.2.2 .postgresql "expired").mpr (.inl rfl),
    (agree.2.2 .sqlite "pending").mpr (.inr (by decide))⟩

/-- On SQLite the message of a crashed worker's task claims nothing. -/
theorem expired_lease_is_not_reclaimed :
    (demoRows.tasks.map RequestTask.createdAt).Nodup ∧
    (demoRow "expired" .running (some 10) 3).claimable demoBatch.now = true ∧
    runClaimMessageTask demoDeployment.settings .sqlite "worker" "expired" 20
      demoRows = (demoRows, none) ∧
    ¬ ClaimMessageTaskAgrees demoDeployment.settings .sqlite demoBatch demoRows
      "expired" := by
  have raised : runClaimMessageTask demoDeployment.settings .sqlite "worker"
      "expired" 20 demoRows = (demoRows, none) := rfl
  refine ⟨by decide, rfl, raised, ?_⟩
  intro agrees
  have claimed := agrees.claims.mpr
    ⟨demoRow "expired" .running (some 10) 3, by simp [demoRows], rfl, rfl⟩
  have nothing := congrArg Prod.snd raised
  rw [show demoBatch.workerId = "worker" from rfl,
    show demoBatch.now = 20 from rfl, nothing] at claimed
  cases claimed

end FleetPrivacy
