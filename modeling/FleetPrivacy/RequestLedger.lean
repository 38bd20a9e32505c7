import FleetPrivacy.Archive
import FleetPrivacy.Finalisation
import FleetPrivacy.Library.Settlement

/-!
# The ledger of privacy requests

What the control plane is for: a request is a job with one part for each
source, a part settles with a verdict and a result, and the request is closed
with the judgement on all of them.  Messages, leases, retries, sessions, row
locks and uploads are the machinery.  On PostgreSQL, while leases live and
refreshes of finished requests see no open copies, every step of the machinery
is one step of that ledger or none.
-/

namespace FleetPrivacy

open Transition Settlement

/-! ## The abstract service -/

/-- Key, tenant, subject, kind and sources of a request. -/
abbrev RequestFacts := String × String × String × RequestKind × List String

def RequestFacts.sources (facts : RequestFacts) : List String := facts.2.2.2.2

/-- Whether a source has succeeded, and its result. -/
abbrev SourceOutcome := Bool × Json

abbrev RequestJob := Job RequestFacts String SourceOutcome RequestStatus

abbrev RequestLedger :=
  Register String RequestFacts String SourceOutcome RequestStatus

def judge (outcomes : List (String × SourceOutcome)) : RequestStatus :=
  if ∀ outcome ∈ outcomes, outcome.2.1 = true then .completed
  else if ∀ outcome ∈ outcomes, outcome.2.1 = false then .failed
  else .partially

/-- A request has one part for each of its sources. -/
def requestRules : Rules RequestFacts String SourceOutcome RequestStatus :=
  { required := RequestFacts.sources, judge }

/-- An access request is delivered once one of its sources has succeeded and
all have settled. -/
def Delivers (job : RequestJob) : Prop :=
  job.facts.2.2.2.1 = .access ∧
    (job.verdict = some .completed ∨ job.verdict = some .partially)

def delivery (job : RequestJob) : List (String × Json) :=
  job.outcomes.map fun outcome => (outcome.1, outcome.2.2)

theorem verdict_of_delivers {job : RequestJob} (delivers : Delivers job) :
    job.verdict ≠ none := by
  rcases delivers.2 with completed | partially
  · rw [completed]
    exact Option.some_ne_none _
  · rw [partially]
    exact Option.some_ne_none _

/-- A delivery has a result for every source that was requested. -/
theorem delivery_sources {job : RequestJob} (sound : job.Sound requestRules)
    (delivers : Delivers job) :
    (delivery job).map Prod.fst = job.facts.sources := by
  obtain ⟨verdict, closed⟩ :=
    Option.ne_none_iff_exists'.mp (verdict_of_delivers delivers)
  obtain ⟨_, settled, _⟩ := sound.verdict verdict closed
  have named : (delivery job).map Prod.fst = job.outcomes.map Prod.fst :=
    List.map_map
  rw [named, Job.map_fst_outcomes settled]
  exact sound.names

/-! ## The abstraction -/

def RequestTask.outcome (task : RequestTask) : Option SourceOutcome :=
  if task.status.Terminal then
    some (decide (task.status = .succeeded), task.resultSummary)
  else none

def RequestTask.part (task : RequestTask) : String × Option SourceOutcome :=
  (task.source, task.outcome)

def PrivacyRequest.verdict (request : PrivacyRequest) : Option RequestStatus :=
  if request.status.Terminal then some request.status else none

def Database.job (database : Database) (request : PrivacyRequest) :
    RequestJob :=
  { facts := request.identity
    parts := (database.tasksOf request.id).map RequestTask.part
    verdict := request.verdict }

def Database.ledger (database : Database) : RequestLedger :=
  fun requestId => (database.request requestId).map database.job

/-! ## Revisions of the tables -/

theorem RequestTask.outcome_of_open {task : RequestTask}
    (open_ : ¬ task.status.Terminal) : task.outcome = none :=
  if_neg open_

theorem RequestTask.outcome_of_terminal {task : RequestTask}
    (terminal : task.status.Terminal) :
    task.outcome =
      some (decide (task.status = .succeeded), task.resultSummary) :=
  if_pos terminal

theorem PrivacyRequest.verdict_of_open {request : PrivacyRequest}
    (open_ : ¬ request.status.Terminal) : request.verdict = none :=
  if_neg open_

theorem PrivacyRequest.verdict_of_terminal {request : PrivacyRequest}
    (terminal : request.status.Terminal) :
    request.verdict = some request.status :=
  if_pos terminal

namespace Database

section Revision

variable {before after : Database} {task : RequestTask → RequestTask}
  {request : PrivacyRequest → PrivacyRequest}

theorem Revises.ledger_apply (revises : Revises before after task request)
    (requests : ∀ row, (request row).identity = row.identity)
    (requestId : String) :
    after.ledger requestId = (before.request requestId).map fun row =>
      { facts := row.identity
        parts := (before.tasksOf row.id).map fun old => (task old).part
        verdict := (request row).verdict } := by
  unfold ledger
  rw [revises.request_eq, Option.map_map]
  congr 1
  funext row
  unfold Function.comp job
  rw [requests, (revises.requestKey row).1, revises.tasksOf_eq, List.map_map]
  rfl

/-- A part changes when its task becomes terminal. -/
theorem Revises.part_eq (revises : Revises before after task request)
    (formed : before.WellFormed) (leads : before.Leads after)
    (tasks : ∀ row, (task row).identity = row.identity) {row : RequestTask}
    (member : row ∈ before.tasks)
    (settled : (task row).status.Terminal → row.status.Terminal) :
    (task row).part = row.part := by
  have source : (task row).source = row.source :=
    congrArg (fun columns => columns.2.2.2) (tasks row)
  have outcome : (task row).outcome = row.outcome := by
    by_cases terminal : row.status.Terminal
    · have found := formed.task_eq member
      obtain ⟨current, after_, _, kept⟩ := leads.task row.id row found
      rw [revises.task_eq, found] at after_
      cases after_
      obtain ⟨status, result⟩ := kept terminal
      unfold RequestTask.outcome
      rw [status, result]
    · rw [RequestTask.outcome_of_open terminal,
        RequestTask.outcome_of_open fun written => terminal (settled written)]
  exact Prod.ext source outcome

/-- A verdict changes when its request becomes terminal. -/
theorem Revises.verdict_eq (revises : Revises before after task request)
    (leads : before.Leads after) {requestId : String} {row : PrivacyRequest}
    (found : before.request requestId = some row)
    (closed : (request row).status.Terminal → row.status.Terminal) :
    (request row).verdict = row.verdict := by
  by_cases terminal : row.status.Terminal
  · obtain ⟨current, after_, _, kept, _⟩ := leads.request requestId row found
    rw [revises.request_eq, found] at after_
    cases after_
    unfold PrivacyRequest.verdict
    rw [kept terminal]
  · rw [PrivacyRequest.verdict_of_open terminal,
      PrivacyRequest.verdict_of_open fun written => terminal (closed written)]

/-- The job of a request none of whose rows become terminal. -/
theorem Revises.ledger_same (revises : Revises before after task request)
    (formed : before.WellFormed) (leads : before.Leads after)
    (tasks : ∀ row, (task row).identity = row.identity)
    (requests : ∀ row, (request row).identity = row.identity)
    {requestId : String}
    (settled : ∀ row ∈ before.tasksOf requestId,
      (task row).status.Terminal → row.status.Terminal)
    (closed : ∀ row, before.request requestId = some row →
      (request row).status.Terminal → row.status.Terminal) :
    after.ledger requestId = before.ledger requestId := by
  rw [revises.ledger_apply requests]
  unfold ledger
  cases found : before.request requestId with
  | none => rfl
  | some row =>
      rw [Option.map_some, Option.map_some]
      unfold job
      rw [revises.verdict_eq leads found (closed row found)]
      have parts : ((before.tasksOf row.id).map fun old => (task old).part) =
          (before.tasksOf row.id).map RequestTask.part := by
        apply List.map_congr_left
        intro old member
        refine revises.part_eq formed leads tasks (mem_tasksOf.mp member).1 ?_
        apply settled old
        rw [← (request_mem found).2]
        exact member
      rw [parts]

theorem Revises.ledger_eq (revises : Revises before after task request)
    (formed : before.WellFormed) (leads : before.Leads after)
    (tasks : ∀ row, (task row).identity = row.identity)
    (requests : ∀ row, (request row).identity = row.identity)
    (settled : ∀ row ∈ before.tasks,
      (task row).status.Terminal → row.status.Terminal)
    (closed : ∀ row ∈ before.requests,
      (request row).status.Terminal → row.status.Terminal) :
    after.ledger = before.ledger := by
  funext requestId
  apply revises.ledger_same formed leads tasks requests
  · intro row member
    exact settled row (mem_tasksOf.mp member).1
  · intro row found
    exact closed row (request_mem found).1

/-- One task becomes terminal, of an open request. -/
theorem Revises.ledger_settled (revises : Revises before after task request)
    (formed : before.WellFormed) (leads : before.Leads after)
    (tasks : ∀ row, (task row).identity = row.identity)
    (requests : ∀ row, (request row).identity = row.identity)
    {row : RequestTask} {owner : PrivacyRequest} (member : row ∈ before.tasks)
    (found : before.request row.requestId = some owner)
    (open_ : ¬ owner.status.Terminal) (unsettled : ¬ row.status.Terminal)
    (terminal : (task row).status.Terminal)
    (others : ∀ other ∈ before.tasks, other.id ≠ row.id →
      (task other).status.Terminal → other.status.Terminal)
    (closed : ∀ other ∈ before.requests,
      (request other).status.Terminal → other.status.Terminal) :
    Step requestRules before.ledger after.ledger := by
  have key := (request_mem found).2
  have inTasks : row ∈ before.tasksOf owner.id :=
    mem_tasksOf.mpr ⟨member, key.symm⟩
  obtain ⟨left, right, shape⟩ := List.append_of_mem inTasks
  have unique : ((before.tasksOf owner.id).map RequestTask.id).Nodup :=
    (List.Sublist.map _ List.filter_sublist).nodup formed.taskIds
  rw [shape, List.map_append, List.map_cons, List.nodup_middle,
    List.nodup_cons, ← List.map_append] at unique
  have kept : ∀ other ∈ left ++ right, (task other).part = other.part := by
    intro other beside
    have inRows : other ∈ before.tasksOf owner.id := by
      rw [shape]
      rcases List.mem_append.mp beside with inLeft | inRight
      · exact List.mem_append_left _ inLeft
      · exact List.mem_append_right _ (List.mem_cons_of_mem _ inRight)
    have inTable := (mem_tasksOf.mp inRows).1
    apply revises.part_eq formed leads tasks inTable
    apply others other inTable
    intro same
    apply unique.1
    rw [← same]
    exact List.mem_map_of_mem beside
  have source : (task row).source = row.source :=
    congrArg (fun columns => columns.2.2.2) (tasks row)
  have before_ : (before.job owner).parts =
      left.map RequestTask.part ++
        (row.source, none) :: right.map RequestTask.part := by
    rw [← RequestTask.outcome_of_open unsettled]
    unfold job
    rw [shape, List.map_append, List.map_cons]
    rfl
  have after_ : (before.tasksOf owner.id).map (fun old => (task old).part) =
      left.map RequestTask.part ++
        (row.source, some (decide ((task row).status = .succeeded),
          (task row).resultSummary)) :: right.map RequestTask.part := by
    rw [shape, List.map_append, List.map_cons,
      List.map_congr_left fun other inLeft =>
        kept other (List.mem_append_left _ inLeft),
      List.map_congr_left fun other inRight =>
        kept other (List.mem_append_right _ inRight),
      ← source, ← RequestTask.outcome_of_terminal terminal]
    rfl
  have jobFound : before.ledger row.requestId = some (before.job owner) := by
    unfold ledger
    rw [found]
    rfl
  have updated : after.ledger = Function.update before.ledger row.requestId
      (some { before.job owner with
        parts := left.map RequestTask.part ++
          (row.source, some (decide ((task row).status = .succeeded),
            (task row).resultSummary)) :: right.map RequestTask.part }) := by
    funext requestId
    by_cases same : requestId = row.requestId
    · subst same
      rw [Function.update_self, revises.ledger_apply requests, found,
        Option.map_some, after_,
        revises.verdict_eq leads found (closed owner (request_mem found).1)]
      rfl
    · rw [Function.update_of_ne same]
      apply revises.ledger_same formed leads tasks requests
      · intro other inOther
        obtain ⟨inTable, isOther⟩ := mem_tasksOf.mp inOther
        apply others other inTable
        intro sameTask
        apply same
        rw [← isOther, formed.taskIds.eq_of_mem inTable member sameTask]
      · intro other otherFound
        exact closed other (request_mem otherFound).1
  rw [updated]
  exact .settled _ _ _ _ _ _ _ jobFound
    (PrivacyRequest.verdict_of_open open_) before_

/-- What the outcomes call for, once all tasks of a request are terminal. -/
theorem judge_outcomes {database : Database} {owner : PrivacyRequest}
    (terminal : ∀ row ∈ database.tasksOf owner.id, row.status.Terminal) :
    judge (database.job owner).outcomes =
      finalStatus ((database.tasksOf owner.id).map RequestTask.status) := by
  have outcomes : (database.job owner).outcomes =
      (database.tasksOf owner.id).map fun row =>
        (row.source, decide (row.status = .succeeded), row.resultSummary) := by
    unfold Job.outcomes job
    rw [List.filterMap_map, ← List.filterMap_eq_map]
    apply List.filterMap_congr
    intro row member
    simp [RequestTask.part, RequestTask.outcome_of_terminal
      (terminal row member)]
  have failed : ∀ row ∈ database.tasksOf owner.id,
      (row.status ≠ .succeeded ↔ row.status = .failed) := by
    intro row member
    have settled := terminal row member
    cases status : row.status with
    | succeeded => simp
    | failed => simp
    | pending | running =>
        rw [status] at settled
        exact settled.elim
  unfold judge finalStatus
  rw [outcomes]
  simp only [List.forall_mem_map, decide_eq_true_iff, decide_eq_false_iff_not]
  congr 2
  exact propext (forall₂_congr failed)

/-- One request becomes terminal, with the status that its tasks derive. -/
theorem Revises.ledger_closed (revises : Revises before after task request)
    (formed : before.WellFormed) (leads : before.Leads after)
    (tasks : ∀ row, (task row).identity = row.identity)
    (requests : ∀ row, (request row).identity = row.identity)
    {owner : PrivacyRequest} (found : before.request owner.id = some owner)
    (open_ : ¬ owner.status.Terminal)
    (terminal : (request owner).status.Terminal)
    (derived : (request owner).status = deriveStatus
      ((before.tasksOf owner.id).map RequestTask.status))
    (settled : ∀ row ∈ before.tasks,
      (task row).status.Terminal → row.status.Terminal)
    (others : ∀ other ∈ before.requests, other.id ≠ owner.id →
      (request other).status.Terminal → other.status.Terminal) :
    Step requestRules before.ledger after.ledger := by
  obtain ⟨nonempty, all⟩ := (terminal_deriveStatus_iff _).mp
    (derived ▸ terminal)
  have rows : ∀ row ∈ before.tasksOf owner.id, row.status.Terminal :=
    fun row member => all row.status (List.mem_map_of_mem member)
  have jobFound : before.ledger owner.id = some (before.job owner) := by
    unfold ledger
    rw [found]
    rfl
  have updated : after.ledger = Function.update before.ledger owner.id
      (some { before.job owner with
        verdict := some (judge (before.job owner).outcomes) }) := by
    funext requestId
    by_cases same : requestId = owner.id
    · subst same
      rw [Function.update_self, revises.ledger_apply requests, found,
        Option.map_some, judge_outcomes rows,
        ← deriveStatus_eq_finalStatus nonempty all, ← derived,
        PrivacyRequest.verdict_of_terminal terminal]
      have parts : ((before.tasksOf owner.id).map fun old =>
            (task old).part) =
          (before.tasksOf owner.id).map RequestTask.part := by
        apply List.map_congr_left
        intro old member
        have inTable := (mem_tasksOf.mp member).1
        exact revises.part_eq formed leads tasks inTable (settled old inTable)
      rw [parts]
      rfl
    · rw [Function.update_of_ne same]
      apply revises.ledger_same formed leads tasks requests
      · intro row member
        exact settled row (mem_tasksOf.mp member).1
      · intro other otherFound
        obtain ⟨inTable, isOther⟩ := request_mem otherFound
        exact others other inTable (isOther ▸ same)
  rw [updated]
  apply Step.closed _ _ _ jobFound (PrivacyRequest.verdict_of_open open_)
  · intro empty
    apply nonempty
    rw [List.map_eq_nil_iff.mp empty]
    rfl
  · intro part member
    obtain ⟨row, inTasks, rfl⟩ := List.mem_map.mp member
    unfold RequestTask.part
    rw [RequestTask.outcome_of_terminal (rows row inTasks)]
    exact Option.some_ne_none _

end Revision

/-- An intake opens a job. -/
theorem ledger_insertRows {database : Database} {intake : Intake}
    {runtime : Runtime} (formed : database.WellFormed)
    (fresh : database.unused intake.drawnIds = true) :
    Step requestRules database.ledger
      (intake.insertRows runtime database).ledger := by
  obtain ⟨_, freshRequests, _, _⟩ := unused_iff.mp fresh
  have absent : database.request (intake.fresh.ids 0) = none := by
    cases found : database.request (intake.fresh.ids 0) with
    | none => rfl
    | some row =>
        obtain ⟨member, same⟩ := request_mem found
        refine absurd ?_ (freshRequests row member)
        rw [same]
        exact intake.mem_drawnIds_zero
  have opened : (intake.insertRows runtime database).ledger =
      Function.update database.ledger (intake.fresh.ids 0)
        (some (Job.fresh (intake.request runtime).identity
          (requestRules.required (intake.request runtime).identity))) := by
    funext requestId
    unfold ledger
    rw [insertRows_request]
    by_cases same : requestId = intake.fresh.ids 0
    · subst same
      have isNew : Table.get PrivacyRequest.id (intake.fresh.ids 0)
          [intake.request runtime] = some (intake.request runtime) := by
        simp [Table.get, Intake.request]
      rw [Function.update_self, absent, isNew, Option.none_or,
        Option.map_some]
      unfold job Job.fresh
      have isKey : (intake.request runtime).id = intake.fresh.ids 0 := rfl
      have parts : intake.tasks.map RequestTask.part =
          intake.command.sources.map fun source => (source, none) := by
        rw [← intake.tasks_map_source, List.map_map]
        apply List.map_congr_left
        intro task member
        obtain ⟨_, _, rfl⟩ := List.mem_map.mp member
        rfl
      rw [isKey, insertRows_tasksOf_new formed fresh, parts]
      rfl
    · have isOld : Table.get PrivacyRequest.id requestId
          [intake.request runtime] = none := by
        simp [Table.get, Intake.request, Ne.symm same]
      rw [Function.update_of_ne same, isOld, Option.or_none]
      cases found : database.request requestId with
      | none => rfl
      | some row =>
          rw [Option.map_some, Option.map_some]
          unfold job
          rw [(request_mem found).2, insertRows_tasksOf fresh found]
  rw [opened]
  apply Step.opened _ _ _ ?_ intake.command.sourcesNodup
  unfold ledger
  rw [absent]
  rfl

/-- Claimed tasks are `RUNNING`. -/
theorem claimRow_terminal {taskIds : List String} {workerId : String}
    {leaseUntil : Time} {row : RequestTask}
    (terminal : (claimRow taskIds workerId leaseUntil row).status.Terminal) :
    row.status.Terminal := by
  unfold claimRow at terminal
  split at terminal
  next => exact terminal.elim
  next => exact terminal

theorem ledger_markClaimed {database : Database} {taskIds : List String}
    {workerId : String} {leaseUntil now : Time} (formed : database.WellFormed)
    (leads : database.Leads
      (database.markClaimed taskIds workerId leaseUntil now)) :
    (database.markClaimed taskIds workerId leaseUntil now).ledger =
      database.ledger := by
  apply (markClaimed_revises ..).ledger_eq formed leads
    (claimRow_identity _ _ _) fun row => (startRow_keeps _ _ row).identity
  · intro row _
    exact claimRow_terminal
  · intro row _ terminal
    exact (startRow_keeps _ _ row).open_ terminal

end Database

/-! ## Steps -/

namespace Archived

variable {deployment : Deployment} {state next : State}

/-- The commit of an outcome settles its task, or schedules a retry. -/
theorem ledger_recorded (archived : Archived deployment state)
    {settings : Settings} {executor : Bool} {work : Work} {task : RequestTask}
    {request : PrivacyRequest} {now : Time}
    (leads : state.database.Leads (recordOutcome deployment.runtime settings
      executor work task request now state.database)) :
    (recordOutcome deployment.runtime settings executor work task request now
        state.database).ledger = state.database.ledger ∨
      Step requestRules state.database.ledger (recordOutcome deployment.runtime
        settings executor work task request now state.database).ledger := by
  have core := archived.steady.core
  have formed := core.tidy.tables
  have revises := Database.recordOutcome_revises deployment.runtime settings
    executor work task request now state.database
  have requests : ∀ row, (Database.verifyRow request now row).identity =
      row.identity := fun row => (Database.verifyRow_keeps _ _ row).identity
  have closed : ∀ row ∈ state.database.requests,
      (Database.verifyRow request now row).status.Terminal →
      row.status.Terminal :=
    fun row _ => (Database.verifyRow_keeps request now row).open_
  have others : ∀ {row : RequestTask}, row.id ≠ task.id →
      (Database.recordRow settings executor work.ending task
        row).status.Terminal → row.status.Terminal := by
    intro row different terminal
    rw [Database.recordRow_of_ne different] at terminal
    exact terminal
  by_cases settles : ∃ row ∈ state.database.tasks, ¬ row.status.Terminal ∧
      (Database.recordRow settings executor work.ending task
        row).status.Terminal
  · obtain ⟨row, member, unsettled, terminal⟩ := settles
    have isTask : row.id = task.id := by
      by_contra different
      exact unsettled (others different terminal)
    obtain ⟨owner, found⟩ := formed.owned row member
    right
    apply revises.ledger_settled formed leads
      (Database.recordRow_identity _ _ _ _) requests member found
      (core.request_open member unsettled found) unsettled terminal ?_ closed
    intro other _ different
    exact others (isTask ▸ different)
  · left
    apply revises.ledger_eq formed leads (Database.recordRow_identity _ _ _ _)
      requests ?_ closed
    intro row member terminal
    by_contra unsettled
    exact settles ⟨row, member, unsettled, terminal⟩

/-- The commit of a refresh closes its request, or leaves it as it is. -/
theorem ledger_refreshed (archived : Archived deployment state)
    {session : Session} {request : PrivacyRequest} {reference : Option String}
    {noticeId : String} {now : Time}
    (leads : state.database.Leads (commitRefresh deployment.runtime session
      request reference noticeId now state.database))
    (derived : ∀ requestId current,
      (commitRefresh deployment.runtime session request reference noticeId now
        state.database).request requestId = some current →
      current.status.Terminal →
      current.status = deriveStatus
        ((state.database.tasksOf requestId).map RequestTask.status)) :
    (commitRefresh deployment.runtime session request reference noticeId now
        state.database).ledger = state.database.ledger ∨
      Step requestRules state.database.ledger (commitRefresh deployment.runtime
        session request reference noticeId now state.database).ledger := by
  have formed := archived.steady.core.tidy.tables
  have revises := Database.commitRefresh_revises deployment.runtime session
    request reference noticeId now state.database
  have requests := Database.refreshRow_identity request
    (session.derivedStatus request.id) reference now
  have others : ∀ {row : PrivacyRequest}, row.id ≠ request.id →
      (Database.refreshRow request (session.derivedStatus request.id) reference
        now row).status.Terminal → row.status.Terminal := by
    intro row different terminal
    rw [Database.refreshRow, if_neg (by simpa using different)] at terminal
    exact terminal
  by_cases closes : ∃ row ∈ state.database.requests, ¬ row.status.Terminal ∧
      (Database.refreshRow request (session.derivedStatus request.id) reference
        now row).status.Terminal
  · obtain ⟨owner, member, open_, terminal⟩ := closes
    have isRequest : owner.id = request.id := by
      by_contra different
      exact open_ (others different terminal)
    have found := formed.request_eq member
    right
    apply revises.ledger_closed formed leads (fun _ => rfl) requests found open_
      terminal
    · apply derived owner.id _ _ terminal
      rw [revises.request_eq, found]
      rfl
    · intro row _ stays
      exact stays
    · intro other _ different
      exact others (isRequest ▸ different)
  · left
    apply revises.ledger_eq formed leads (fun _ => rfl) requests
    · intro row _ stays
      exact stays
    · intro row member terminal
      by_contra open_
      exact closes ⟨row, member, open_, terminal⟩

/-- Every step of the machinery is a step of the ledger or none. -/
theorem ledger_step (postgresql : deployment.dialect = .postgresql)
    (archived : Archived deployment state) {action : Action}
    (allowed : Archiving state action)
    (stepped : FleetPrivacy.step deployment state action = some next) :
    next.database.ledger = state.database.ledger ∨
      Step requestRules state.database.ledger next.database.ledger := by
  have core := archived.steady.core
  have formed := core.tidy.tables
  have effect := effect_of_step formed.taskIds stepped
  obtain ⟨later, leads⟩ := archived.step postgresql allowed stepped
  cases effect with
  | created intake nodup fresh absent =>
      exact .inr (Database.ledger_insertRows formed fresh)
  | relayed | opened | moved | selected | locked | acked => exact .inl rfl
  | messageClaimed | batchClaimed =>
      exact .inl (Database.ledger_markClaimed formed leads)
  | extended workerId taskId now =>
      left
      apply (Database.extendTaskLease_revises ..).ledger_eq formed leads
        (Database.extendRow_identity _ _ _) fun _ => rfl
      · intro row _ terminal
        rw [Database.extendRow_status] at terminal
        exact terminal
      · intro row _ terminal
        exact terminal
  | recorded => exact archived.ledger_recorded leads
  | refreshed index call requestId own reference request noticeId now =>
      apply archived.ledger_refreshed leads
      intro otherId current found terminal
      have written := later.steady.core.finished otherId current found terminal
      rw [(Database.commitRefresh_revises ..).tasksOf_eq, List.map_id]
        at written
      exact written

theorem ledger_attains (postgresql : deployment.dialect = .postgresql)
    (archived : Archived deployment state)
    {actions : List Action} {finish : State}
    (execution : Runs (FleetPrivacy.step deployment) Archiving state actions
      finish) :
    Attains requestRules state.database.ledger finish.database.ledger := by
  have preserved : ∀ {current : State} {action : Action} {next : State},
      Archived deployment current → Archiving current action →
      FleetPrivacy.step deployment current action = some next →
      Archived deployment next ∧
        Attains requestRules current.database.ledger next.database.ledger := by
    intro current action next currently allowed stepped
    refine ⟨(currently.step postgresql allowed stepped).1, ?_⟩
    rcases currently.ledger_step postgresql allowed stepped with same | step
    · rw [same]
      exact .refl
    · exact .single step
  exact execution.related (fun _ => .refl) (fun left right => left.trans right)
    preserved archived

/-! ## Deliveries -/

/-- What the artifact of a delivered request reports is its delivery. -/
theorem reports_eq_delivery (archived : Archived deployment state)
    {request : PrivacyRequest}
    (found : state.database.request request.id = some request)
    (terminal : request.status.Terminal) :
    state.database.reports request.id =
      delivery (state.database.job request) := by
  have rows := archived.steady.core.tasks_terminal found terminal
  unfold Database.reports delivery Job.outcomes Database.job
  rw [List.map_filterMap, List.filterMap_map, ← List.filterMap_eq_map]
  apply List.filterMap_congr
  intro row member
  simp [RequestTask.part, RequestTask.report,
    RequestTask.outcome_of_terminal (rows row member)]

theorem delivers_iff (archived : Archived deployment state)
    {request : PrivacyRequest} (member : request ∈ state.database.requests) :
    Delivers (state.database.job request) ↔ request.artifactPath ≠ none := by
  have found := archived.steady.core.tidy.tables.request_eq member
  have verdict : ∀ status : RequestStatus, status.Terminal →
      ((state.database.job request).verdict = some status ↔
        request.status = status) := by
    intro status terminal
    by_cases settled : request.status.Terminal
    · have written : (state.database.job request).verdict =
          some request.status := PrivacyRequest.verdict_of_terminal settled
      rw [written, Option.some_inj]
    · have open_ : (state.database.job request).verdict = none :=
        PrivacyRequest.verdict_of_open settled
      rw [open_]
      constructor
      · intro absurdity
        cases absurdity
      · intro same
        exact absurd (same ▸ terminal) settled
  unfold Delivers
  rw [verdict .completed trivial, verdict .partially trivial]
  constructor
  · rintro ⟨access, finished⟩
    exact archived.grounded.paths request member access finished
  · intro path
    obtain ⟨access, finished, _⟩ := archived.paths request.id request found path
    exact ⟨access, finished⟩

theorem delivered (archived : Archived deployment state)
    {request : PrivacyRequest} (member : request ∈ state.database.requests)
    (delivers : Delivers (state.database.job request)) :
    ∃ content, state.artifact deployment request = some content ∧
      ArtifactReports content (delivery (state.database.job request)) := by
  have found := archived.steady.core.tidy.tables.request_eq member
  obtain ⟨_, finished, content, stored, reports⟩ :=
    archived.paths request.id request found
      ((archived.delivers_iff member).mp delivers)
  refine ⟨content, stored, ?_⟩
  rw [← archived.reports_eq_delivery found
    (RequestStatus.terminal_of_finished finished)]
  exact reports

end Archived

/-- A request has an artifact if its job delivers, and then the object under
its key reports the delivery, a result for every requested source. -/
def State.DeliversJobs (deployment : Deployment) (state : State) : Prop :=
  ∀ request ∈ state.database.requests, ∃ job,
    state.database.ledger request.id = some job ∧
      (Delivers job ↔ request.artifactPath ≠ none) ∧
      (Delivers job →
        (delivery job).map Prod.fst = job.facts.sources ∧
        ∃ content, state.artifact deployment request = some content ∧
          ArtifactReports content (delivery job))

/-- On PostgreSQL, while leases live and refreshes of terminal requests see no
open copies, the service is a ledger of jobs: every step is one step of the
ledger or none, every job has one part for each requested source, facts, settled
outcomes and verdicts are final, every verdict is the judgement on the outcomes
of all sources, and the artifacts are the deliveries. -/
theorem service_refines_request_ledger (deployment : Deployment)
    (postgresql : deployment.dialect = .postgresql)
    {actions later : List Action} {middle finish : State}
    (start : Runs (step deployment) Archiving State.initial actions middle)
    (continuation : Runs (step deployment) Archiving middle later finish) :
    (∀ action next, Archiving finish action →
      step deployment finish action = some next →
      next.database.ledger = finish.database.ledger ∨
        Step requestRules finish.database.ledger next.database.ledger) ∧
      Attains requestRules (fun _ => none) middle.database.ledger ∧
      Attains requestRules middle.database.ledger finish.database.ledger ∧
      (∀ requestId job, middle.database.ledger requestId = some job →
        job.Sound requestRules ∧
          ∃ current, finish.database.ledger requestId = some current ∧
            job.Keeps current) ∧
      finish.DeliversJobs deployment := by
  have initially := Archived.initial deployment
  have preserved : ∀ {state : State} {action : Action} {next : State},
      Archived deployment state → Archiving state action →
      step deployment state action = some next → Archived deployment next :=
    fun archived allowed stepped => (archived.step postgresql allowed stepped).1
  have reached : Archived deployment middle :=
    start.invariant preserved initially
  have ended : Archived deployment finish :=
    continuation.invariant preserved reached
  have before : Attains requestRules (fun _ => none) middle.database.ledger :=
    initially.ledger_attains postgresql start
  have after := reached.ledger_attains postgresql continuation
  refine ⟨?_, before, after, ?_, ?_⟩
  · intro action next allowed stepped
    exact ended.ledger_step postgresql allowed stepped
  · intro requestId job found
    exact ⟨before.sound requestId job found, after.keeps found⟩
  · intro request member
    have found := ended.steady.core.tidy.tables.request_eq member
    have isJob : finish.database.ledger request.id =
        some (finish.database.job request) := by
      unfold Database.ledger
      rw [found]
      rfl
    refine ⟨finish.database.job request, isJob, ended.delivers_iff member, ?_⟩
    intro delivers
    have sound := Attains.sound (before.trans after) request.id _ isJob
    exact ⟨delivery_sources sound delivers, ended.delivered member delivers⟩

/-! The only source of a request settles, and a refresh closes it. -/

private def settledUnclosed : List Action :=
  .create demoRequest :: demoRelay 0 2 ++ .deliver "w1" 1 true ::
    demoExecution 0 demoSuccess

private def closedByRefresh : List Action :=
  [.refreshSelect 0, .upload 0 true 13, .refreshCommit 0 "n" 14, .ack 0]

private def State.verdicts (state : State) : List (Option RequestStatus) :=
  state.database.requests.map PrivacyRequest.verdict

theorem settled_request_is_closed :
    ∃ middle finish,
      Runs (step demoDeployment) Archiving State.initial settledUnclosed
        middle ∧
      Runs (step demoDeployment) Archiving middle closedByRefresh finish ∧
      middle.verdicts = [none] ∧ finish.verdicts = [some .completed] ∧
      Attains requestRules middle.database.ledger finish.database.ledger ∧
      finish.DeliversJobs demoDeployment := by
  have evaluated : (run (step demoDeployment) Archiving State.initial
      settledUnclosed).bind (fun middle =>
        (run (step demoDeployment) Archiving middle closedByRefresh).map
          fun finish => (middle.verdicts, finish.verdicts)) =
      some ([none], [some .completed]) := by
    decide +kernel
  obtain ⟨middle, reached, evaluated⟩ := Option.bind_eq_some_iff.mp evaluated
  obtain ⟨finish, continued, shape⟩ := Option.map_eq_some_iff.mp evaluated
  have start := runs_of_run reached
  have continuation := runs_of_run continued
  obtain ⟨_, _, after, _, delivers⟩ :=
    service_refines_request_ledger demoDeployment rfl start continuation
  exact ⟨middle, finish, start, continuation, congrArg Prod.fst shape,
    congrArg Prod.snd shape, after, delivers⟩

end FleetPrivacy
