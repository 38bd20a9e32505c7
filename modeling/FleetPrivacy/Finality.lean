import FleetPrivacy.Sessions

/-!
# Terminal results

Under what condition terminal task results and request statuses are final.
`Leads` relates the tables at two moments of a run; `Core` collects what the
sessions, the row locks and the terminal requests have to do with the committed
rows.
-/

namespace FleetPrivacy

open Transition

/-! ## Later tables -/

/-- Rows survive with their keys, and terminal ones with their results. -/
structure Database.Leads (before after : Database) : Prop where
  task : ∀ taskId row, before.task taskId = some row →
    ∃ current, after.task taskId = some current ∧
      current.requestId = row.requestId ∧
      (row.status.Terminal → current.status = row.status ∧
        current.resultSummary = row.resultSummary)
  request : ∀ requestId row, before.request requestId = some row →
    ∃ current, after.request requestId = some current ∧
      current.kind = row.kind ∧
      (row.status.Terminal → current.status = row.status) ∧
      (row.artifactPath ≠ none → current.artifactPath ≠ none)
  members : ∀ requestId row, before.request requestId = some row →
    (after.tasksOf requestId).map RequestTask.id =
      (before.tasksOf requestId).map RequestTask.id

/-- No request became terminal. -/
def Database.NoneFinished (before after : Database) : Prop :=
  ∀ requestId current, after.request requestId = some current →
    current.status.Terminal →
    ∃ row, before.request requestId = some row ∧ row.status.Terminal

namespace Database

theorem Leads.refl (database : Database) : database.Leads database := by
  refine ⟨?_, ?_, fun _ _ _ => rfl⟩
  · intro taskId row found
    exact ⟨row, found, rfl, fun _ => ⟨rfl, rfl⟩⟩
  · intro requestId row found
    exact ⟨row, found, rfl, fun _ => rfl, id⟩

theorem Leads.trans {first second third : Database}
    (left : first.Leads second) (right : second.Leads third) :
    first.Leads third := by
  constructor
  · intro taskId row found
    obtain ⟨middle, middleFound, middleKey, middleKept⟩ :=
      left.task taskId row found
    obtain ⟨last, lastFound, lastKey, lastKept⟩ :=
      right.task taskId middle middleFound
    refine ⟨last, lastFound, lastKey.trans middleKey, ?_⟩
    intro terminal
    obtain ⟨status, result⟩ := middleKept terminal
    obtain ⟨lastStatus, lastResult⟩ := lastKept (status ▸ terminal)
    exact ⟨lastStatus.trans status, lastResult.trans result⟩
  · intro requestId row found
    obtain ⟨middle, middleFound, middleKind, middleKept, middlePath⟩ :=
      left.request requestId row found
    obtain ⟨last, lastFound, lastKind, lastKept, lastPath⟩ :=
      right.request requestId middle middleFound
    refine ⟨last, lastFound, lastKind.trans middleKind, ?_, ?_⟩
    · intro terminal
      have status := middleKept terminal
      exact (lastKept (status ▸ terminal)).trans status
    · intro uploaded
      exact lastPath (middlePath uploaded)
  · intro requestId row found
    obtain ⟨middle, middleFound, _⟩ := left.request requestId row found
    exact (right.members requestId middle middleFound).trans
      (left.members requestId row found)

theorem Revises.leads {before after : Database}
    {task : RequestTask → RequestTask}
    {request : PrivacyRequest → PrivacyRequest}
    (revises : Revises before after task request)
    (tasks : ∀ row ∈ before.tasks, row.status.Terminal → task row = row)
    (requests : ∀ row ∈ before.requests, row.status.Terminal →
      (request row).status = row.status)
    (artifacts : ∀ row, row.artifactPath ≠ none →
      (request row).artifactPath ≠ none) : before.Leads after := by
  constructor
  · intro taskId row found
    refine ⟨task row, by rw [revises.task_eq, found]; rfl,
      (revises.taskKey row).2, ?_⟩
    intro terminal
    rw [tasks row (task_mem found).1 terminal]
    exact ⟨rfl, rfl⟩
  · intro requestId row found
    refine ⟨request row, by rw [revises.request_eq, found]; rfl,
      (revises.requestKey row).2, ?_, artifacts row⟩
    intro terminal
    exact requests row (request_mem found).1 terminal
  · intro requestId row _
    exact revises.ids_eq requestId

theorem Revises.noneFinished {before after : Database}
    {task : RequestTask → RequestTask}
    {request : PrivacyRequest → PrivacyRequest}
    (revises : Revises before after task request)
    (open_ : ∀ row ∈ before.requests, (request row).status.Terminal →
      row.status.Terminal) : before.NoneFinished after := by
  intro requestId current found terminal
  rw [revises.request_eq] at found
  obtain ⟨row, located, rfl⟩ := Option.map_eq_some_iff.mp found
  exact ⟨row, located, open_ row (request_mem located).1 terminal⟩

theorem leads_insertRows {database : Database} {intake : Intake}
    {runtime : Runtime} (fresh : database.unused intake.drawnIds = true) :
    database.Leads (intake.insertRows runtime database) := by
  constructor
  · intro taskId row found
    exact ⟨row, by rw [insertRows_task, found]; rfl, rfl, fun _ => ⟨rfl, rfl⟩⟩
  · intro requestId row found
    exact ⟨row, by rw [insertRows_request, found]; rfl, rfl, fun _ => rfl, id⟩
  · intro requestId row found
    rw [insertRows_tasksOf fresh found]

theorem noneFinished_insertRows (database : Database) (intake : Intake)
    (runtime : Runtime) :
    database.NoneFinished (intake.insertRows runtime database) := by
  intro requestId current found terminal
  rw [insertRows_request] at found
  rcases Option.or_eq_some_iff.mp found with old | ⟨_, new⟩
  · exact ⟨current, old, terminal⟩
  · obtain ⟨member, _⟩ := Table.get_mem new
    rw [List.mem_singleton.mp member] at terminal
    exact terminal.elim

/-- The statuses of a request's tasks, read through the primary keys. -/
theorem WellFormed.statuses_eq {database : Database}
    (formed : database.WellFormed) (requestId : String) :
    (database.tasksOf requestId).map (fun row => some row.status) =
      ((database.tasksOf requestId).map RequestTask.id).map fun taskId =>
        (database.task taskId).map RequestTask.status := by
  rw [List.map_map]
  apply List.map_congr_left
  intro row member
  rw [Function.comp_apply, formed.task_eq (mem_tasksOf.mp member).1]
  rfl

/-- Once all tasks of a request are terminal, their statuses stay. -/
theorem Leads.statuses {before after : Database} (leads : before.Leads after)
    (formed : before.WellFormed) (later : after.WellFormed)
    {requestId : String} {row : PrivacyRequest}
    (found : before.request requestId = some row)
    (terminal : ∀ task ∈ before.tasksOf requestId, task.status.Terminal) :
    (after.tasksOf requestId).map RequestTask.status =
      (before.tasksOf requestId).map RequestTask.status := by
  have lifted : (after.tasksOf requestId).map (fun row => some row.status) =
      (before.tasksOf requestId).map fun row => some row.status := by
    rw [formed.statuses_eq, later.statuses_eq,
      leads.members requestId row found, List.map_map, List.map_map]
    apply List.map_congr_left
    intro task member
    obtain ⟨inTable, _⟩ := mem_tasksOf.mp member
    have lookup := formed.task_eq inTable
    obtain ⟨current, currentFound, _, kept⟩ := leads.task task.id task lookup
    rw [Function.comp_apply, Function.comp_apply, lookup, currentFound]
    exact congrArg some (kept (terminal task member)).1
  have unlifted := congrArg (List.map fun status =>
    Option.getD status TaskStatus.pending) lifted
  simpa [List.map_map, Function.comp_def] using unlifted

end Database

/-- Only the commit of a refresh finishes a request. -/
theorem Effect.noneFinished {deployment : Deployment} {state next : State}
    {action : Action} (effect : Effect deployment state action next)
    (other : ∀ index noticeId now,
      action ≠ .refreshCommit index noticeId now) :
    state.database.NoneFinished next.database := by
  rcases effect.revision with
    ⟨intake, _, _, inserted⟩ | ⟨task, request, revises, _, _, keeps⟩
  · rw [inserted]
    exact Database.noneFinished_insertRows _ intake _
  · exact revises.noneFinished fun row _ terminal =>
      (keeps other row).open_ terminal

/-! ## Sessions and committed rows -/

/-- The copies of a session belong to rows, and a terminal copy shows the
committed status. -/
structure Session.Agrees (session : Session) (database : Database) :
    Prop where
  task : ∀ taskId copy, session.task taskId = some copy →
    ∃ row, database.task taskId = some row ∧ copy.requestId = row.requestId ∧
      (copy.status.Terminal → row.status = copy.status)
  request : ∀ requestId copy, session.request requestId = some copy →
    ∃ row, database.request requestId = some row ∧ copy.id = requestId ∧
      copy.kind = row.kind ∧
      (copy.status.Terminal → row.status = copy.status) ∧
      (copy.artifactPath ≠ none → row.artifactPath ≠ none)
  members : ∀ requestId ids, session.members requestId = some ids →
    (∃ row, database.request requestId = some row) ∧
      ids = (database.tasksOf requestId).map RequestTask.id ∧
      ∀ taskId ∈ ids, ∃ copy, session.task taskId = some copy

namespace Session

theorem agrees_empty (database : Database) :
    Session.empty.Agrees database := by
  constructor
  · intro taskId copy held
    cases held
  · intro requestId copy held
    cases held
  · intro requestId ids held
    cases held

theorem Agrees.leads {session : Session} {before after : Database}
    (agrees : session.Agrees before) (leads : before.Leads after) :
    session.Agrees after := by
  constructor
  · intro taskId copy held
    obtain ⟨row, found, key, kept⟩ := agrees.task taskId copy held
    obtain ⟨current, currentFound, currentKey, currentKept⟩ :=
      leads.task taskId row found
    refine ⟨current, currentFound, key.trans currentKey.symm, ?_⟩
    intro terminal
    have same := kept terminal
    exact (currentKept (same ▸ terminal)).1.trans same
  · intro requestId copy held
    obtain ⟨row, found, key, kind, kept, path⟩ :=
      agrees.request requestId copy held
    obtain ⟨current, currentFound, currentKind, currentKept, currentPath⟩ :=
      leads.request requestId row found
    refine ⟨current, currentFound, key, kind.trans currentKind.symm, ?_, ?_⟩
    · intro terminal
      have same := kept terminal
      exact (currentKept (same ▸ terminal)).trans same
    · intro uploaded
      exact currentPath (path uploaded)
  · intro requestId ids held
    obtain ⟨⟨row, found⟩, shape, loaded⟩ := agrees.members requestId ids held
    obtain ⟨current, currentFound, _⟩ := leads.request requestId row found
    exact ⟨⟨current, currentFound⟩,
      shape.trans (leads.members requestId row found).symm, loaded⟩

section Load

variable {session : Session} {database : Database}

/-- Selecting rows adds copies that agree with them. -/
theorem Agrees.loadTasks (agrees : session.Agrees database)
    (formed : database.WellFormed) {rows : List RequestTask}
    (stored : ∀ row ∈ rows, row ∈ database.tasks) :
    (session.loadTasks rows).Agrees database := by
  refine ⟨?_, agrees.request, ?_⟩
  · intro taskId copy held
    rcases Option.or_eq_some_iff.mp held with kept | ⟨_, fresh⟩
    · exact agrees.task taskId copy kept
    · obtain ⟨member, same⟩ := Table.get_mem fresh
      refine ⟨copy, ?_, rfl, fun _ => rfl⟩
      rw [← same]
      exact formed.task_eq (stored copy member)
  · intro requestId ids held
    obtain ⟨owner, shape, loaded⟩ := agrees.members requestId ids held
    refine ⟨owner, shape, ?_⟩
    intro taskId member
    obtain ⟨copy, kept⟩ := loaded taskId member
    exact ⟨copy, Option.or_eq_some_iff.mpr (.inl kept)⟩

theorem Agrees.loadRequests (agrees : session.Agrees database)
    (formed : database.WellFormed) {rows : List PrivacyRequest}
    (stored : ∀ row ∈ rows, row ∈ database.requests) :
    (session.loadRequests rows).Agrees database := by
  refine ⟨agrees.task, ?_, agrees.members⟩
  intro requestId copy held
  rcases Option.or_eq_some_iff.mp held with kept | ⟨_, fresh⟩
  · exact agrees.request requestId copy kept
  · obtain ⟨member, same⟩ := Table.get_mem fresh
    refine ⟨copy, ?_, same, rfl, fun _ => rfl, id⟩
    rw [← same]
    exact formed.request_eq (stored copy member)

theorem loadRefresh_loads (session : Session) (database : Database)
    {requestId : String} {row : RequestTask}
    (member : row ∈ database.tasksOf requestId) :
    ∃ copy, (session.loadRefresh database requestId).task row.id =
      some copy := by
  rw [loadRefresh_task]
  cases kept : session.task row.id with
  | some copy => exact ⟨copy, rfl⟩
  | none =>
      cases fresh : Table.get RequestTask.id row.id
          (database.tasksOf requestId) with
      | some copy => exact ⟨copy, rfl⟩
      | none => exact absurd rfl (Table.get_eq_none_iff.mp fresh row member)

theorem Agrees.loadRefresh (agrees : session.Agrees database)
    (formed : database.WellFormed) {requestId : String}
    {owner : PrivacyRequest}
    (found : database.request requestId = some owner) :
    (session.loadRefresh database requestId).Agrees database := by
  have selected : ∀ row ∈ database.requests.filter fun request =>
      decide (request.id = requestId), row ∈ database.requests :=
    fun row member => (List.mem_filter.mp member).1
  have tasks : ∀ row ∈ database.tasksOf requestId, row ∈ database.tasks :=
    fun row member => (Database.mem_tasksOf.mp member).1
  have loaded := (agrees.loadRequests formed selected).loadTasks formed tasks
  refine ⟨loaded.task, loaded.request, ?_⟩
  intro otherId ids held
  rw [loadRefresh_members] at held
  by_cases own : otherId = requestId
  · subst own
    rw [if_pos rfl] at held
    rcases Option.or_eq_some_iff.mp held with kept | ⟨_, fresh⟩
    · exact loaded.members otherId ids kept
    · cases fresh
      refine ⟨⟨owner, found⟩, rfl, ?_⟩
      intro taskId member
      obtain ⟨row, inTasks, rfl⟩ := List.mem_map.mp member
      exact session.loadRefresh_loads database inTasks
  · rw [if_neg own] at held
    exact loaded.members otherId ids held

/-- The session's view of a request covers all of its tasks. -/
theorem Agrees.mem_tasksOf (agrees : session.Agrees database)
    {requestId : String} {ids : List String}
    (held : session.members requestId = some ids) {row : RequestTask}
    (member : row ∈ database.tasksOf requestId) :
    ∃ copy ∈ session.tasksOf requestId, session.task row.id = some copy := by
  obtain ⟨_, shape, loaded⟩ := agrees.members requestId ids held
  have inIds : row.id ∈ ids := by
    rw [shape]
    exact List.mem_map_of_mem member
  obtain ⟨copy, kept⟩ := loaded row.id inIds
  refine ⟨copy, ?_, kept⟩
  unfold tasksOf
  rw [held]
  exact List.mem_filterMap.mpr ⟨row.id, inIds, kept⟩

/-- What every copy in the view shows of its row, the view shows of the
committed tasks. -/
theorem Agrees.map_tasksOf {α : Type} (agrees : session.Agrees database)
    (read : RequestTask → α) {requestId : String} {ids : List String}
    (held : session.members requestId = some ids)
    (shown : ∀ row ∈ database.tasksOf requestId,
      ∀ copy ∈ session.tasksOf requestId, session.task row.id = some copy →
      read copy = read row) :
    (session.tasksOf requestId).map read =
      (database.tasksOf requestId).map read := by
  obtain ⟨_, shape, loaded⟩ := agrees.members requestId ids held
  have view : session.tasksOf requestId = ids.filterMap session.task := by
    unfold tasksOf
    rw [held]
    rfl
  have pointwise : ∀ row ∈ database.tasksOf requestId,
      ∃ copy, session.task row.id = some copy ∧ read copy = read row := by
    intro row member
    obtain ⟨copy, inView, kept⟩ := agrees.mem_tasksOf held member
    exact ⟨copy, kept, shown row member copy inView kept⟩
  rw [view, shape]
  clear view shape loaded held shown
  generalize database.tasksOf requestId = rows at pointwise
  induction rows with
  | nil => rfl
  | cons row rows induction =>
      obtain ⟨copy, kept, same⟩ := pointwise row List.mem_cons_self
      rw [List.map_cons, List.filterMap_cons_some kept, List.map_cons,
        List.map_cons, same,
        induction fun other member =>
          pointwise other (List.mem_cons_of_mem row member)]

/-- A view that is all terminal shows the committed statuses. -/
theorem Agrees.statuses (agrees : session.Agrees database)
    (formed : database.WellFormed) {requestId : String} {ids : List String}
    (held : session.members requestId = some ids)
    (terminal : ∀ task ∈ session.tasksOf requestId, task.status.Terminal) :
    (session.tasksOf requestId).map RequestTask.status =
      (database.tasksOf requestId).map RequestTask.status := by
  apply agrees.map_tasksOf RequestTask.status held
  intro row member copy inView kept
  obtain ⟨current, found, _, same⟩ := agrees.task row.id copy kept
  rw [formed.task_eq (Database.mem_tasksOf.mp member).1] at found
  cases found
  exact (same (terminal copy inView)).symm

theorem Agrees.putTask (agrees : session.Agrees database)
    {copy row : RequestTask} (found : database.task copy.id = some row)
    (key : copy.requestId = row.requestId)
    (kept : copy.status.Terminal → row.status = copy.status) :
    (session.putTask copy).Agrees database := by
  refine ⟨?_, agrees.request, ?_⟩
  · intro taskId other held
    by_cases own : taskId = copy.id
    · simp only [Session.putTask, own, if_true, Option.some.injEq] at held
      rw [own, ← held]
      exact ⟨row, found, key, kept⟩
    · simp only [Session.putTask, own, if_false] at held
      exact agrees.task taskId other held
  · intro requestId ids held
    obtain ⟨owner, shape, loaded⟩ := agrees.members requestId ids held
    refine ⟨owner, shape, ?_⟩
    intro taskId member
    by_cases own : taskId = copy.id
    · exact ⟨copy, if_pos own⟩
    · obtain ⟨other, heldOther⟩ := loaded taskId member
      exact ⟨other, (if_neg own).trans heldOther⟩

theorem Agrees.putRequest (agrees : session.Agrees database)
    {copy row : PrivacyRequest} (found : database.request copy.id = some row)
    (kind : copy.kind = row.kind)
    (kept : copy.status.Terminal → row.status = copy.status)
    (path : copy.artifactPath ≠ none → row.artifactPath ≠ none) :
    (session.putRequest copy).Agrees database := by
  refine ⟨agrees.task, ?_, agrees.members⟩
  intro requestId other held
  by_cases own : requestId = copy.id
  · simp only [Session.putRequest, own, if_true, Option.some.injEq] at held
    rw [own, ← held]
    exact ⟨row, found, rfl, kind, kept, path⟩
  · simp only [Session.putRequest, own, if_false] at held
    exact agrees.request requestId other held

end Load

end Session

/-! ## The condition -/

/-- The request that a `refreshSelect` would lock, and the session it works
in. -/
def State.refreshTarget (state : State) (index : Nat) :
    Option (String × Session) :=
  match state.calls[index]? with
  | some call =>
      match call.phase with
      | .recorded taskId =>
          (call.session.task taskId).map fun task =>
            (task.requestId, call.session)
      | .duplicate taskId =>
          (state.database.task taskId).map fun row => (row.requestId, .empty)
      | _ => none
  | none => none

/-- The session holds no open copy of a task of the request. -/
def Session.NoneOpen (session : Session) (database : Database)
    (requestId : String) : Prop :=
  ∀ task ∈ database.tasksOf requestId, ∀ copy ∈ session.task task.id,
    copy.status.Terminal

/-- Every task of the request is terminal in the session's view. -/
def Session.SeesTerminal (session : Session) (requestId : String) : Prop :=
  ∀ task ∈ session.tasksOf requestId, task.status.Terminal

/-- The steps after which terminal results stay: an outcome is committed by a
worker that still holds the task's lease, and the refresh of a request that is
already terminal works without open copies of its tasks. -/
def Fenced (state : State) : Action → Prop
  | .recordTask index _ =>
      ∀ entry ∈ state.recording index, ∀ row ∈ state.database.tasks,
        row.id = entry.2.1 → row.leasedBy entry.1.workerId = true
  | .refreshSelect index =>
      ∀ target ∈ state.refreshTarget index,
        ∀ request ∈ state.database.requests, request.id = target.1 →
          request.status.Terminal → target.2.NoneOpen state.database target.1
  | _ => True

instance (session : Session) (database : Database) (requestId : String) :
    Decidable (session.NoneOpen database requestId) :=
  inferInstanceAs (Decidable (∀ task ∈ database.tasksOf requestId,
    ∀ copy ∈ session.task task.id, copy.status.Terminal))

instance (state : State) (action : Action) :
    Decidable (Fenced state action) :=
  match action with
  | .recordTask index _ =>
      inferInstanceAs (Decidable (∀ entry ∈ state.recording index,
        ∀ row ∈ state.database.tasks, row.id = entry.2.1 →
          row.leasedBy entry.1.workerId = true))
  | .refreshSelect index =>
      inferInstanceAs (Decidable (∀ target ∈ state.refreshTarget index,
        ∀ request ∈ state.database.requests, request.id = target.1 →
          request.status.Terminal →
            target.2.NoneOpen state.database target.1))
  | .create _ | .relaySelect _ | .relayPublish _ _ _ _ | .relayCommit _
  | .relayCrash _ | .deliver _ _ _ | .messageGet _ _ | .messageClaim _
  | .processOnce _ | .selectTask _ | .work _ _ | .upload _ _ _
  | .refreshCommit _ _ _ | .ack _ | .crash _ | .extendLease _ _ _ =>
      .isTrue trivial

theorem Call.RefreshTarget.refreshTarget {state : State} {index : Nat}
    {call : Call} {requestId : String} {own : Option String}
    {session : Session} (formed : state.database.WellFormed)
    (found : state.calls[index]? = some call)
    (target : call.RefreshTarget state.database requestId own session) :
    state.refreshTarget index = some (requestId, session) := by
  cases target with
  | recorded taskId task phase held =>
      simp [State.refreshTarget, found, phase, held]
  | duplicate taskId row phase member same =>
      have lookup := formed.task_eq member
      rw [same] at lookup
      simp [State.refreshTarget, found, phase, lookup]

/-- Without open copies, a refresh sees the terminal rows of the tasks. -/
theorem Session.Agrees.seesTerminal {session : Session} {database : Database}
    (agrees : session.Agrees database) {requestId : String}
    (noneOpen : session.NoneOpen database requestId)
    (terminal : ∀ task ∈ database.tasksOf requestId, task.status.Terminal) :
    (session.loadRefresh database requestId).SeesTerminal requestId := by
  intro copy inView
  obtain ⟨taskId, inIds, held⟩ := List.mem_filterMap.mp inView
  rw [Session.loadRefresh_members, if_pos rfl] at inIds
  have inRows : taskId ∈ (database.tasksOf requestId).map RequestTask.id := by
    cases loaded : session.members requestId with
    | none => simpa [loaded] using inIds
    | some ids =>
        obtain ⟨_, shape, _⟩ := agrees.members requestId ids loaded
        rw [← shape]
        simpa [loaded] using inIds
  obtain ⟨row, inTasks, same⟩ := List.mem_map.mp inRows
  rw [Session.loadRefresh_task] at held
  rcases Option.or_eq_some_iff.mp held with kept | ⟨_, fresh⟩
  · rw [← same] at kept
    exact noneOpen row inTasks copy kept
  · exact terminal copy (Table.get_mem fresh).1

/-! ## The invariant -/

structure Core (state : State) : Prop where
  tidy : state.Tidy
  sessions : ∀ call ∈ state.calls, call.session.Agrees state.database
  /-- A terminal request has terminal tasks, and the status they derive. -/
  finished : ∀ requestId row, state.database.request requestId = some row →
    row.status.Terminal →
    row.status = deriveStatus
      ((state.database.tasksOf requestId).map RequestTask.status)
  locks : state.Exclusive
  loaded : ∀ call ∈ state.calls, ∀ requestId own reference,
    call.phase = .refreshing requestId own reference →
    ∃ ids, call.session.members requestId = some ids
  views : ∀ call ∈ state.calls, ∀ requestId own reference,
    call.phase = .refreshing requestId own reference →
    ∀ row, state.database.request requestId = some row →
    row.status.Terminal → call.session.SeesTerminal requestId

namespace Core

variable {deployment : Deployment} {state next : State}

theorem tasks_terminal (core : Core state) {requestId : String}
    {row : PrivacyRequest}
    (found : state.database.request requestId = some row)
    (terminal : row.status.Terminal) :
    ∀ task ∈ state.database.tasksOf requestId, task.status.Terminal := by
  have derived := core.finished requestId row found terminal
  rw [derived, terminal_deriveStatus_iff] at terminal
  intro task member
  exact terminal.2 task.status (List.mem_map_of_mem member)

/-- A request with an open task is not terminal. -/
theorem request_open (core : Core state) {task : RequestTask}
    (member : task ∈ state.database.tasks) (open_ : ¬ task.status.Terminal)
    {row : PrivacyRequest}
    (found : state.database.request task.requestId = some row) :
    ¬ row.status.Terminal := by
  intro terminal
  apply open_
  exact core.tasks_terminal found terminal task
    (Database.mem_tasksOf.mpr ⟨member, rfl⟩)

/-- Steps that change no request status to a terminal one: one call is
replaced or added, the tables move on. -/
theorem replace (core : Core state) (index : Nat) (call : Call)
    (tidy : next.Tidy) (locks : next.Exclusive)
    (leads : state.database.Leads next.database)
    (none_ : state.database.NoneFinished next.database)
    (calls : ∀ (other : Nat) (current : Call),
      next.calls[other]? = some current →
      other = index ∧ current = call ∨
        other ≠ index ∧ state.calls[other]? = some current)
    (agrees : call.session.Agrees next.database)
    (loaded : ∀ requestId own reference,
      call.phase = .refreshing requestId own reference →
      ∃ ids, call.session.members requestId = some ids)
    (view : ∀ requestId own reference,
      call.phase = .refreshing requestId own reference →
      ∀ row, state.database.request requestId = some row →
      row.status.Terminal → call.session.SeesTerminal requestId) :
    Core next := by
  have member : ∀ other ∈ next.calls, other = call ∨ other ∈ state.calls := by
    intro other inNext
    obtain ⟨slot, found⟩ := List.getElem?_of_mem inNext
    rcases calls slot other found with ⟨_, new⟩ | ⟨_, old⟩
    · exact .inl new
    · exact .inr (List.mem_of_getElem? old)
  constructor
  · exact tidy
  · intro other inNext
    rcases member other inNext with new | old
    · rw [new]
      exact agrees
    · exact (core.sessions other old).leads leads
  · intro requestId current found terminal
    obtain ⟨row, rowFound, rowTerminal⟩ :=
      none_ requestId current found terminal
    obtain ⟨again, againFound, _, kept, _⟩ :=
      leads.request requestId row rowFound
    rw [found] at againFound
    cases againFound
    rw [kept rowTerminal, leads.statuses core.tidy.tables tidy.tables rowFound
      (core.tasks_terminal rowFound rowTerminal)]
    exact core.finished requestId row rowFound rowTerminal
  · exact locks
  · intro other inNext
    rcases member other inNext with new | old
    · rw [new]
      exact loaded
    · exact core.loaded other old
  · intro other inNext requestId own reference phase current found terminal
    obtain ⟨row, rowFound, rowTerminal⟩ :=
      none_ requestId current found terminal
    rcases member other inNext with new | old
    · rw [new] at phase ⊢
      exact view requestId own reference phase row rowFound rowTerminal
    · exact core.views other old requestId own reference phase row rowFound
        rowTerminal

/-- The replaced or added call holds no row lock. -/
theorem replace_unlocked (core : Core state) (index : Nat) (call : Call)
    (tidy : next.Tidy) (locks : next.Exclusive)
    (leads : state.database.Leads next.database)
    (none_ : state.database.NoneFinished next.database)
    (calls : ∀ (other : Nat) (current : Call),
      next.calls[other]? = some current →
      other = index ∧ current = call ∨
        other ≠ index ∧ state.calls[other]? = some current)
    (agrees : call.session.Agrees next.database)
    (unlocked : ∀ requestId, call.phase.refreshes requestId = false) :
    Core next := by
  have notRefreshing : ∀ requestId own reference,
      call.phase ≠ .refreshing requestId own reference := by
    intro requestId own reference phase
    have free := unlocked requestId
    rw [Phase.refreshes_iff.mpr ⟨own, reference, phase⟩] at free
    cases free
  refine core.replace index call tidy locks leads none_ calls agrees ?_ ?_
  · intro requestId own reference phase
    exact absurd phase (notRefreshing requestId own reference)
  · intro requestId own reference phase
    exact absurd phase (notRefreshing requestId own reference)

/-- Steps that touch no call. -/
theorem still (core : Core state) (tidy : next.Tidy)
    (locks : next.Exclusive) (leads : state.database.Leads next.database)
    (none_ : state.database.NoneFinished next.database)
    (calls : next.calls = state.calls) : Core next := by
  refine core.replace_unlocked state.calls.length
    { workerId := "", message := none, executor := false, session := .empty
      todo := [], phase := .closed }
    tidy locks leads none_ ?_ (Session.agrees_empty _) (fun _ => rfl)
  intro other current found
  rw [calls] at found
  refine .inr ⟨?_, found⟩
  rintro rfl
  rw [List.getElem?_eq_none (Nat.le_refl _)] at found
  cases found

theorem noneFinished_refl (database : Database) (outbox : List OutboxEvent) :
    database.NoneFinished { database with outbox } :=
  fun _ row found terminal => ⟨row, found, terminal⟩

private theorem leads_outbox (database : Database)
    (outbox : List OutboxEvent) :
    database.Leads { database with outbox } :=
  (Database.revises_refl database outbox).leads (fun _ _ _ => rfl)
    (fun _ _ _ => rfl) (fun _ uploaded => uploaded)

theorem moved (core : Core state) (tidy : next.Tidy)
    (locks : next.Exclusive) {action : Action} {index : Nat}
    {call after : Call} {artifacts : ArtifactStore}
    (found : state.calls[index]? = some call)
    (move : CallMove deployment state index call action after)
    (shape : next = { (state.put index after) with artifacts }) :
    Core next := by
  have member := List.mem_of_getElem? found
  subst shape
  refine core.replace index after tidy locks (Database.Leads.refl _)
    (noneFinished_refl _ _) (fun other current => State.put_cases found)
    ?_ ?_ ?_
  · rcases move.frame with closed | ⟨same, _⟩
    · rw [closed]
      exact Session.agrees_empty _
    · rw [same]
      exact core.sessions call member
  · intro requestId own reference phase
    obtain ⟨before, after_⟩ := move.refreshing phase
    rw [after_]
    exact core.loaded call member requestId own none before
  · intro requestId own reference phase
    obtain ⟨before, after_⟩ := move.refreshing phase
    rw [after_]
    exact core.views call member requestId own none before

/-- Claimed rows were open, so a claim changes no terminal row. -/
theorem leads_markClaimed (core : Core state) {taskIds : List String}
    {now : Time} (workerId : String) (leaseUntil : Time)
    (claims : state.database.Claims now taskIds) :
    state.database.Leads
        (state.database.markClaimed taskIds workerId leaseUntil now) ∧
      state.database.NoneFinished
        (state.database.markClaimed taskIds workerId leaseUntil now) := by
  have revises := Database.markClaimed_revises state.database taskIds workerId
    leaseUntil now
  refine ⟨revises.leads ?_ ?_ ?_, revises.noneFinished ?_⟩
  · intro row member terminal
    exact claims.claimRow_of_terminal core.tidy.tables member terminal workerId
      leaseUntil
  · intro row member terminal
    unfold Database.startRow
    split
    next hit =>
      rw [Bool.and_eq_true, decide_eq_true_iff, decide_eq_true_iff] at hit
      rw [hit.2] at terminal
      exact terminal.elim
    next => rfl
  · intro row uploaded
    rw [(Database.startRow_keeps _ _ row).path]
    exact uploaded
  · intro row member terminal
    exact (Database.startRow_keeps _ _ row).open_ terminal

/-- A claiming session holds the rows as it leased them. -/
theorem claimed_agrees (core : Core state) {taskIds : List String}
    {workerId : String} {leaseUntil now : Time} {session : Session}
    (copies : ∀ taskId copy, session.task taskId = some copy →
      ∃ row ∈ state.database.tasks, row.id = taskId ∧ taskId ∈ taskIds ∧
        copy = row.claim workerId leaseUntil)
    (requests : session.request = Session.empty.request)
    (members : session.members = Session.empty.members) :
    session.Agrees
      (state.database.markClaimed taskIds workerId leaseUntil now) := by
  have revises := Database.markClaimed_revises state.database taskIds workerId
    leaseUntil now
  constructor
  · intro taskId copy held
    obtain ⟨row, member, same, claimed, rfl⟩ := copies taskId copy held
    refine ⟨Database.claimRow taskIds workerId leaseUntil row, ?_, ?_, ?_⟩
    · rw [revises.task_eq, ← same, core.tidy.tables.task_eq member]
      rfl
    · exact (revises.taskKey row).2.symm
    · intro terminal
      exact terminal.elim
  · intro requestId copy held
    rw [requests] at held
    cases held
  · intro requestId ids held
    rw [members] at held
    cases held

/-- An outcome for an open task of an open request leaves terminal rows. -/
theorem leads_recordOutcome (core : Core state) {task row : RequestTask}
    {request owner : PrivacyRequest} (rowMember : row ∈ state.database.tasks)
    (rowId : row.id = task.id) (rowOpen : ¬ row.status.Terminal)
    (ownerMember : owner ∈ state.database.requests)
    (ownerId : owner.id = request.id) (ownerOpen : ¬ owner.status.Terminal)
    (runtime : Runtime) (settings : Settings) (executor : Bool) (work : Work)
    (now : Time) :
    state.database.Leads (recordOutcome runtime settings executor work task
      request now state.database) := by
  refine (Database.recordOutcome_revises ..).leads ?_ ?_ ?_
  · intro other otherMember terminal
    apply Database.recordRow_of_ne
    intro hit
    have isRow : other = row := core.tidy.tables.taskIds.eq_of_mem otherMember
      rowMember (hit.trans rowId.symm)
    exact rowOpen (isRow ▸ terminal)
  · intro other otherMember terminal
    unfold Database.verifyRow
    rw [if_neg]
    intro hit
    have isOwner : other = owner :=
      core.tidy.tables.requestIds.eq_of_mem otherMember ownerMember
        ((of_decide_eq_true hit).trans ownerId.symm)
    exact ownerOpen (isOwner ▸ terminal)
  · intro other uploaded
    rw [(Database.verifyRow_keeps _ _ other).path]
    exact uploaded

/-- An execution that is not cancelled goes on with copies that agree with what
it has written. -/
theorem agrees_recordOutcome {session : Session} {database : Database}
    (agrees : session.Agrees database) {taskId : String}
    {task row : RequestTask} {request owner : PrivacyRequest}
    (runtime : Runtime) (settings : Settings) (executor : Bool) (work : Work)
    (now : Time)
    (leads : database.Leads (recordOutcome runtime settings executor work task
      request now database))
    (isTask : task.id = taskId)
    (held : session.task taskId = some task)
    (requestHeld : session.request task.requestId = some request)
    (rowFound : database.task taskId = some row)
    (rowOpen : ¬ row.status.Terminal)
    (ownerFound : database.request task.requestId = some owner)
    (ownerOpen : ¬ owner.status.Terminal) :
    ((session.putTask (task.settle settings executor
        work.ending)).putRequest request.verify).Agrees
      (recordOutcome runtime settings executor work task request now
        database) := by
  obtain ⟨current, currentFound, rowKey, rowKept⟩ := agrees.task taskId task held
  obtain ⟨holder, holderFound, ownerKey, ownerKind, ownerKept, ownerPath⟩ :=
    agrees.request task.requestId request requestHeld
  rw [rowFound] at currentFound
  cases currentFound
  rw [ownerFound] at holderFound
  cases holderFound
  have revises := Database.recordOutcome_revises runtime settings executor work
    task request now database
  have taskFound := revises.task_eq taskId
  rw [rowFound] at taskFound
  have requestFound := revises.request_eq task.requestId
  rw [ownerFound] at requestFound
  have settledId : (task.settle settings executor work.ending).id =
      taskId := by
    rw [RequestTask.settle_id, isTask]
  refine ((agrees.leads leads).putTask
    (by rw [settledId]; exact taskFound) ?_ ?_).putRequest
    (by rw [PrivacyRequest.verify_id, ownerKey]; exact requestFound)
    ?_ ?_ ?_
  · rw [RequestTask.settle_requestId, (revises.taskKey row).2]
    exact rowKey
  · intro terminal
    have changed : (task.settle settings executor work.ending).status ≠
        task.status := by
      intro same
      rw [same] at terminal
      exact rowOpen (rowKept terminal ▸ terminal)
    have hit : decide (row.id = task.id) = true :=
      decide_eq_true ((Database.task_mem rowFound).2.trans isTask.symm)
    rw [Database.recordRow, if_pos hit]
    exact flushColumn_of_ne changed _
  · rw [PrivacyRequest.verify_kind, (revises.requestKey owner).2]
    exact ownerKind
  · intro terminal
    rcases request.verify_status with same | verifying
    · rw [same] at terminal
      exact absurd (ownerKept terminal ▸ terminal) ownerOpen
    · rw [verifying] at terminal
      exact terminal.elim
  · intro uploaded
    rw [PrivacyRequest.verify_artifactPath] at uploaded
    rw [(Database.verifyRow_keeps _ _ owner).path]
    exact ownerPath uploaded

/-- The commit of an outcome by the lease holder. -/
theorem recorded (core : Core state) (tidy : next.Tidy)
    (locks : next.Exclusive) {index : Nat} {call : Call} {taskId : String}
    {work : Work} {task : RequestTask} {request : PrivacyRequest} {now : Time}
    (permitted : Fenced state (.recordTask index now))
    (found : state.calls[index]? = some call)
    (phase : call.phase = .worked taskId work)
    (held : call.session.task taskId = some task)
    (requestHeld : call.session.request task.requestId = some request)
    (shape : next = { (state.put index
        (call.afterRecord deployment taskId work task request)) with
      database := recordOutcome deployment.runtime deployment.settings
        call.executor work task request now state.database }) :
    Core next ∧ state.database.Leads next.database := by
  have member := List.mem_of_getElem? found
  have agrees := core.sessions call member
  have isTask := core.tidy.keyed call member taskId task held
  obtain ⟨row, rowFound, rowKey, _⟩ := agrees.task taskId task held
  obtain ⟨owner, ownerFound, ownerKey, _⟩ :=
    agrees.request task.requestId request requestHeld
  obtain ⟨rowMember, rowId⟩ := Database.task_mem rowFound
  -- The lease holder's row is `RUNNING`, so its request is open as well.
  have rowOpen : ¬ row.status.Terminal := by
    have entry : state.recording index = some (call, taskId, work) := by
      simp [State.recording, found, phase]
    have leased := permitted _ entry row rowMember rowId
    rw [(RequestTask.leasedBy_iff.mp leased).1]
    exact not_false
  have ownerOpen : ¬ owner.status.Terminal := by
    apply core.request_open rowMember rowOpen
    rw [← rowKey]
    exact ownerFound
  obtain ⟨ownerMember, ownerId⟩ := Database.request_mem ownerFound
  have leads := core.leads_recordOutcome rowMember (rowId.trans isTask.symm)
    rowOpen ownerMember (ownerId.trans ownerKey.symm) ownerOpen
    deployment.runtime deployment.settings call.executor work now
  subst shape
  refine ⟨core.replace_unlocked index _ tidy locks leads
    ((Database.recordOutcome_revises ..).noneFinished fun other _ terminal =>
      (Database.verifyRow_keeps _ _ other).open_ terminal)
    (fun other current => State.put_cases found) ?_ ?_, leads⟩
  · unfold Call.afterRecord
    split
    next => exact Session.agrees_empty _
    next =>
      exact agrees_recordOutcome agrees _ _ _ _ _ leads isTask held requestHeld
        rowFound rowOpen ownerFound ownerOpen
  · exact call.refreshes_afterRecord deployment taskId work task request

/-- The request of a refresh exists, and its session agrees with the rows. -/
theorem target_agrees (core : Core state) {index : Nat} {call : Call}
    {requestId : String} {own : Option String} {session : Session}
    (found : state.calls[index]? = some call)
    (target : call.RefreshTarget state.database requestId own session) :
    (∃ row, state.database.request requestId = some row) ∧
      session.Agrees state.database := by
  cases target with
  | recorded taskId task phase held =>
      have agrees := core.sessions call (List.mem_of_getElem? found)
      obtain ⟨row, rowFound, key, _⟩ := agrees.task taskId task held
      refine ⟨?_, agrees⟩
      rw [key]
      exact core.tidy.tables.owned row (Database.task_mem rowFound).1
  | duplicate taskId row phase member same =>
      exact ⟨core.tidy.tables.owned row member, Session.agrees_empty _⟩

theorem locked (core : Core state) (tidy : next.Tidy)
    (locks : next.Exclusive) {index : Nat} {call : Call} {requestId : String}
    {own : Option String} {session : Session}
    (permitted : Fenced state (.refreshSelect index))
    (found : state.calls[index]? = some call)
    (target : call.RefreshTarget state.database requestId own session)
    (shape : next = state.put index { call with
      session := session.loadRefresh state.database requestId
      phase := .refreshing requestId own none }) :
    Core next := by
  obtain ⟨⟨row, rowFound⟩, agrees⟩ := core.target_agrees found target
  subst shape
  refine core.replace index _ tidy locks (Database.Leads.refl _)
    (noneFinished_refl _ _) (fun other current => State.put_cases found)
    (agrees.loadRefresh core.tidy.tables rowFound) ?_ ?_
  · intro lockedId lockedOwn reference phase
    cases phase
    rw [Session.loadRefresh_members, if_pos rfl]
    cases held : session.members requestId with
    | none => exact ⟨_, rfl⟩
    | some ids => exact ⟨ids, rfl⟩
  · intro lockedId lockedOwn reference phase current currentFound terminal
    cases phase
    obtain ⟨currentMember, currentId⟩ := Database.request_mem currentFound
    have entry := target.refreshTarget core.tidy.tables found
    apply agrees.seesTerminal
    · exact permitted _ entry current currentMember currentId terminal
    · exact core.tasks_terminal currentFound terminal

section Refresh

variable {call : Call} {requestId : String} {own reference : Option String}
  {request owner : PrivacyRequest}

/-- A terminal view derives the status of the committed rows; any other view
belongs to an open request. -/
theorem derived_status (core : Core state) (member : call ∈ state.calls)
    (phase : call.phase = .refreshing requestId own reference)
    (ownerFound : state.database.request requestId = some owner) :
    (call.session.derivedStatus requestId).Terminal ∧
        call.session.derivedStatus requestId = deriveStatus
          ((state.database.tasksOf requestId).map RequestTask.status) ∨
      ¬ (call.session.derivedStatus requestId).Terminal ∧
        ¬ owner.status.Terminal := by
  obtain ⟨ids, loaded⟩ := core.loaded call member requestId own reference phase
  have agrees := core.sessions call member
  by_cases terminal : (call.session.derivedStatus requestId).Terminal
  · refine .inl ⟨terminal, ?_⟩
    have sees : call.session.SeesTerminal requestId := by
      have all := (terminal_deriveStatus_iff _).mp terminal
      intro task inView
      exact all.2 task.status (List.mem_map_of_mem inView)
    unfold Session.derivedStatus
    rw [agrees.statuses core.tidy.tables loaded sees]
  · refine .inr ⟨terminal, ?_⟩
    intro ownerTerminal
    apply terminal
    have sees := core.views call member requestId own reference phase owner
      ownerFound ownerTerminal
    unfold Session.derivedStatus
    rw [agrees.statuses core.tidy.tables loaded sees,
      ← core.finished requestId owner ownerFound ownerTerminal]
    exact ownerTerminal

/-- A terminal view of some tasks finalises the request. -/
theorem derived_terminal (core : Core state) (member : call ∈ state.calls)
    (phase : call.phase = .refreshing requestId own reference)
    (sees : call.session.SeesTerminal requestId)
    (nonempty : state.database.tasksOf requestId ≠ []) :
    (call.session.derivedStatus requestId).Terminal := by
  obtain ⟨ids, loaded⟩ := core.loaded call member requestId own reference phase
  have statuses := (core.sessions call member).statuses core.tidy.tables loaded
    sees
  apply (terminal_deriveStatus_iff _).mpr
  refine ⟨?_, ?_⟩
  · intro empty
    rw [statuses] at empty
    exact nonempty (List.map_eq_nil_iff.mp empty)
  · intro status inView
    obtain ⟨task, inTasks, rfl⟩ := List.mem_map.mp inView
    exact sees task inTasks

/-- The status of the refreshed row: the derived one, or still open. -/
theorem refreshRow_status (core : Core state) (member : call ∈ state.calls)
    (phase : call.phase = .refreshing requestId own reference)
    (held : call.session.request requestId = some request)
    (ownerFound : state.database.request requestId = some owner)
    (now : Time) :
    (Database.refreshRow request (call.session.derivedStatus requestId)
        reference now owner).status =
        call.session.derivedStatus requestId ∨
      ¬ (call.session.derivedStatus requestId).Terminal ∧
        ¬ (Database.refreshRow request (call.session.derivedStatus requestId)
          reference now owner).status.Terminal := by
  obtain ⟨row, rowFound, key, _, kept, _⟩ :=
    (core.sessions call member).request requestId request held
  rw [ownerFound] at rowFound
  cases rowFound
  have hit : decide (owner.id = request.id) = true :=
    decide_eq_true ((Database.request_mem ownerFound).2.trans key.symm)
  rw [Database.refreshRow, if_pos hit]
  by_cases same : call.session.derivedStatus requestId = request.status
  · have unchanged : (request.flush (request.refresh
        (call.session.derivedStatus requestId) reference) owner now).status =
        owner.status := by
      simp [PrivacyRequest.flush, same]
    rw [unchanged]
    by_cases terminal : (call.session.derivedStatus requestId).Terminal
    · left
      rw [same] at terminal ⊢
      exact kept terminal
    · right
      refine ⟨terminal, ?_⟩
      rcases core.derived_status member phase ownerFound with
        ⟨derived, _⟩ | ⟨_, open_⟩
      · exact absurd derived terminal
      · exact open_
  · left
    exact flushColumn_of_ne same _

/-- The commit of a refresh keeps terminal rows. -/
theorem leads_refresh (core : Core state) (member : call ∈ state.calls)
    (phase : call.phase = .refreshing requestId own reference)
    (held : call.session.request requestId = some request)
    (uploaded : request.needsArtifact
      (call.session.derivedStatus requestId) = true → reference.isSome = true)
    (runtime : Runtime) (noticeId : String) (now : Time) :
    state.database.Leads (commitRefresh runtime call.session request reference
      noticeId now state.database) := by
  obtain ⟨owner, ownerFound, key, _, _, _⟩ :=
    (core.sessions call member).request requestId request held
  obtain ⟨ownerMember, ownerId⟩ := Database.request_mem ownerFound
  have revises := Database.commitRefresh_revises runtime call.session request
    reference noticeId now state.database
  rw [key] at revises
  refine revises.leads (fun _ _ _ => rfl) ?_
    (fun row path => Database.refreshRow_path uploaded now path)
  intro row rowMember terminal
  by_cases hit : row.id = request.id
  · have isOwner : row = owner := core.tidy.tables.requestIds.eq_of_mem
      rowMember ownerMember ((hit.trans key).trans ownerId.symm)
    subst isOwner
    rcases core.derived_status member phase ownerFound with
      ⟨derived, same⟩ | ⟨_, open_⟩
    · rcases core.refreshRow_status member phase held ownerFound now with
        written | ⟨notDerived, _⟩
      · rw [written, same]
        exact (core.finished requestId row ownerFound terminal).symm
      · exact absurd derived notDerived
    · exact absurd terminal open_
  · unfold Database.refreshRow
    rw [if_neg (by simpa using hit)]

/-- The refreshed copy agrees with the row it is written to. -/
theorem agrees_refresh (core : Core state) (member : call ∈ state.calls)
    (phase : call.phase = .refreshing requestId own reference)
    (held : call.session.request requestId = some request)
    (uploaded : request.needsArtifact
      (call.session.derivedStatus requestId) = true → reference.isSome = true)
    (runtime : Runtime) (noticeId : String) (now : Time) :
    (call.session.putRequest (request.refresh
        (call.session.derivedStatus requestId) reference)).Agrees
      (commitRefresh runtime call.session request reference noticeId now
        state.database) := by
  have agrees := core.sessions call member
  obtain ⟨owner, ownerFound, key, kind, _, path⟩ :=
    agrees.request requestId request held
  have leads := core.leads_refresh member phase held uploaded runtime noticeId
    now
  have revises := Database.commitRefresh_revises runtime call.session request
    reference noticeId now state.database
  rw [key] at revises
  have requestFound := revises.request_eq requestId
  rw [ownerFound] at requestFound
  refine (agrees.leads leads).putRequest
    (by rw [PrivacyRequest.refresh_id, key]; exact requestFound) ?_ ?_ ?_
  · rw [(revises.requestKey owner).2]
    exact kind
  · intro terminal
    rcases core.refreshRow_status member phase held ownerFound now with
      written | ⟨notDerived, _⟩
    · exact written
    · exact absurd terminal notDerived
  · intro present
    have hit : decide (owner.id = request.id) = true := decide_eq_true
      ((Database.request_mem ownerFound).2.trans key.symm)
    rw [Database.refreshRow, if_pos hit]
    exact PrivacyRequest.path_flush path present now

/-- A request that is terminal after the commit has the derived status. -/
theorem finished_refresh (core : Core state) (member : call ∈ state.calls)
    (phase : call.phase = .refreshing requestId own reference)
    (held : call.session.request requestId = some request)
    (runtime : Runtime) (noticeId : String) (now : Time) {otherId : String}
    {current : PrivacyRequest}
    (currentFound : (commitRefresh runtime call.session request reference
      noticeId now state.database).request otherId = some current)
    (terminal : current.status.Terminal) :
    current.status = deriveStatus
      ((state.database.tasksOf otherId).map RequestTask.status) := by
  obtain ⟨owner, ownerFound, key, _⟩ :=
    (core.sessions call member).request requestId request held
  by_cases same : otherId = requestId
  · subst same
    have revises := Database.commitRefresh_revises runtime call.session request
      reference noticeId now state.database
    rw [revises.request_eq, ownerFound, key] at currentFound
    cases currentFound
    rcases core.refreshRow_status member phase held ownerFound now with
      written | ⟨_, open_⟩
    · rw [written] at terminal ⊢
      rcases core.derived_status member phase ownerFound with
        ⟨_, derived⟩ | ⟨notDerived, _⟩
      · exact derived
      · exact absurd terminal notDerived
    · exact absurd terminal open_
  · rw [Database.commitRefresh_request_of_ne _ _ _ _ _ _ (key.symm ▸ same)]
      at currentFound
    exact core.finished otherId current currentFound terminal

end Refresh

theorem refreshed (core : Core state) (tidy : next.Tidy)
    (locks : next.Exclusive) {index : Nat} {call : Call} {requestId : String}
    {own reference : Option String} {request : PrivacyRequest}
    {noticeId : String} {now : Time}
    (found : state.calls[index]? = some call)
    (phase : call.phase = .refreshing requestId own reference)
    (held : call.session.request requestId = some request)
    (uploaded : request.needsArtifact
      (call.session.derivedStatus requestId) = true → reference.isSome = true)
    (shape : next = { (state.put index { call with
        session := call.session.putRequest (request.refresh
          (call.session.derivedStatus requestId) reference)
        phase := call.resume (call.refreshResult own) }) with
      database := commitRefresh deployment.runtime call.session request
        reference noticeId now state.database }) :
    Core next ∧ state.database.Leads next.database := by
  have member := List.mem_of_getElem? found
  obtain ⟨_, _, key, _⟩ :=
    (core.sessions call member).request requestId request held
  have leads := core.leads_refresh member phase held uploaded
    deployment.runtime noticeId now
  subst shape
  -- A call that holds a lock now is another one, with the lock of another row.
  have locked : ∀ other ∈ (state.put index { call with
        session := call.session.putRequest (request.refresh
          (call.session.derivedStatus requestId) reference)
        phase := call.resume (call.refreshResult own) }).calls,
      ∀ lockedId lockedOwn lockedReference,
      other.phase = .refreshing lockedId lockedOwn lockedReference →
      other ∈ state.calls ∧ lockedId ≠ requestId := by
    intro other inNext lockedId lockedOwn lockedReference isLocked
    have holds := Phase.refreshes_iff.mpr ⟨_, _, isLocked⟩
    obtain ⟨slot, located⟩ := List.getElem?_of_mem inNext
    rcases State.put_cases found located with ⟨_, new⟩ | ⟨away, old⟩
    · rw [new, call.refreshes_resume] at holds
      cases holds
    · exact ⟨List.mem_of_getElem? old,
        core.locks.elsewhere found phase away old holds⟩
  refine ⟨⟨tidy, ?_, ?_, locks, ?_, ?_⟩, leads⟩
  · intro other inNext
    obtain ⟨slot, located⟩ := List.getElem?_of_mem inNext
    rcases State.put_cases found located with ⟨_, new⟩ | ⟨_, old⟩
    · rw [new]
      exact core.agrees_refresh member phase held uploaded deployment.runtime
        noticeId now
    · exact (core.sessions other (List.mem_of_getElem? old)).leads leads
  · intro otherId current currentFound terminal
    dsimp only at currentFound ⊢
    rw [(Database.commitRefresh_revises ..).tasksOf_eq, List.map_id]
    exact core.finished_refresh member phase held deployment.runtime noticeId
      now currentFound terminal
  · intro other inNext lockedId lockedOwn lockedReference isLocked
    obtain ⟨old, _⟩ := locked other inNext lockedId lockedOwn lockedReference
      isLocked
    exact core.loaded other old lockedId lockedOwn lockedReference isLocked
  · intro other inNext lockedId lockedOwn lockedReference isLocked current
      currentFound terminal
    obtain ⟨old, different⟩ := locked other inNext lockedId lockedOwn
      lockedReference isLocked
    dsimp only at currentFound
    rw [Database.commitRefresh_request_of_ne _ _ _ _ _ _
      (key.symm ▸ different)] at currentFound
    exact core.views other old lockedId lockedOwn lockedReference isLocked
      current currentFound terminal

/-- Where rows are locked, one fenced step keeps the invariant and every
terminal result. -/
theorem step (postgresql : deployment.dialect = .postgresql)
    {action : Action} (core : Core state) (permitted : Fenced state action)
    (stepped : FleetPrivacy.step deployment state action = some next) :
    Core next ∧ state.database.Leads next.database := by
  have tidy := core.tidy.step stepped
  have effect := effect_of_step core.tidy.tables.taskIds stepped
  have locks := core.locks.step postgresql effect
  cases effect with
  | created intake nodup fresh absent =>
      have leads : state.database.Leads
          (intake.insertRows deployment.runtime state.database) :=
        Database.leads_insertRows fresh
      exact ⟨core.still tidy locks leads
        (Database.noneFinished_insertRows _ intake _) rfl, leads⟩
  | relayed action relays extra outbox move =>
      have leads := leads_outbox state.database outbox
      exact ⟨core.still tidy locks leads (noneFinished_refl _ _) rfl, leads⟩
  | opened workerId message executor bound =>
      refine ⟨core.replace_unlocked state.calls.length _ tidy locks
        (Database.Leads.refl _) (noneFinished_refl _ _)
        (fun other current => State.append_cases) (Session.agrees_empty _)
        (fun _ => rfl), Database.Leads.refl _⟩
  | moved action index call after artifacts found move =>
      exact ⟨core.moved tidy locks found move rfl, Database.Leads.refl _⟩
  | messageClaimed index call taskId now found phase claims startable =>
      obtain ⟨leads, none_⟩ := core.leads_markClaimed call.workerId
        (now + deployment.settings.leaseSeconds) claims
      exact ⟨core.replace_unlocked index _ tidy locks leads none_
        (fun other current => State.put_cases found) (Session.agrees_empty _)
        (fun _ => rfl), leads⟩
  | batchClaimed arguments session taskIds selected claims copies requests
      members startable =>
      obtain ⟨leads, none_⟩ := core.leads_markClaimed arguments.workerId
        (arguments.leaseUntil deployment.settings) claims
      refine ⟨core.replace_unlocked state.calls.length _ tidy locks leads
        none_ (fun other current => State.append_cases)
        (core.claimed_agrees copies requests members) (fun _ => rfl), leads⟩
  | selected index call taskId todo row found phase rest member same leased =>
      have stored : ∀ other ∈ [row], other ∈ state.database.tasks := by
        simpa using member
      have agrees := (core.sessions call (List.mem_of_getElem? found)).loadTasks
        core.tidy.tables stored
      refine ⟨core.replace_unlocked index _ tidy locks
        (Database.Leads.refl _) (noneFinished_refl _ _)
        (fun other current => State.put_cases found)
        (agrees.loadRequests core.tidy.tables ?_) (fun _ => rfl),
        Database.Leads.refl _⟩
      exact fun other inFilter => (List.mem_filter.mp inFilter).1
  | recorded index call taskId work task request now found phase held
      requestHeld free =>
      exact core.recorded tidy locks permitted found phase held requestHeld rfl
  | locked index call requestId own session found target free =>
      exact ⟨core.locked tidy locks permitted found target rfl,
        Database.Leads.refl _⟩
  | refreshed index call requestId own reference request noticeId now found
      phase held uploaded fresh =>
      exact core.refreshed tidy locks found phase held uploaded rfl
  | acked index call slot message found subscribed delivered returned =>
      exact ⟨core.replace_unlocked index _ tidy locks
        (Database.Leads.refl _) (noneFinished_refl _ _)
        (fun other current => State.put_cases found)
        (Session.agrees_empty _) (fun _ => rfl), Database.Leads.refl _⟩
  | extended workerId taskId now =>
      have revises := Database.extendTaskLease_revises deployment.settings
        workerId taskId now state.database
      have leads : state.database.Leads (extendTaskLease deployment.settings
          workerId taskId now state.database) := by
        refine revises.leads ?_ (fun _ _ _ => rfl) (fun _ uploaded => uploaded)
        intro row _ terminal
        exact Database.extendRow_of_terminal terminal workerId taskId _
      exact ⟨core.still tidy locks leads (revises.noneFinished
        (fun _ _ terminal => terminal)) rfl, leads⟩

end Core

theorem Core.initial : Core State.initial := by
  refine ⟨State.tidy_initial, ?_, ?_, State.exclusive_initial, ?_, ?_⟩
  · intro call member
    cases member
  · intro requestId row found
    cases found
  · intro call member
    cases member
  · intro call member
    cases member

/-- Terminal tasks keep their status and result, terminal requests their
status. -/
def TerminalKept (earlier later : State) : Prop :=
  (∀ task ∈ earlier.database.tasks, task.status.Terminal →
    ∃ row, later.database.task task.id = some row ∧
      row.status = task.status ∧ row.resultSummary = task.resultSummary) ∧
    ∀ request ∈ earlier.database.requests, request.status.Terminal →
      ∃ row, later.database.request request.id = some row ∧
        row.status = request.status

/-- On PostgreSQL, from every state that a run of fenced steps reaches,
terminal results stay as they are along every fenced continuation. -/
theorem terminal_results_are_final (deployment : Deployment)
    (postgresql : deployment.dialect = .postgresql)
    {actions later : List Action} {middle finish : State}
    (start : Runs (step deployment) Fenced State.initial actions middle)
    (continuation : Runs (step deployment) Fenced middle later finish) :
    TerminalKept middle finish := by
  have reached : Core middle :=
    start.invariant (fun core permitted stepped =>
      (core.step postgresql permitted stepped).1) Core.initial
  have leads : middle.database.Leads finish.database :=
    continuation.related (fun state => Database.Leads.refl state.database)
      (fun left right => left.trans right)
      (fun core permitted stepped => core.step postgresql permitted stepped)
      reached
  refine ⟨?_, ?_⟩
  · intro task member terminal
    obtain ⟨row, found, _, kept⟩ := leads.task task.id task
      (reached.tidy.tables.task_eq member)
    exact ⟨row, found, kept terminal⟩
  · intro request member terminal
    obtain ⟨row, found, _, kept, _⟩ := leads.request request.id request
      (reached.tidy.tables.request_eq member)
    exact ⟨row, found, kept terminal⟩

/-! A message is delivered twice; the second delivery only refreshes. -/

private def finishedExecution : List Action :=
  [.create demoRequest, .processOnce (demoClaim "w1" 0), .selectTask 0,
    .work 0 demoSuccess, .recordTask 0 8, .refreshSelect 0, .upload 0 true 9,
    .refreshCommit 0 "n" 9]

private def duplicateDelivery : List Action :=
  [.relaySelect 2, .relayPublish 0 true true 10, .relayPublish 0 true true 10,
    .relayCommit 0, .deliver "w2" 1 false, .messageGet 1 11, .refreshSelect 1,
    .refreshCommit 1 "m" 12, .ack 1]

private def State.statuses (state : State) :
    List TaskStatus × List RequestStatus :=
  (state.database.tasks.map RequestTask.status,
    state.database.requests.map PrivacyRequest.status)

theorem duplicate_delivery_keeps_results :
    ∃ middle finish,
      Runs (step demoDeployment) Fenced State.initial finishedExecution middle ∧
      Runs (step demoDeployment) Fenced middle duplicateDelivery finish ∧
      middle.statuses = ([.succeeded], [.completed]) ∧
      TerminalKept middle finish := by
  have evaluated : (run (step demoDeployment) Fenced State.initial
      finishedExecution).bind (fun middle =>
        (run (step demoDeployment) Fenced middle duplicateDelivery).map
          fun _ => middle.statuses) = some ([.succeeded], [.completed]) := by
    decide +kernel
  obtain ⟨middle, reached, evaluated⟩ := Option.bind_eq_some_iff.mp evaluated
  obtain ⟨finish, continued, statuses⟩ := Option.map_eq_some_iff.mp evaluated
  have start := runs_of_run reached
  have continuation := runs_of_run continued
  exact ⟨middle, finish, start, continuation, statuses,
    terminal_results_are_final demoDeployment rfl start continuation⟩

/-! The lease of a slow worker expires, another worker finishes the task, and
the slow one then records its failure. -/

private def overtaken : List Action :=
  [.create demoRequest, .processOnce (demoClaim "w1" 0), .selectTask 0,
    .processOnce (demoClaim "w2" 1000), .selectTask 1, .work 1 demoSuccess,
    .recordTask 1 1001, .refreshSelect 1, .upload 1 true 1002,
    .refreshCommit 1 "n" 1003]

private def slowFailure : List Action :=
  [.work 0 { ending := .raised "timeout", deleted := [], deletedAt := 0 },
    .recordTask 0 1004, .refreshSelect 0, .refreshCommit 0 "m" 1005]

theorem slow_worker_overwrites_results :
    ∃ middle finish,
      Runs (step demoDeployment) Always State.initial overtaken middle ∧
      Runs (step demoDeployment) Always middle slowFailure finish ∧
      ¬ TerminalKept middle finish := by
  have evaluated : (run (step demoDeployment) Always State.initial
      overtaken).bind (fun middle =>
        (run (step demoDeployment) Always middle slowFailure).map
          fun finish => (middle.statuses, finish.statuses)) =
      some (([.succeeded], [.completed]), ([.failed], [.failed])) := by
    decide +kernel
  obtain ⟨middle, reached, evaluated⟩ := Option.bind_eq_some_iff.mp evaluated
  obtain ⟨finish, continued, statuses⟩ := Option.map_eq_some_iff.mp evaluated
  refine ⟨middle, finish, runs_of_run reached, runs_of_run continued, ?_⟩
  intro kept
  obtain ⟨before, after⟩ := Prod.mk.inj statuses
  have earlier : middle.database.tasks.map RequestTask.status =
      [.succeeded] := congrArg Prod.fst before
  have later : finish.database.tasks.map RequestTask.status = [.failed] :=
    congrArg Prod.fst after
  obtain ⟨task, tasks, succeeded⟩ := List.map_eq_singleton_iff.mp earlier
  obtain ⟨other, others, failed⟩ := List.map_eq_singleton_iff.mp later
  obtain ⟨row, found, same, _⟩ := kept.1 task (by simp [tasks])
    (by rw [succeeded]; trivial)
  have member := (Database.task_mem found).1
  rw [others, List.mem_singleton] at member
  rw [member, failed, succeeded] at same
  cases same

end FleetPrivacy
