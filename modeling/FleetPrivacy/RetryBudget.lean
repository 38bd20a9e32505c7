import FleetPrivacy.DeadLetters
import FleetPrivacy.Ownership

/-!
# The retry budget of a regional task

`claim_message_task` raises the attempt of a task, and `execute_task` compares
it with the limit when a later transaction commits a failure.  A crash in
between uses up an attempt and commits nothing.  For one task that is claimed
from the queue and executed by a source executor, the relation of attempt,
status and committed outcomes over whole runs follows from what one step can do
to it.
-/

namespace FleetPrivacy

open Transition

/-- What happens to one task. -/
inductive TaskEvent where
  | claimed
  /-- `execute_task` has selected the row; the executor call is next. -/
  | started
  /-- An outcome is committed, with the attempt that was compared. -/
  | recorded (attempt : Nat) (ending : Ending)
  deriving DecidableEq

/-- The execution returned or raised. -/
def TaskEvent.settles : TaskEvent → Bool
  | .recorded _ ending => decide (ending ≠ .cancelled)
  | _ => false

def TaskEvent.fails : TaskEvent → Bool
  | .recorded _ (.raised _) => true
  | _ => false

/-- What a `recordTask` commits for the task. -/
def State.outcome (state : State) (taskId : String) (index : Nat) :
    List TaskEvent :=
  match state.recording index with
  | some (call, recordedId, work) =>
      if recordedId = taskId then
        (call.session.task recordedId).toList.map fun task =>
          .recorded task.attempt work.ending
      else []
  | none => []

def observeTask (deployment : Deployment) (taskId : String) (state : State) :
    Action → List TaskEvent
  | .selectTask index =>
      if state.starting index = some taskId then [.started] else []
  | .recordTask index _ => state.outcome taskId index
  | action =>
      match state.taking deployment action with
      | some taking => if taskId ∈ taking.taskIds then [.claimed] else []
      | none => []

/-- Whoever claims the task is a delivery that is handled with a source
executor. -/
def TakenRegionally (deployment : Deployment) (taskId : String)
    (state : State) (action : Action) : Prop :=
  ∀ taking ∈ state.taking deployment action, taskId ∈ taking.taskIds →
    state.calls[taking.call]?.map Call.executor = some true

/-- The task is handled regionally, and no lease of a live call runs out. -/
def Regional (deployment : Deployment) (taskId : String) (state : State)
    (action : Action) : Prop :=
  LeasesLive state action ∧ TakenRegionally deployment taskId state action

instance (deployment : Deployment) (taskId : String) (state : State)
    (action : Action) :
    Decidable (TakenRegionally deployment taskId state action) :=
  inferInstanceAs (Decidable (∀ taking ∈ state.taking deployment action,
    taskId ∈ taking.taskIds →
      state.calls[taking.call]?.map Call.executor = some true))

instance (deployment : Deployment) (taskId : String) (state : State)
    (action : Action) : Decidable (Regional deployment taskId state action) :=
  inferInstanceAs (Decidable (_ ∧ _))

/-- The budget of a task after a run, with what happened to it. -/
structure WithinRetries (limit : Nat) (taskId : String)
    (past : List TaskEvent) (state : State) : Prop where
  failures : past.countP TaskEvent.fails ≤ limit
  pending : ∀ row, state.database.task taskId = some row →
    row.status = .pending → TaskEvent.claimed ∈ past → row.attempt < limit
  failed : ∀ row, state.database.task taskId = some row →
    row.status = .failed → ∃ attempt message,
      past.getLast? = some (.recorded attempt (.raised message)) ∧
        limit ≤ attempt

/-! ## What a step does to the task -/

/-- The transitions of one task, and what is observed of each. -/
inductive TaskMove (settings : Settings) (taskId : String)
    (state next : State) : List TaskEvent → Prop where
  | absent :
      state.database.task taskId = none →
      next.database.task taskId = none →
      TaskMove settings taskId state next []
  | created (row : RequestTask) :
      state.database.task taskId = none →
      next.database.task taskId = some row →
      row.status = .pending →
      TaskMove settings taskId state next []
  | kept (row after : RequestTask) :
      state.database.task taskId = some row →
      next.database.task taskId = some after →
      after.status = row.status →
      after.attempt = row.attempt →
      TaskMove settings taskId state next []
  | claimed (row : RequestTask) (workerId : String) (leaseUntil : Time) :
      state.database.task taskId = some row →
      ¬ row.status.Terminal →
      next.database.task taskId = some (row.claim workerId leaseUntil) →
      TaskMove settings taskId state next [.claimed]
  | started (row : RequestTask) :
      state.database.task taskId = some row →
      row.status = .running →
      next.database.task taskId = some row →
      TaskMove settings taskId state next [.started]
  | settled (row : RequestTask) (ending : Ending) :
      state.database.task taskId = some row →
      row.status = .running →
      next.database.task taskId = some (row.settle settings true ending) →
      TaskMove settings taskId state next [.recorded row.attempt ending]

theorem TaskMove.same {settings : Settings} {taskId : String}
    {state next : State} {events : List TaskEvent}
    (tasks : next.database.task taskId = state.database.task taskId)
    (silent : events = []) : TaskMove settings taskId state next events := by
  rw [silent]
  cases found : state.database.task taskId with
  | none => exact .absent found (tasks.trans found)
  | some row => exact .kept row row found (tasks.trans found) rfl rfl

/-- The calls that hold the task execute it with a source executor. -/
def State.HeldRegionally (state : State) (taskId : String) : Prop :=
  ∀ call ∈ state.calls, taskId ∈ call.held → call.executor = true

section Regional

variable {deployment : Deployment} {taskId : String} {state next : State}
  {action : Action}

/-- A claim and a start that find no row are silent. -/
theorem observeTask_moved (taskId : String) {index : Nat}
    {call after : Call} (found : state.calls[index]? = some call)
    (move : CallMove deployment state index call action after) :
    observeTask deployment taskId state action = [] := by
  cases move with
  | busy claimedId now phase unclaimable =>
      have unmatched := Database.matches_eq_false unclaimable
      simp [observeTask, State.taking, found, phase, unmatched]
  | skipped startedId todo phase rest unleased =>
      have unmatched := Database.matches_eq_false unleased
      simp [observeTask, State.starting, found, phase, rest, unmatched]
  | _ => rfl

theorem State.taking_messageClaim (deployment : Deployment) {index : Nat}
    {call : Call} {claimedId : String} {now : Time}
    (found : state.calls[index]? = some call)
    (phase : call.phase = .claiming claimedId now)
    (claims : state.database.Claims now [claimedId]) :
    state.taking deployment (.messageClaim index) =
      some ⟨index, call.workerId, [claimedId]⟩ := by
  have matched := Database.matches_iff.mpr
    (claims.claimable claimedId (List.mem_singleton_self claimedId))
  simp [State.taking, found, phase, matched]

theorem State.outcome_recorded {index : Nat} {call : Call}
    {recordedId : String} {work : Work} {task : RequestTask}
    (found : state.calls[index]? = some call)
    (phase : call.phase = .worked recordedId work)
    (held : call.session.task recordedId = some task) :
    state.outcome taskId index = if recordedId = taskId then
      [.recorded task.attempt work.ending] else [] := by
  simp [State.outcome, State.recording, found, phase, held]

/-- Calls take up the task only under the condition on claims. -/
theorem State.HeldRegionally.effect (regional : state.HeldRegionally taskId)
    (taken : TakenRegionally deployment taskId state action)
    (effect : Effect deployment state action next) :
    next.HeldRegionally taskId := by
  have put : ∀ {index : Nat} {call after : Call},
      state.calls[index]? = some call → after.executor = call.executor →
      (taskId ∈ after.held → taskId ∈ call.held) →
      ∀ other ∈ (state.put index after).calls, taskId ∈ other.held →
        other.executor = true := by
    intro index call after found same fewer other member holds
    rcases State.mem_put member with new | old
    · rw [new] at holds ⊢
      rw [same]
      exact regional call (List.mem_of_getElem? found) (fewer holds)
    · exact regional other old holds
  cases effect with
  | created | relayed | extended => exact regional
  | opened =>
      intro call member holds
      rcases State.mem_append_call member with new | old
      · rw [new] at holds
        cases holds
      · exact regional call old holds
  | moved action index call after artifacts found move =>
      refine put found ?_ fun holds => move.held.mem holds
      cases move <;> rfl
  | messageClaimed index call claimedId now found phase claims =>
      intro other member holds
      rcases State.mem_put member with new | old
      · rw [new] at holds ⊢
        have takes := State.taking_messageClaim deployment found phase
          claims
        have executor := taken _ takes holds
        rw [found] at executor
        exact Option.some.inj executor
      · exact regional other old holds
  | batchClaimed arguments session taskIds selected claims =>
      intro call member holds
      rcases State.mem_append_call member with new | old
      · rw [new] at holds
        have takes : state.taking deployment (.processOnce arguments) =
            some ⟨state.calls.length, arguments.workerId, taskIds⟩ := by
          simp [State.taking, selected]
        have executor := taken _ takes holds
        simp at executor
      · exact regional call old holds
  | selected index call selectedId todo row found phase rest =>
      refine put found rfl fun holds => ?_
      rw [Call.held_of_ready phase, rest]
      exact holds
  | recorded index call recordedId work task request now found phase =>
      refine put found (Call.afterRecord_executor ..) fun holds => ?_
      rw [Call.held_of_worked phase]
      exact List.mem_cons_of_mem recordedId
        ((call.held_afterRecord ..).mem holds)
  | locked index call requestId own session found target =>
      exact put found rfl fun holds => List.mem_append_right _ holds
  | refreshed index call requestId own reference request noticeId now found =>
      refine put found rfl fun holds => ?_
      rw [Call.held_of_idle (call.current_resume _ _ _)] at holds
      exact List.mem_append_right _ holds
  | acked index call slot message found =>
      refine put found rfl fun holds => ?_
      cases holds

theorem taskMove_created (intake : Intake) (runtime : Runtime)
    (settings : Settings) :
    TaskMove settings taskId state
      { state with database := intake.insertRows runtime state.database }
      [] := by
  have lookup : (intake.insertRows runtime state.database).task taskId =
      (state.database.task taskId).or
        (Table.get RequestTask.id taskId intake.tasks) :=
    Database.insertRows_task taskId
  cases found : state.database.task taskId with
  | some row =>
      rw [found] at lookup
      exact .kept row row found lookup rfl rfl
  | none =>
      rw [found, Option.none_or] at lookup
      cases new : Table.get RequestTask.id taskId intake.tasks with
      | none => exact .absent found (lookup.trans new)
      | some row =>
          refine .created row found (lookup.trans new) ?_
          obtain ⟨member, _⟩ := Table.get_mem new
          obtain ⟨⟨source, position⟩, _, rfl⟩ := List.mem_map.mp member
          rfl

/-- A claim of some tasks, for one task. -/
theorem taskMove_claimed (tidy : state.Tidy) (settings : Settings)
    {taskIds : List String} {workerId : String} {leaseUntil now : Time}
    (claims : state.database.Claims now taskIds)
    (written : next.database = state.database.markClaimed taskIds workerId
      leaseUntil now) :
    TaskMove settings taskId state next
      (if taskId ∈ taskIds then [.claimed] else []) := by
  have revises := Database.markClaimed_revises state.database taskIds workerId
    leaseUntil now
  split
  next taken =>
    obtain ⟨row, inTable, same, claimable⟩ := claims.claimable taskId taken
    have found := tidy.tables.task_eq inTable
    rw [same] at found
    apply TaskMove.claimed row workerId leaseUntil found
      (RequestTask.not_terminal_of_claimable claimable)
    rw [written, revises.task_eq, found, Option.map_some, Database.claimRow,
      if_pos (decide_eq_true (same ▸ taken))]
  next missed =>
    apply TaskMove.same ?_ rfl
    rw [written]
    exact Database.markClaimed_task_of_not_mem _ _ _ _ missed

/-- The commit of an outcome, for one task. -/
theorem taskMove_recorded (attended : Attended state)
    (regional : state.HeldRegionally taskId) {index : Nat} {call : Call}
    {recordedId : String} {work : Work} {task : RequestTask}
    (request : PrivacyRequest) (now : Time)
    (found : state.calls[index]? = some call)
    (phase : call.phase = .worked recordedId work)
    (held : call.session.task recordedId = some task)
    (written : next.database = recordOutcome deployment.runtime
      deployment.settings call.executor work task request now state.database) :
    TaskMove deployment.settings taskId state next
      (state.outcome taskId index) := by
  have tidy := attended.sound.grounded.tidy
  have member := List.mem_of_getElem? found
  have revises := Database.recordOutcome_revises deployment.runtime
    deployment.settings call.executor work task request now state.database
  rw [State.outcome_recorded found phase held]
  split
  next own =>
    subst own
    have holds : recordedId ∈ call.held := by
      rw [Call.held_of_worked phase]
      exact List.mem_cons_self
    obtain ⟨row, rowFound, leased⟩ :=
      (attended.holding.leases call member).rows recordedId holds
    have settled := attended.executing.recordRow_eq tidy deployment.settings
      found phase held rowFound
    -- The compared attempt is the one in the row.
    obtain ⟨_, current⟩ :=
      attended.executing call member recordedId holds row rowFound
    have attempt : task.attempt = row.attempt := by
      rw [← (current task held).columns]
    rw [attempt]
    apply TaskMove.settled row work.ending rowFound
      (RequestTask.leasedBy_iff.mp leased).1
    rw [written, revises.task_eq, rowFound, Option.map_some, settled,
      regional call member holds]
  next other =>
    apply TaskMove.same ?_ rfl
    have isTask := tidy.keyed call member recordedId task held
    rw [written]
    apply Database.recordOutcome_task_of_ne
    rw [isTask]
    exact Ne.symm other

/-- The transitions of a regional task. -/
theorem Attended.taskMove (attended : Attended state)
    (regional : state.HeldRegionally taskId)
    (effect : Effect deployment state action next) :
    TaskMove deployment.settings taskId state next
      (observeTask deployment taskId state action) := by
  have tidy := attended.sound.grounded.tidy
  cases effect with
  | created intake => exact taskMove_created intake _ _
  | relayed action relays extra outbox move =>
      exact .same rfl (by cases move <;> rfl)
  | opened | locked | acked => exact .same rfl rfl
  | moved action index call after artifacts found move =>
      exact .same rfl (observeTask_moved taskId found move)
  | messageClaimed index call claimedId now found phase claims =>
      have takes := State.taking_messageClaim deployment found phase claims
      simp only [observeTask, takes]
      exact taskMove_claimed tidy _ claims rfl
  | batchClaimed arguments session taskIds selected claims =>
      simp only [observeTask, State.taking, selected]
      exact taskMove_claimed tidy _ claims rfl
  | selected index call selectedId todo row found phase rest member same
      leased =>
      simp only [observeTask,
        State.starting_eq found phase rest member same leased]
      split
      next isTask =>
        have rowFound := tidy.tables.task_eq member
        rw [same.trans (Option.some.inj isTask)] at rowFound
        exact .started row rowFound (RequestTask.leasedBy_iff.mp leased).1
          rowFound
      next => exact .same rfl rfl
  | recorded index call recordedId work task request now found phase held =>
      exact taskMove_recorded attended regional request now found phase held
        rfl
  | refreshed =>
      exact .same (Database.commitRefresh_task ..) rfl
  | extended workerId extendedId now =>
      have lookup := (Database.extendTaskLease_revises deployment.settings
        workerId extendedId now state.database).task_eq taskId
      cases found : state.database.task taskId with
      | none =>
          rw [found] at lookup
          exact .absent found lookup
      | some row =>
          rw [found] at lookup
          exact .kept row _ found lookup (Database.extendRow_status ..)
            (Database.extendRow_attempt ..)

end Regional

/-! ## The budget of the task -/

/-- The row of the task against what happened to it. -/
structure RequestTask.Budgeted (settings : Settings) (row : RequestTask)
    (past : List TaskEvent) : Prop where
  within : row.Within settings (past.countP TaskEvent.settles)
  total : past.countP TaskEvent.settles ≤ settings.maxTaskAttempts
  pending : row.status = .pending → TaskEvent.claimed ∈ past →
    row.attempt < settings.maxTaskAttempts
  failed : row.status = .failed → ∃ attempt message,
    past.getLast? = some (.recorded attempt (.raised message)) ∧
      settings.maxTaskAttempts ≤ attempt

namespace RequestTask.Budgeted

variable {settings : Settings} {row : RequestTask} {past : List TaskEvent}

theorem fresh (pending : row.status = .pending) :
    row.Budgeted settings [] where
  within := .fresh pending
  total := Nat.zero_le _
  pending := fun _ claimed => nomatch claimed
  failed := fun isFailed => by
    rw [pending] at isFailed
    cases isFailed

/-- Only the status and the attempt of the row are looked at. -/
theorem congr (budgeted : row.Budgeted settings past) {after : RequestTask}
    (status : after.status = row.status)
    (attempt : after.attempt = row.attempt) : after.Budgeted settings past := by
  obtain ⟨⟨spent, running, left⟩, total, pending, failed⟩ := budgeted
  constructor
  · constructor
    · rw [attempt]
      exact spent
    · rw [status, attempt]
      exact running
    · rw [status]
      exact left
  · exact total
  · rw [status, attempt]
    exact pending
  · rw [status]
    exact failed

theorem claim (budgeted : row.Budgeted settings past)
    (open_ : ¬ row.status.Terminal) (workerId : String) (leaseUntil : Time) :
    (row.claim workerId leaseUntil).Budgeted settings
      (past ++ [.claimed]) := by
  have count : (past ++ [TaskEvent.claimed]).countP TaskEvent.settles =
      past.countP TaskEvent.settles := List.countP_append
  constructor
  · rw [count]
    exact budgeted.within.claim open_ workerId leaseUntil
  · rw [count]
    exact budgeted.total
  · intro isPending
    cases isPending
  · intro isFailed
    cases isFailed

theorem start (budgeted : row.Budgeted settings past)
    (running : row.status = .running) :
    row.Budgeted settings (past ++ [.started]) := by
  have count : (past ++ [TaskEvent.started]).countP TaskEvent.settles =
      past.countP TaskEvent.settles := List.countP_append
  constructor
  · rw [count]
    exact budgeted.within
  · rw [count]
    exact budgeted.total
  · intro isPending
    rw [running] at isPending
    cases isPending
  · intro isFailed
    rw [running] at isFailed
    cases isFailed

/-- A cancelled execution leaves the task running, without a lease. -/
theorem release (budgeted : row.Budgeted settings past)
    (running : row.status = .running) :
    (row.settle settings true .cancelled).Budgeted settings
      (past ++ [.recorded row.attempt .cancelled]) := by
  have count : (past ++ [TaskEvent.recorded row.attempt .cancelled]).countP
      TaskEvent.settles = past.countP TaskEvent.settles := List.countP_append
  have status : (row.settle settings true .cancelled).status = .running :=
    running
  constructor
  · rw [count]
    exact budgeted.within.release true
  · rw [count]
    exact budgeted.total
  · rw [status]
    intro isPending
    cases isPending
  · rw [status]
    intro isFailed
    cases isFailed

/-- An outcome uses up one attempt; a failure at the limit is final. -/
theorem settle (budgeted : row.Budgeted settings past)
    (positive : 1 ≤ settings.maxTaskAttempts)
    (running : row.status = .running) {ending : Ending}
    (uncancelled : ending ≠ .cancelled) :
    (row.settle settings true ending).Budgeted settings
      (past ++ [.recorded row.attempt ending]) := by
  have open_ : ¬ row.status.Terminal := by
    rw [running]
    exact not_false
  have count : (past ++ [TaskEvent.recorded row.attempt ending]).countP
      TaskEvent.settles = past.countP TaskEvent.settles + 1 := by
    simp [TaskEvent.settles, uncancelled]
  have left : past.countP TaskEvent.settles < settings.maxTaskAttempts := by
    by_cases none_ : past.countP TaskEvent.settles = 0
    · omega
    · exact budgeted.within.left open_ none_
  constructor
  · rw [count]
    exact budgeted.within.settle running true uncancelled
  · omega
  · intro isPending _
    cases ending with
    | cancelled => exact absurd rfl uncancelled
    | returned payload => cases isPending
    | raised message =>
        by_contra exhausted
        simp [RequestTask.settle] at isPending exhausted
        omega
  · intro isFailed
    cases ending with
    | cancelled => exact absurd rfl uncancelled
    | returned payload => cases isFailed
    | raised message =>
        refine ⟨row.attempt, message, List.getLast?_concat, ?_⟩
        by_contra retried
        simp [RequestTask.settle] at isFailed
        omega

end RequestTask.Budgeted

/-- Nothing has happened to a missing task; a row keeps its budget. -/
structure Retrying (settings : Settings) (taskId : String)
    (past : List TaskEvent) (state : State) : Prop where
  attended : Attended state
  regional : state.HeldRegionally taskId
  absent : state.database.task taskId = none → past = []
  budgeted : ∀ row, state.database.task taskId = some row →
    row.Budgeted settings past

namespace Retrying

variable {deployment : Deployment} {taskId : String} {past : List TaskEvent}
  {state next : State} {action : Action}

theorem initial (settings : Settings) (taskId : String) :
    Retrying settings taskId [] State.initial where
  attended := Attended.initial
  regional := fun _ member => nomatch member
  absent := fun _ => rfl
  budgeted := fun _ found => nomatch found

/-- One transition of the task keeps its budget. -/
theorem move {settings : Settings} {events : List TaskEvent}
    (retrying : Retrying settings taskId past state)
    (positive : 1 ≤ settings.maxTaskAttempts)
    (move : TaskMove settings taskId state next events) :
    (next.database.task taskId = none → past ++ events = []) ∧
      ∀ row, next.database.task taskId = some row →
        row.Budgeted settings (past ++ events) := by
  have only : ∀ {after : RequestTask},
      next.database.task taskId = some after →
      after.Budgeted settings (past ++ events) →
      (next.database.task taskId = none → past ++ events = []) ∧
        ∀ row, next.database.task taskId = some row →
          row.Budgeted settings (past ++ events) := by
    intro after located budgeted
    constructor
    · intro missing
      rw [located] at missing
      cases missing
    · intro row found
      rw [located] at found
      cases found
      exact budgeted
  cases move with
  | absent missing gone =>
      rw [retrying.absent missing]
      refine ⟨fun _ => rfl, ?_⟩
      intro row found
      rw [gone] at found
      cases found
  | created row missing located pending =>
      apply only located
      rw [retrying.absent missing]
      exact .fresh pending
  | kept row after found located status attempt =>
      apply only located
      rw [List.append_nil]
      exact (retrying.budgeted row found).congr status attempt
  | claimed row workerId leaseUntil found open_ located =>
      apply only located
      exact (retrying.budgeted row found).claim open_ workerId leaseUntil
  | started row found running located =>
      apply only located
      exact (retrying.budgeted row found).start running
  | settled row ending found running located =>
      apply only located
      by_cases cancelled : ending = .cancelled
      · rw [cancelled]
        exact (retrying.budgeted row found).release running
      · exact (retrying.budgeted row found).settle positive running cancelled

theorem step (retrying : Retrying deployment.settings taskId past state)
    (positive : 1 ≤ deployment.settings.maxTaskAttempts)
    (allowed : Regional deployment taskId state action)
    (stepped : FleetPrivacy.step deployment state action = some next) :
    Retrying deployment.settings taskId
      (past ++ observeTask deployment taskId state action) next := by
  have attended := retrying.attended
  have effect := effect_of_step attended.sound.grounded.tidy.tables.taskIds
    stepped
  obtain ⟨absent, budgeted⟩ := retrying.move positive
    (attended.taskMove retrying.regional effect)
  exact ⟨attended.step allowed.1 stepped,
    retrying.regional.effect allowed.2 effect, absent, budgeted⟩

theorem withinRetries {settings : Settings}
    (retrying : Retrying settings taskId past state) :
    WithinRetries settings.maxTaskAttempts taskId past state := by
  have failures : past.countP TaskEvent.fails ≤
      past.countP TaskEvent.settles := by
    apply List.countP_mono_left
    intro event _ fails
    cases event with
    | claimed | started => cases fails
    | recorded attempt ending =>
        cases ending with
        | raised message => rfl
        | returned | cancelled => cases fails
  constructor
  · cases found : state.database.task taskId with
    | none =>
        rw [retrying.absent found]
        exact Nat.zero_le _
    | some row =>
        exact failures.trans (retrying.budgeted row found).total
  · intro row found
    exact (retrying.budgeted row found).pending
  · intro row found
    exact (retrying.budgeted row found).failed

end Retrying

/-- Nothing happens to a finished task. -/
theorem TaskMove.silent_of_done {settings : Settings} {taskId : String}
    {state next : State} {events : List TaskEvent}
    (move : TaskMove settings taskId state next events)
    (done : state.database.Done taskId) : events = [] := by
  obtain ⟨row, found, terminal⟩ := done
  cases move with
  | absent | created | kept => rfl
  | claimed other workerId leaseUntil otherFound open_ =>
      rw [found] at otherFound
      cases otherFound
      exact absurd terminal open_
  | started other otherFound running
  | settled other ending otherFound running =>
      rw [found] at otherFound
      cases otherFound
      rw [running] at terminal
      cases terminal

theorem Attended.history_of_done {deployment : Deployment} {taskId : String}
    {state later : State} {actions : List Action} (attended : Attended state)
    (regional : state.HeldRegionally taskId)
    (done : state.database.Done taskId)
    (execution : Runs (FleetPrivacy.step deployment)
      (Regional deployment taskId) state actions later) :
    history (FleetPrivacy.step deployment) (observeTask deployment taskId)
      state actions = [] := by
  induction execution with
  | nil => rfl
  | cons allowed stepped _ induction =>
      have effect := effect_of_step
        attended.sound.grounded.tidy.tables.taskIds stepped
      have silent :=
        (attended.taskMove regional effect).silent_of_done done
      have rest := induction (attended.step allowed.1 stepped)
        (regional.effect allowed.2 effect) (attended.done effect done)
      simp only [history, stepped, silent, rest, List.append_nil]

/-- A task that deliveries claim for a source executor fails at most as often
as it may be attempted, and only finally at the limit; once it is finished
nothing happens to it. -/
theorem regional_retry_budget (deployment : Deployment) (taskId : String)
    (positive : 1 ≤ deployment.settings.maxTaskAttempts)
    {actions : List Action} {state : State}
    (execution : Runs (step deployment) (Regional deployment taskId)
      State.initial actions state) :
    WithinRetries deployment.settings.maxTaskAttempts taskId
        (history (step deployment) (observeTask deployment taskId)
          State.initial actions) state ∧
      (state.database.Done taskId → ∀ more later,
        Runs (step deployment) (Regional deployment taskId) state more later →
        history (step deployment) (observeTask deployment taskId) state
          more = []) := by
  have reached : Retrying deployment.settings taskId
      ([] ++ history (step deployment) (observeTask deployment taskId)
        State.initial actions) state :=
    execution.invariant_with_history
      (fun retrying allowed stepped => retrying.step positive allowed stepped)
      (Retrying.initial deployment.settings taskId)
  rw [List.nil_append] at reached
  refine ⟨reached.withinRetries, ?_⟩
  intro done more later continued
  exact reached.attended.history_of_done reached.regional done continued

/-! One worker exits after its claim; four more attempts fail after the lease
of the first has run out. -/

private def failedAttempt (call : Nat) (now : Time) : List Action :=
  [.deliver "w" 1 true, .messageGet call now, .messageClaim call,
    .selectTask call, .work call ⟨.raised "timeout", [], 0⟩,
    .recordTask call now]

private def exhaustingRun : List Action :=
  .create demoRequest :: demoRelay 0 2 ++
    [.deliver "v" 1 true, .messageGet 0 20, .messageClaim 0, .crash 0] ++
    failedAttempt 1 100 ++ failedAttempt 2 110 ++ failedAttempt 3 120 ++
    failedAttempt 4 130

theorem crash_and_four_failures_exhaust_a_task :
    1 ≤ demoDeployment.settings.maxTaskAttempts ∧
      ∃ state, Runs (step demoDeployment) (Regional demoDeployment "aa")
          State.initial exhaustingRun state ∧
        (state.database.task "aa").map
            (fun task => (task.status, task.attempt)) = some (.failed, 5) ∧
        WithinRetries 5 "aa" (history (step demoDeployment)
          (observeTask demoDeployment "aa") State.initial exhaustingRun)
          state ∧
        ∀ more later, Runs (step demoDeployment)
            (Regional demoDeployment "aa") state more later →
          history (step demoDeployment) (observeTask demoDeployment "aa") state
            more = [] := by
  have positive : 1 ≤ demoDeployment.settings.maxTaskAttempts := by decide
  have evaluated : (run (step demoDeployment) (Regional demoDeployment "aa")
      State.initial exhaustingRun).map (fun state =>
        (state.database.task "aa").map fun task =>
          (task.status, task.attempt)) = some (some (.failed, 5)) := by
    decide +kernel
  obtain ⟨state, result, failed⟩ := Option.map_eq_some_iff.mp evaluated
  have execution := runs_of_run result
  obtain ⟨within, silent⟩ :=
    regional_retry_budget demoDeployment "aa" positive execution
  obtain ⟨row, found, columns⟩ := Option.map_eq_some_iff.mp failed
  have terminal : row.status.Terminal := by
    have status : row.status = .failed := congrArg Prod.fst columns
    rw [status]
    trivial
  exact ⟨positive, state, execution, failed, within,
    silent ⟨row, found, terminal⟩⟩

end FleetPrivacy
