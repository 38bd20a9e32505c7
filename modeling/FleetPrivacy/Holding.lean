import FleetPrivacy.Finality

/-!
# Live executions and their leases

A call holds the tasks it has claimed and not yet recorded.  As long as no
lease of a live call runs out, held tasks stay leased by their holder and have
no other; an outcome is then always recorded by the lease holder.
-/

namespace FleetPrivacy

open Transition

/-- The tasks that a call has claimed and not yet recorded. -/
def Call.held (call : Call) : List String :=
  call.current.toList ++ call.todo

/-- At the time `now`, no lease of a live call has run out. -/
def State.Unexpired (state : State) (now : Time) : Prop :=
  ∀ call ∈ state.calls, ∀ taskId ∈ call.held,
    ∀ row ∈ state.database.tasks, row.id = taskId →
      ∀ expiry ∈ row.leaseExpiresAt, now ≤ expiry

/-- The clock reading that a claim compares leases with. -/
def State.claimClock (state : State) : Action → Option Time
  | .messageClaim index =>
      match state.calls[index]? with
      | some call =>
          match call.phase with
          | .claiming _ now => some now
          | _ => none
      | none => none
  | .processOnce arguments => some arguments.now
  | _ => none

/-- Claims are made while the leases of all live calls are unexpired. -/
def LeasesLive (state : State) (action : Action) : Prop :=
  ∀ now ∈ state.claimClock action, state.Unexpired now

instance (state : State) (now : Time) : Decidable (state.Unexpired now) :=
  inferInstanceAs (Decidable (∀ call ∈ state.calls, ∀ taskId ∈ call.held,
    ∀ row ∈ state.database.tasks, row.id = taskId →
      ∀ expiry ∈ row.leaseExpiresAt, now ≤ expiry))

instance (state : State) (action : Action) :
    Decidable (LeasesLive state action) :=
  inferInstanceAs (Decidable
    (∀ now ∈ state.claimClock action, state.Unexpired now))

/-- Everything except `process_once`. -/
def Action.queued : Action → Bool
  | .processOnce _ => false
  | _ => true

/-- The steps of the queue deployment, while leases live. -/
def QueueDriven (state : State) (action : Action) : Prop :=
  action.queued = true ∧ LeasesLive state action

instance (state : State) (action : Action) :
    Decidable (QueueDriven state action) :=
  inferInstanceAs (Decidable (_ ∧ _))

namespace Call

@[simp] theorem held_close (call : Call) : call.close.held = [] := rfl

theorem held_of_idle {call : Call} (idle : call.current = none) :
    call.held = call.todo := by
  simp [held, idle]

theorem mem_held_of_current {call : Call} {taskId : String}
    (busy : call.current = some taskId) : taskId ∈ call.held := by
  simp [held, busy]

/-- The task of a recorded outcome is given up, the rest stays. -/
theorem held_of_worked {call : Call} {taskId : String} {work : Work}
    (phase : call.phase = .worked taskId work) :
    call.held = taskId :: call.todo := by
  simp [held, current, phase]

theorem held_of_ready {call : Call} (phase : call.phase = .ready) :
    call.held = call.todo := by
  simp [held, current, phase]

theorem held_afterRecord (deployment : Deployment) (call : Call)
    (taskId : String) (work : Work) (task : RequestTask)
    (request : PrivacyRequest) :
    (call.afterRecord deployment taskId work task request).held.Sublist
      call.todo := by
  rw [held_of_idle (call.current_afterRecord ..)]
  exact (call.todo_afterRecord ..).sublist

end Call

/-- A move takes up no task. -/
theorem CallMove.held {deployment : Deployment} {state : State}
    {index : Nat} {call next : Call} {action : Action}
    (move : CallMove deployment state index call action next) :
    next.held.Sublist call.held := by
  rcases move.frame with closed | ⟨_, kept | idle⟩
  · rw [closed, Call.held_close]
    exact List.nil_sublist _
  · unfold Call.held
    rw [kept]
    exact move.todo.sublist.append_left _
  · rw [Call.held_of_idle idle]
    exact move.todo.sublist.trans (List.sublist_append_right _ _)

/-! ## The invariant -/

/-- The held tasks are distinct, and their rows leased by the call. -/
structure Call.Leases (call : Call) (database : Database) : Prop where
  nodup : call.held.Nodup
  rows : ∀ taskId ∈ call.held, ∃ row, database.task taskId = some row ∧
    row.leasedBy call.workerId = true

structure Holding (state : State) : Prop where
  leases : ∀ call ∈ state.calls, call.Leases state.database
  exclusive : ∀ (first second : Nat) (left right : Call) (taskId : String),
    state.calls[first]? = some left → state.calls[second]? = some right →
    taskId ∈ left.held → taskId ∈ right.held → first = second

namespace Holding

variable {deployment : Deployment} {state next : State}

/-- One call is replaced or added; the rows that the others hold stay
leased. -/
theorem replace (holding : Holding state) (index : Nat) (call : Call)
    (calls : ∀ (other : Nat) (current : Call),
      next.calls[other]? = some current →
      other = index ∧ current = call ∨
        other ≠ index ∧ state.calls[other]? = some current)
    (kept : ∀ (other : Nat) (current : Call), other ≠ index →
      state.calls[other]? = some current → ∀ taskId ∈ current.held,
      ∀ row, state.database.task taskId = some row →
      row.leasedBy current.workerId = true →
      ∃ after, next.database.task taskId = some after ∧
        after.leasedBy current.workerId = true)
    (leases : call.Leases next.database)
    (alone : ∀ taskId ∈ call.held, ∀ (other : Nat) (current : Call),
      other ≠ index → state.calls[other]? = some current →
      taskId ∉ current.held) : Holding next := by
  constructor
  · intro current inNext
    obtain ⟨slot, found⟩ := List.getElem?_of_mem inNext
    rcases calls slot current found with ⟨_, new⟩ | ⟨away, old⟩
    · rw [new]
      exact leases
    · have before := holding.leases current (List.mem_of_getElem? old)
      refine ⟨before.nodup, ?_⟩
      intro taskId member
      obtain ⟨row, rowFound, leased⟩ := before.rows taskId member
      exact kept slot current away old taskId member row rowFound leased
  · intro first second left right taskId leftFound rightFound leftHolds
      rightHolds
    rcases calls first left leftFound with ⟨isFirst, new⟩ | ⟨notFirst, old⟩
    · rcases calls second right rightFound with
        ⟨isSecond, _⟩ | ⟨notSecond, rightOld⟩
      · exact isFirst.trans isSecond.symm
      · rw [new] at leftHolds
        exact absurd rightHolds
          (alone taskId leftHolds second right notSecond rightOld)
    · rcases calls second right rightFound with ⟨_, new⟩ | ⟨_, rightOld⟩
      · rw [new] at rightHolds
        exact absurd leftHolds (alone taskId rightHolds first left notFirst old)
      · exact holding.exclusive first second left right taskId old rightOld
          leftHolds rightHolds

/-- The call in a slot gives up tasks, at most; the task rows stay. -/
theorem shrink (holding : Holding state) {index : Nat} {call after : Call}
    (found : state.calls[index]? = some call)
    (calls : ∀ (other : Nat) (current : Call),
      next.calls[other]? = some current →
      other = index ∧ current = after ∨
        other ≠ index ∧ state.calls[other]? = some current)
    (tasks : next.database.tasks = state.database.tasks)
    (worker : after.workerId = call.workerId)
    (fewer : after.held.Sublist call.held) : Holding next := by
  have lookup : ∀ taskId, next.database.task taskId =
      state.database.task taskId := by
    intro taskId
    unfold Database.task
    rw [tasks]
  have before := holding.leases call (List.mem_of_getElem? found)
  refine holding.replace index after calls ?_ ⟨before.nodup.sublist fewer, ?_⟩
    ?_
  · intro other current _ _ taskId _ row rowFound leased
    exact ⟨row, (lookup taskId).trans rowFound, leased⟩
  · intro taskId member
    rw [lookup, worker]
    exact before.rows taskId (fewer.mem member)
  · intro taskId member other current different otherFound holds
    exact different (holding.exclusive other index current call taskId
      otherFound found holds (fewer.mem member))

/-- An unheld call appears or takes a slot; leased rows stay leased. -/
theorem idle (holding : Holding state) (index : Nat) (call : Call)
    (calls : ∀ (other : Nat) (current : Call),
      next.calls[other]? = some current →
      other = index ∧ current = call ∨
        other ≠ index ∧ state.calls[other]? = some current)
    (kept : ∀ taskId row workerId, state.database.task taskId = some row →
      row.leasedBy workerId = true →
      ∃ after, next.database.task taskId = some after ∧
        after.leasedBy workerId = true)
    (empty : call.held = []) : Holding next := by
  refine holding.replace index call calls ?_ ⟨?_, ?_⟩ ?_
  · intro other current _ _ taskId _ row rowFound leased
    exact kept taskId row current.workerId rowFound leased
  · rw [empty]
    exact List.nodup_nil
  · intro taskId member
    rw [empty] at member
    cases member
  · intro taskId member
    rw [empty] at member
    cases member

/-- Steps that touch no call. -/
theorem still (holding : Holding state) (calls : next.calls = state.calls)
    (kept : ∀ taskId row workerId, state.database.task taskId = some row →
      row.leasedBy workerId = true →
      ∃ after, next.database.task taskId = some after ∧
        after.leasedBy workerId = true) : Holding next := by
  constructor
  · intro call member
    rw [calls] at member
    have before := holding.leases call member
    refine ⟨before.nodup, ?_⟩
    intro taskId held
    obtain ⟨row, found, leased⟩ := before.rows taskId held
    exact kept taskId row call.workerId found leased
  · rw [calls]
    exact holding.exclusive

/-- No live call holds a task that a claim takes. -/
theorem unheld_of_claims (holding : Holding state) {now : Time}
    (unexpired : state.Unexpired now) {taskIds : List String}
    (unique : Table.KeyUnique RequestTask.id state.database.tasks)
    (claims : state.database.Claims now taskIds) :
    ∀ taskId ∈ taskIds, ∀ call ∈ state.calls, taskId ∉ call.held := by
  intro taskId taken call member holds
  obtain ⟨row, inTable, same, claimable⟩ := claims.claimable taskId taken
  obtain ⟨heldRow, found, leased⟩ := (holding.leases call member).rows taskId
    holds
  obtain ⟨heldMember, heldId⟩ := Database.task_mem found
  have isRow : heldRow = row :=
    unique.eq_of_mem heldMember inTable (heldId.trans same.symm)
  rw [isRow] at leased
  rcases RequestTask.claimable_iff.mp claimable with pending | ⟨_, expired⟩
  · rw [(RequestTask.leasedBy_iff.mp leased).1] at pending
    cases pending
  · obtain ⟨expiry, lease, before⟩ := expired
    have live := unexpired call member taskId holds row inTable same expiry
      lease
    exact absurd before (not_lt.mpr live)

/-- A call claims tasks that nobody holds. -/
theorem claimed (holding : Holding state) (tidy : state.Tidy) {now : Time}
    (unexpired : state.Unexpired now) {taskIds : List String}
    (claims : state.database.Claims now taskIds) (leaseUntil : Time)
    (index : Nat) (call : Call)
    (calls : ∀ (other : Nat) (current : Call),
      next.calls[other]? = some current →
      other = index ∧ current = call ∨
        other ≠ index ∧ state.calls[other]? = some current)
    (written : next.database = state.database.markClaimed taskIds call.workerId
      leaseUntil now)
    (holds : call.held = taskIds) : Holding next := by
  have revises := Database.markClaimed_revises state.database taskIds
    call.workerId leaseUntil now
  have unheld := holding.unheld_of_claims unexpired tidy.tables.taskIds claims
  refine holding.replace index call calls ?_ ⟨?_, ?_⟩ ?_
  · intro other current _ otherFound taskId member row rowFound leased
    have missed : taskId ∉ taskIds := by
      intro taken
      exact unheld taskId taken current (List.mem_of_getElem? otherFound) member
    refine ⟨row, ?_, leased⟩
    rw [written, Database.markClaimed_task_of_not_mem _ _ _ _ missed]
    exact rowFound
  · rw [holds]
    exact claims.nodup
  · intro taskId member
    rw [holds] at member
    obtain ⟨row, inTable, same, _⟩ := claims.claimable taskId member
    refine ⟨row.claim call.workerId leaseUntil, ?_, ?_⟩
    · rw [written, revises.task_eq, ← same, tidy.tables.task_eq inTable]
      rw [← same] at member
      simp [Database.claimRow, member]
    · exact RequestTask.leasedBy_iff.mpr ⟨rfl, rfl⟩
  · intro taskId member other current _ otherFound
    rw [holds] at member
    exact unheld taskId member current (List.mem_of_getElem? otherFound)

/-- The recorded row was held by its writer only. -/
theorem recorded (holding : Holding state) (tidy : state.Tidy) {index : Nat}
    {call : Call} {taskId : String} {work : Work} {task : RequestTask}
    {request : PrivacyRequest} {now : Time}
    (found : state.calls[index]? = some call)
    (phase : call.phase = .worked taskId work)
    (held : call.session.task taskId = some task) :
    Holding { (state.put index
        (call.afterRecord deployment taskId work task request)) with
      database := recordOutcome deployment.runtime deployment.settings
        call.executor work task request now state.database } := by
  have member := List.mem_of_getElem? found
  have isTask := tidy.keyed call member taskId task held
  have before := holding.leases call member
  have shape := Call.held_of_worked phase
  have nodup := before.nodup
  rw [shape, List.nodup_cons] at nodup
  have fewer := call.held_afterRecord deployment taskId work task request
  have worker := call.afterRecord_workerId deployment taskId work task request
  -- Only the row of the recorded task changes.
  have kept : ∀ otherId row, otherId ≠ taskId →
      state.database.task otherId = some row →
      (recordOutcome deployment.runtime deployment.settings call.executor work
        task request now state.database).task otherId = some row := by
    intro otherId row different rowFound
    rw [Database.recordOutcome_task_of_ne _ _ _ _ _ _ _ (isTask ▸ different)]
    exact rowFound
  refine holding.replace index _ (fun other current => State.put_cases found)
    ?_ ⟨nodup.2.sublist fewer, ?_⟩ ?_
  · intro other current away otherFound otherId holds row rowFound leased
    refine ⟨row, kept otherId row ?_ rowFound, leased⟩
    rintro rfl
    apply away
    apply holding.exclusive other index current call otherId otherFound found
      holds
    rw [shape]
    exact List.mem_cons_self
  · intro otherId holds
    have inTodo := fewer.mem holds
    obtain ⟨row, rowFound, leased⟩ := before.rows otherId (by
      rw [shape]
      exact List.mem_cons_of_mem taskId inTodo)
    refine ⟨row, kept otherId row ?_ rowFound, worker ▸ leased⟩
    rintro rfl
    exact nodup.1 inTodo
  · intro otherId holds other current away otherFound alsoHolds
    apply away
    apply holding.exclusive other index current call otherId otherFound found
      alsoHolds
    rw [shape]
    exact List.mem_cons_of_mem taskId (fewer.mem holds)

/-- Held leases survive every step that lets none of them run out. -/
theorem effect {action : Action} (holding : Holding state)
    (tidy : state.Tidy) (live : LeasesLive state action)
    (effect : Effect deployment state action next) : Holding next := by
  have same : ∀ taskId row workerId, state.database.task taskId = some row →
      row.leasedBy workerId = true →
      ∃ after, state.database.task taskId = some after ∧
        after.leasedBy workerId = true :=
    fun _ row _ found leased => ⟨row, found, leased⟩
  cases effect with
  | created intake nodup fresh absent =>
      refine holding.still rfl ?_
      intro taskId row workerId found leased
      exact ⟨row, by rw [Database.insertRows_task, found]; rfl, leased⟩
  | relayed action relays extra outbox move => exact holding.still rfl same
  | opened workerId message executor bound =>
      exact holding.idle state.calls.length _
        (fun other current => State.append_cases) same rfl
  | moved action index call after artifacts found move =>
      exact holding.shrink found (fun other current => State.put_cases found)
        rfl move.workerId.1 move.held
  | messageClaimed index call taskId now found phase claims startable =>
      have unexpired : state.Unexpired now := by
        apply live now
        simp [State.claimClock, found, phase]
      exact holding.claimed tidy unexpired claims _ index _
        (fun other current => State.put_cases found) rfl rfl
  | batchClaimed arguments session taskIds selected claims copies requests
      members startable =>
      have unexpired : state.Unexpired arguments.now := live arguments.now rfl
      exact holding.claimed tidy unexpired claims _ state.calls.length _
        (fun other current => State.append_cases) rfl rfl
  | selected index call taskId todo row found phase rest member same leased =>
      refine holding.shrink found (fun other current => State.put_cases found)
        rfl rfl ?_
      rw [Call.held_of_ready phase, rest]
      exact List.Sublist.refl _
  | recorded index call taskId work task request now found phase held
      requestHeld free =>
      exact holding.recorded tidy found phase held
  | locked index call requestId own session found target free =>
      refine holding.shrink found (fun other current => State.put_cases found)
        rfl rfl ?_
      exact List.sublist_append_right _ _
  | refreshed index call requestId own reference request noticeId now found
      phase held uploaded fresh =>
      refine holding.shrink found (fun other current => State.put_cases found)
        (Database.commitRefresh_tasks ..) rfl ?_
      rw [Call.held_of_idle (call.current_resume _ _ _)]
      exact List.sublist_append_right _ _
  | acked index call slot message found subscribed delivered returned =>
      exact holding.idle index _ (fun other current => State.put_cases found)
        same rfl
  | extended workerId taskId now =>
      refine holding.still rfl ?_
      intro otherId row holder found leased
      refine ⟨Database.extendRow workerId taskId
        (now + deployment.settings.leaseSeconds) row, ?_, ?_⟩
      · rw [(Database.extendTaskLease_revises deployment.settings workerId
          taskId now state.database).task_eq, found]
        rfl
      · unfold Database.extendRow
        split
        next => exact leased
        next => exact leased

theorem step {action : Action} (holding : Holding state) (tidy : state.Tidy)
    (live : LeasesLive state action)
    (stepped : FleetPrivacy.step deployment state action = some next) :
    Holding next :=
  holding.effect tidy live (effect_of_step tidy.tables.taskIds stepped)

end Holding

theorem Holding.initial : Holding State.initial := by
  constructor
  · intro call member
    cases member
  · intro first second left right taskId found
    cases found

/-- An outcome is recorded by the holder of the lease. -/
theorem Holding.leasedBy_of_recording {state : State} (holding : Holding state)
    (tidy : state.Tidy) {index : Nat} {entry : Call × String × Work}
    (recording : state.recording index = some entry) {row : RequestTask}
    (member : row ∈ state.database.tasks) (same : row.id = entry.2.1) :
    row.leasedBy entry.1.workerId = true := by
  unfold State.recording at recording
  split at recording
  next call found =>
    split at recording
    next taskId work phase =>
      cases recording
      have busy : call.current = some taskId := by
        simp [Call.current, phase]
      obtain ⟨current, currentFound, leased⟩ :=
        (holding.leases call (List.mem_of_getElem? found)).rows taskId
          (Call.mem_held_of_current busy)
      have lookup := tidy.tables.task_eq member
      rw [same, currentFound] at lookup
      cases lookup
      exact leased
    next => cases recording
  next => cases recording

/-- While leases live, terminal task rows stay as they are. -/
theorem Holding.task_kept {deployment : Deployment} {state next : State}
    {action : Action} (holding : Holding state) (tidy : state.Tidy)
    (effect : Effect deployment state action next) {taskId : String}
    {row : RequestTask} (found : state.database.task taskId = some row)
    (terminal : row.status.Terminal) :
    next.database.task taskId = some row := by
  obtain ⟨member, isRow⟩ := Database.task_mem found
  cases effect with
  | created =>
      dsimp only
      rw [Database.insertRows_task, found]
      rfl
  | relayed | opened | moved | selected | locked | acked => exact found
  | messageClaimed index call claimedId now located phase claims =>
      dsimp only
      rw [(Database.markClaimed_revises ..).task_eq, found, Option.map_some,
        claims.claimRow_of_terminal tidy.tables member terminal]
  | batchClaimed arguments session taskIds selected claims =>
      dsimp only
      rw [(Database.markClaimed_revises ..).task_eq, found, Option.map_some,
        claims.claimRow_of_terminal tidy.tables member terminal]
  | recorded index call recordedId work task request now located phase held =>
      have isTask := tidy.keyed call (List.mem_of_getElem? located) recordedId
        task held
      dsimp only
      rw [(Database.recordOutcome_revises ..).task_eq, found, Option.map_some]
      congr 1
      unfold Database.recordRow
      rw [if_neg]
      intro hit
      have entry : state.recording index = some (call, recordedId, work) := by
        simp [State.recording, located, phase]
      have leased := holding.leasedBy_of_recording tidy entry member
        ((of_decide_eq_true hit).trans isTask)
      rw [(RequestTask.leasedBy_iff.mp leased).1] at terminal
      exact terminal
  | refreshed =>
      exact (Database.commitRefresh_task ..).trans found
  | extended =>
      dsimp only
      rw [(Database.extendTaskLease_revises ..).task_eq, found,
        Option.map_some, Database.extendRow_of_terminal terminal]

/-! ## Steady runs -/

/-- Both invariants of runs in which leases live. -/
structure Steady (state : State) : Prop where
  core : Core state
  holding : Holding state

theorem Steady.initial : Steady State.initial :=
  ⟨Core.initial, Holding.initial⟩

/-- While leases live, only the refreshes need a fence. -/
theorem Steady.fenced {state : State} {action : Action} (steady : Steady state)
    (refreshes : ∀ index, action = .refreshSelect index →
      Fenced state (.refreshSelect index)) : Fenced state action := by
  cases action with
  | recordTask index now =>
      intro entry recording row member same
      exact steady.holding.leasedBy_of_recording steady.core.tidy recording
        member same
  | refreshSelect index => exact refreshes index rfl
  | _ => trivial

theorem Steady.step {deployment : Deployment} {state next : State}
    {action : Action} (postgresql : deployment.dialect = .postgresql)
    (steady : Steady state) (live : LeasesLive state action)
    (refreshes : ∀ index, action = .refreshSelect index →
      Fenced state (.refreshSelect index))
    (stepped : FleetPrivacy.step deployment state action = some next) :
    Steady next ∧ state.database.Leads next.database := by
  obtain ⟨core, leads⟩ :=
    steady.core.step postgresql (steady.fenced refreshes) stepped
  exact ⟨⟨core, steady.holding.step steady.core.tidy live stepped⟩, leads⟩

/-- A refresh that finds all tasks of its request terminal works without open
copies of them. -/
def ViewsCurrent (state : State) : Action → Prop
  | .refreshSelect index =>
      ∀ target ∈ state.refreshTarget index,
        (∀ task ∈ state.database.tasksOf target.1, task.status.Terminal) →
          target.2.NoneOpen state.database target.1
  | _ => True

instance (state : State) (action : Action) :
    Decidable (ViewsCurrent state action) :=
  match action with
  | .refreshSelect index =>
      inferInstanceAs (Decidable (∀ target ∈ state.refreshTarget index,
        (∀ task ∈ state.database.tasksOf target.1, task.status.Terminal) →
          target.2.NoneOpen state.database target.1))
  | .create _ | .relaySelect _ | .relayPublish _ _ _ _ | .relayCommit _
  | .relayCrash _ | .deliver _ _ _ | .messageGet _ _ | .messageClaim _
  | .processOnce _ | .selectTask _ | .work _ _ | .recordTask _ _
  | .upload _ _ _ | .refreshCommit _ _ _ | .ack _ | .crash _
  | .extendLease _ _ _ => .isTrue trivial

theorem Core.fenced_of_viewsCurrent {state : State} (core : Core state)
    {index : Nat} (current : ViewsCurrent state (.refreshSelect index)) :
    Fenced state (.refreshSelect index) := by
  intro target located request member same terminal
  apply current target located
  have found := core.tidy.tables.request_eq member
  rw [same] at found
  exact core.tasks_terminal found terminal

end FleetPrivacy
