import FleetPrivacy.Tables

/-!
# Work under one's own claim

An observer records every successful claim and every start of source work, each
with the call that made it.  `execute_task` recognises its claim by the worker's
name in the row, so a start is known to be its own only while no other call of
the same name takes a task that still waits in a batch.
-/

namespace FleetPrivacy

open Transition

inductive OwnershipEvent where
  | claimed (taskId : String) (call : Nat)
  /-- `execute_task` passed its first select. -/
  | started (taskId : String) (call : Nat)
  deriving DecidableEq

def OwnershipEvent.taskId : OwnershipEvent → String
  | .claimed taskId _ | .started taskId _ => taskId

/-- The last thing that was recorded about a task. -/
def latestOn (taskId : String) (events : List OwnershipEvent) :
    Option OwnershipEvent :=
  (events.filter fun event => decide (event.taskId = taskId)).getLast?

/-- The call that makes a claim, the name it claims under and what it gets. -/
structure Taking where
  call : Nat
  workerId : String
  taskIds : List String

def Taking.events (taking : Taking) : List OwnershipEvent :=
  taking.taskIds.map fun taskId => .claimed taskId taking.call

def State.taking (deployment : Deployment) (state : State) :
    Action → Option Taking
  | .messageClaim index =>
      match state.calls[index]? with
      | some call =>
          match call.phase with
          | .claiming taskId now =>
              if state.database.tasks.any fun task =>
                  decide (task.id = taskId) && task.claimable now then
                some ⟨index, call.workerId, [taskId]⟩
              else none
          | _ => none
      | none => none
  | .processOnce arguments =>
      some ⟨state.calls.length, arguments.workerId,
        (claimTasks deployment.settings deployment.dialect arguments
          state.database).2.2⟩
  | _ => none

/-- The task whose source work a `selectTask` starts. -/
def State.starting (state : State) (index : Nat) : Option String :=
  match state.calls[index]? with
  | some call =>
      match call.phase, call.todo with
      | .ready, taskId :: _ =>
          if state.database.tasks.any fun task =>
              decide (task.id = taskId) && task.leasedBy call.workerId then
            some taskId
          else none
      | _, _ => none
  | none => none

def observeOwnership (deployment : Deployment) (state : State) :
    Action → List OwnershipEvent
  | .selectTask index =>
      match state.starting index with
      | some taskId => [.started taskId index]
      | none => []
  | action =>
      match state.taking deployment action with
      | some taking => taking.events
      | none => []

/-- A claim takes no task that still waits in the batch of a call with the same
worker name. -/
def ClaimsApart (deployment : Deployment) (state : State) (action : Action) :
    Prop :=
  ∀ taking ∈ state.taking deployment action, ∀ taskId ∈ taking.taskIds,
    ∀ call ∈ state.calls, call.workerId = taking.workerId → taskId ∉ call.todo

instance (deployment : Deployment) (state : State) (action : Action) :
    Decidable (ClaimsApart deployment state action) :=
  inferInstanceAs (Decidable (∀ taking ∈ state.taking deployment action,
    ∀ taskId ∈ taking.taskIds, ∀ call ∈ state.calls,
      call.workerId = taking.workerId → taskId ∉ call.todo))

theorem State.starting_eq {state : State} {index : Nat} {call : Call}
    {taskId : String} {todo : List String} {row : RequestTask}
    (found : state.calls[index]? = some call) (phase : call.phase = .ready)
    (rest : call.todo = taskId :: todo) (member : row ∈ state.database.tasks)
    (same : row.id = taskId) (leased : row.leasedBy call.workerId = true) :
    state.starting index = some taskId := by
  have matched := Database.matches_iff.mpr ⟨row, member, same, leased⟩
  simp [State.starting, found, phase, rest, matched]

/-- A claim that finds no row and a start that finds no lease are silent. -/
theorem observeOwnership_moved (deployment : Deployment) {state : State}
    {index : Nat} {call after : Call} {action : Action}
    (found : state.calls[index]? = some call)
    (move : CallMove deployment state index call action after) :
    observeOwnership deployment state action = [] := by
  cases move with
  | busy taskId now phase unclaimable =>
      have unmatched := Database.matches_eq_false unclaimable
      simp [observeOwnership, State.taking, found, phase, unmatched]
  | skipped taskId todo phase rest unleased =>
      have unmatched := Database.matches_eq_false unleased
      simp [observeOwnership, State.starting, found, phase, rest, unmatched]
  | _ => rfl

/-! ## The latest event of a task -/

theorem latestOn_append (taskId : String) (past events : List OwnershipEvent) :
    latestOn taskId (past ++ events) =
      (latestOn taskId events).or (latestOn taskId past) := by
  unfold latestOn
  rw [List.filter_append, List.getLast?_append]

theorem latestOn_mem {taskId : String} {events : List OwnershipEvent}
    {event : OwnershipEvent} (latest : latestOn taskId events = some event) :
    event ∈ events :=
  (List.mem_filter.mp (List.mem_of_getLast? latest)).1

theorem latestOn_eq_none {taskId : String} {events : List OwnershipEvent}
    (foreign : ∀ event ∈ events, event.taskId ≠ taskId) :
    latestOn taskId events = none := by
  unfold latestOn
  rw [List.getLast?_eq_none_iff, List.filter_eq_nil_iff]
  intro event member
  simp [foreign event member]

/-- A list that mentions the task decides what is latest. -/
theorem latestOn_append_cons {taskId : String}
    {past later : List OwnershipEvent} {first event : OwnershipEvent}
    (own : first.taskId = taskId)
    (latest : latestOn taskId (past ++ first :: later) = some event) :
    event ∈ first :: later := by
  rw [latestOn_append] at latest
  rcases Option.or_eq_some_iff.mp latest with inside | ⟨absent, _⟩
  · exact latestOn_mem inside
  · unfold latestOn at absent
    rw [List.getLast?_eq_none_iff, List.filter_eq_nil_iff] at absent
    exact absurd (decide_eq_true own) (absent first List.mem_cons_self)

theorem Taking.latestOn_events {taking : Taking} {taskId : String}
    (member : taskId ∈ taking.taskIds) :
    latestOn taskId taking.events = some (.claimed taskId taking.call) := by
  cases latest : latestOn taskId taking.events with
  | some event =>
      have own := List.mem_of_getLast? latest
      obtain ⟨inside, same⟩ := List.mem_filter.mp own
      obtain ⟨other, _, rfl⟩ := List.mem_map.mp inside
      have isTask : other = taskId := of_decide_eq_true same
      rw [isTask]
  | none =>
      unfold latestOn at latest
      rw [List.getLast?_eq_none_iff, List.filter_eq_nil_iff] at latest
      have claimed : OwnershipEvent.claimed taskId taking.call ∈
          taking.events := List.mem_map_of_mem member
      exact absurd (decide_eq_true rfl) (latest _ claimed)

theorem Taking.foreign_events {taking : Taking} {taskId : String}
    (absent : taskId ∉ taking.taskIds) :
    ∀ event ∈ taking.events, event.taskId ≠ taskId := by
  intro event member same
  obtain ⟨other, inside, rfl⟩ := List.mem_map.mp member
  exact absent (same ▸ inside)

/-! ## The invariant -/

/-- The call has not reached its claim. -/
def Phase.beforeClaim : Phase → Bool
  | .received | .claiming _ _ => true
  | _ => false

/-- Every start in the record was preceded by the claim of the same call, with
nothing about the task in between. -/
def StartsCurrent (events : List OwnershipEvent) : Prop :=
  ∀ before taskId call after,
    events = before ++ .started taskId call :: after →
    latestOn taskId before = some (.claimed taskId call)

structure Owning (past : List OwnershipEvent) (state : State) : Prop where
  tidy : state.Tidy
  /-- A waiting task has just been claimed by its call, or its row names
  another worker. -/
  waiting : ∀ (index : Nat) (call : Call), state.calls[index]? = some call →
    call.todo.Nodup ∧ ∀ taskId ∈ call.todo,
      latestOn taskId past = some (.claimed taskId index) ∨
        ∀ row ∈ state.database.tasks, row.id = taskId →
          row.leaseOwner ≠ some call.workerId
  claimants : ∀ taskId index, OwnershipEvent.claimed taskId index ∈ past →
    ∃ call : Call, state.calls[index]? = some call ∧ call.phase.beforeClaim = false
  once : ∀ taskId index, past.count (.claimed taskId index) ≤ 1
  current : StartsCurrent past

/-- Lease owners are removed from rows, never written. -/
def Database.OwnersFrom (before after : Database) : Prop :=
  ∀ row ∈ after.tasks, ∀ owner, row.leaseOwner = some owner →
    ∃ old ∈ before.tasks, old.id = row.id ∧ old.leaseOwner = some owner

theorem Database.ownersFrom_of_tasks {before after : Database}
    (same : after.tasks = before.tasks) : before.OwnersFrom after := by
  intro row member owner owned
  rw [same] at member
  exact ⟨row, member, rfl, owned⟩

theorem Database.Revises.ownersFrom {before after : Database}
    {task : RequestTask → RequestTask}
    {request : PrivacyRequest → PrivacyRequest}
    (revises : Revises before after task request)
    (owners : ∀ row, (task row).leaseOwner = row.leaseOwner ∨
      (task row).leaseOwner = none) : before.OwnersFrom after := by
  intro row member owner owned
  rw [revises.tasks] at member
  obtain ⟨old, oldMember, rfl⟩ := List.mem_map.mp member
  refine ⟨old, oldMember, (revises.taskKey old).1.symm, ?_⟩
  rcases owners old with kept | removed
  · exact kept ▸ owned
  · rw [removed] at owned
    cases owned

theorem Database.ownersFrom_recordOutcome (runtime : Runtime)
    (settings : Settings) (executor : Bool) (work : Work) (task : RequestTask)
    (request : PrivacyRequest) (now : Time) (database : Database) :
    database.OwnersFrom (recordOutcome runtime settings executor work task
      request now database) := by
  apply (recordOutcome_revises ..).ownersFrom
  intro row
  unfold recordRow
  split
  next =>
    simp only [RequestTask.flush, RequestTask.settle_leaseOwner, flushColumn]
    split
    next => exact .inl rfl
    next => exact .inr rfl
  next => exact .inl rfl

theorem CallMove.beforeClaim {deployment : Deployment} {state : State}
    {index : Nat} {call next : Call} {action : Action}
    (move : CallMove deployment state index call action next)
    (claimed : call.phase.beforeClaim = false) :
    next.phase.beforeClaim = false := by
  cases move with
  | unfinished slot message now taskId received =>
      rw [received] at claimed
      cases claimed
  | skipped =>
      unfold Call.resume
      cases call.message with
      | none => rfl
      | some slot => rfl
  | _ => rfl

theorem Call.beforeClaim_resume (call : Call) (result : Bool) :
    (call.resume result).beforeClaim = false := by
  unfold Call.resume
  cases call.message with
  | none => rfl
  | some slot => rfl

/-- What a slot still lists was listed before, under the same name. -/
def Call.Continues (before after : Call) : Prop :=
  after.todo <:+ before.todo ∧ after.workerId = before.workerId ∧
    (before.phase.beforeClaim = false → after.phase.beforeClaim = false)

namespace Owning

variable {deployment : Deployment} {past : List OwnershipEvent}
  {state next : State}

/-- A step that records nothing: slots continue or start empty. -/
theorem carry (owning : Owning past state) (tidy : next.Tidy)
    (owners : state.database.OwnersFrom next.database)
    (calls : ∀ (index : Nat) (current : Call),
      next.calls[index]? = some current → current.todo = [] ∨
        ∃ old : Call, state.calls[index]? = some old ∧ old.Continues current)
    (claimants : ∀ (index : Nat) (old : Call),
      state.calls[index]? = some old → old.phase.beforeClaim = false →
      ∃ current : Call, next.calls[index]? = some current ∧
        current.phase.beforeClaim = false) : Owning past next := by
  refine ⟨tidy, ?_, ?_, owning.once, owning.current⟩
  · intro index current found
    rcases calls index current found with
      empty | ⟨old, oldFound, rest, worker, _⟩
    · rw [empty]
      refine ⟨List.nodup_nil, ?_⟩
      intro taskId member
      cases member
    · obtain ⟨nodup, waiting⟩ := owning.waiting index old oldFound
      refine ⟨nodup.sublist rest.sublist, ?_⟩
      intro taskId member
      apply (waiting taskId (rest.mem member)).imp_right
      intro foreign row inNext same owned
      obtain ⟨before, inState, sameId, ownedBefore⟩ :=
        owners row inNext current.workerId owned
      apply foreign before inState (sameId.trans same)
      rw [ownedBefore, worker]
  · intro taskId index member
    obtain ⟨old, found, claimed⟩ := owning.claimants taskId index member
    exact claimants index old found claimed

theorem carry_put (owning : Owning past state) (tidy : next.Tidy)
    (owners : state.database.OwnersFrom next.database) {index : Nat}
    {call after : Call} (found : state.calls[index]? = some call)
    (written : next.calls = state.calls.set index after)
    (continues : call.Continues after) : Owning past next := by
  refine owning.carry tidy owners ?_ ?_
  · intro other current located
    rw [written, getElem?_set_slot found] at located
    split at located
    next same =>
      cases located
      exact .inr ⟨call, same ▸ found, continues⟩
    next =>
      exact .inr ⟨current, located, List.suffix_rfl, rfl, id⟩
  · intro other old oldFound claimed
    rw [written, getElem?_set_slot found]
    split
    next same =>
      rw [same, found] at oldFound
      cases oldFound
      exact ⟨after, rfl, continues.2.2 claimed⟩
    next => exact ⟨old, oldFound, claimed⟩

theorem carry_still (owning : Owning past state) (tidy : next.Tidy)
    (owners : state.database.OwnersFrom next.database)
    (same : next.calls = state.calls) : Owning past next := by
  refine owning.carry tidy owners ?_ ?_
  · intro index current found
    rw [same] at found
    exact .inr ⟨current, found, List.suffix_rfl, rfl, id⟩
  · intro index old found claimed
    rw [same]
    exact ⟨old, found, claimed⟩

/-- New events, each start among them with its own claim right before it. -/
theorem startsCurrent_append (current : StartsCurrent past)
    {events : List OwnershipEvent}
    (later : ∀ before taskId call after,
      events = before ++ .started taskId call :: after →
      latestOn taskId (past ++ before) = some (.claimed taskId call)) :
    StartsCurrent (past ++ events) := by
  intro before taskId call after split
  rcases List.append_eq_append_iff.mp split with
    ⟨middle, shape, rest⟩ | ⟨middle, shape, rest⟩
  · rw [shape]
    exact later middle taskId call after rest
  · cases middle with
    | nil =>
        have latest := later [] taskId call after rest.symm
        rw [List.append_nil] at shape latest
        rw [← shape]
        exact latest
    | cons event middle =>
        rw [List.cons_append] at rest
        obtain ⟨isEvent, _⟩ := List.cons.inj rest
        apply current before taskId call middle
        rw [shape, isEvent]

/-- A claim under a name that no waiting task of another call relies on. -/
theorem claimed (owning : Owning past state) (tidy : next.Tidy)
    {taking : Taking} {now leaseUntil : Time}
    (apart : ∀ taskId ∈ taking.taskIds, ∀ call ∈ state.calls,
      call.workerId = taking.workerId → taskId ∉ call.todo)
    (claims : state.database.Claims now taking.taskIds)
    (written : next.database = state.database.markClaimed taking.taskIds
      taking.workerId leaseUntil now) {claimant : Call}
    (calls : ∀ (index : Nat), next.calls[index]? =
      if index = taking.call then some claimant else state.calls[index]?)
    (takes : claimant.todo = taking.taskIds)
    (done : claimant.phase.beforeClaim = false)
    (unclaimed : ∀ taskId, OwnershipEvent.claimed taskId taking.call ∉ past) :
    Owning (past ++ taking.events) next := by
  refine ⟨tidy, ?_, ?_, ?_, startsCurrent_append owning.current ?_⟩
  · intro index call found
    rw [calls] at found
    split at found
    next same =>
      cases found
      rw [takes]
      refine ⟨claims.nodup, ?_⟩
      intro taskId member
      left
      rw [latestOn_append, Taking.latestOn_events member, same]
      rfl
    next =>
      obtain ⟨nodup, waiting⟩ := owning.waiting index call found
      refine ⟨nodup, ?_⟩
      intro taskId member
      by_cases taken : taskId ∈ taking.taskIds
      · -- The row now names the claimant, which has another name.
        right
        intro row inNext same owned
        rw [written] at inNext
        obtain ⟨old, _, rfl⟩ := Table.mem_updateWhere.mp inNext
        have hit : old.id ∈ taking.taskIds := by
          split at same
          next inside => exact of_decide_eq_true inside
          next => exact same ▸ taken
        rw [if_pos (decide_eq_true hit)] at owned
        have sameName : taking.workerId = call.workerId :=
          Option.some.inj owned
        exact apart taskId taken call (List.mem_of_getElem? found)
          sameName.symm member
      · rcases waiting taskId member with latest | foreign
        · left
          rw [latestOn_append, latestOn_eq_none
            (Taking.foreign_events taken), latest]
          rfl
        · right
          intro row inNext same owned
          rw [written] at inNext
          obtain ⟨old, inState, rfl⟩ := Table.mem_updateWhere.mp inNext
          have miss : ¬ old.id ∈ taking.taskIds := by
            intro inside
            apply taken
            rw [if_pos (decide_eq_true inside)] at same
            exact same ▸ inside
          rw [if_neg (by simpa using miss)] at same owned
          exact foreign old inState same owned
  · intro taskId index member
    rw [calls]
    split
    next => exact ⟨claimant, rfl, done⟩
    next different =>
      rcases List.mem_append.mp member with old | new
      · exact owning.claimants taskId index old
      · obtain ⟨other, _, same⟩ := List.mem_map.mp new
        cases same
        exact absurd rfl different
  · intro taskId index
    rw [List.count_append]
    by_cases own : index = taking.call
    · rw [own, List.count_eq_zero.mpr (unclaimed taskId), Nat.zero_add]
      have injective : Function.Injective fun taskId =>
          OwnershipEvent.claimed taskId taking.call := by
        intro first second same
        cases same
        rfl
      exact (List.nodup_iff_count_le_one.mp
        (claims.nodup.map injective)) _
    · have absent : OwnershipEvent.claimed taskId index ∉ taking.events := by
        intro member
        obtain ⟨other, _, same⟩ := List.mem_map.mp member
        cases same
        exact own rfl
      rw [List.count_eq_zero.mpr absent]
      exact owning.once taskId index
  · intro before taskId call after split
    have inside : OwnershipEvent.started taskId call ∈ taking.events := by
      rw [split]
      simp
    obtain ⟨other, _, same⟩ := List.mem_map.mp inside
    cases same

/-- Work starts on the row of the call's own claim. -/
theorem started (owning : Owning past state) (tidy : next.Tidy) {index : Nat}
    {call after : Call} {taskId : String} {todo : List String}
    {row : RequestTask} (found : state.calls[index]? = some call)
    (rest : call.todo = taskId :: todo)
    (member : row ∈ state.database.tasks) (same : row.id = taskId)
    (leased : row.leasedBy call.workerId = true)
    (tasks : next.database = state.database)
    (written : next.calls = state.calls.set index after)
    (shape : after.todo = todo) (worker : after.workerId = call.workerId)
    (claimed : after.phase.beforeClaim = false) :
    Owning (past ++ [.started taskId index]) next := by
  obtain ⟨nodup, waiting⟩ := owning.waiting index call found
  rw [rest, List.nodup_cons] at nodup
  have owned := (RequestTask.leasedBy_iff.mp leased).2
  have latest : latestOn taskId past = some (.claimed taskId index) := by
    rcases waiting taskId (rest ▸ List.mem_cons_self) with own | foreign
    · exact own
    · exact absurd owned (foreign row member same)
  have slots : ∀ other : Nat, next.calls[other]? =
      if other = index then some after else state.calls[other]? := by
    intro other
    rw [written, getElem?_set_slot found]
  have elsewhere : ∀ otherId, otherId ≠ taskId →
      latestOn otherId (past ++ [.started taskId index]) =
        latestOn otherId past := by
    intro otherId different
    rw [latestOn_append, latestOn_eq_none]
    · rfl
    · intro event only
      rw [List.mem_singleton.mp only]
      exact different.symm
  refine ⟨tidy, ?_, ?_, ?_, ?_⟩
  · intro other current located
    rw [slots] at located
    split at located
    next isIndex =>
      cases located
      rw [shape]
      refine ⟨nodup.2, ?_⟩
      intro otherId inTodo
      have different : otherId ≠ taskId := by
        intro isTask
        exact nodup.1 (isTask ▸ inTodo)
      rw [elsewhere otherId different, isIndex, tasks, worker]
      exact waiting otherId (rest ▸ List.mem_cons_of_mem taskId inTodo)
    next isOther =>
      obtain ⟨otherNodup, otherWaiting⟩ := owning.waiting other current located
      refine ⟨otherNodup, ?_⟩
      intro otherId inTodo
      rw [tasks]
      by_cases isTask : otherId = taskId
      · -- Only one call made the latest claim of the started task.
        right
        rcases otherWaiting otherId inTodo with own | foreign
        · rw [isTask, latest] at own
          cases own
          exact absurd rfl isOther
        · exact foreign
      · rw [elsewhere otherId isTask]
        exact otherWaiting otherId inTodo
  · intro otherId other inPast
    rw [slots]
    split
    next => exact ⟨after, rfl, claimed⟩
    next =>
      rcases List.mem_append.mp inPast with old | new
      · exact owning.claimants otherId other old
      · cases List.mem_singleton.mp new
  · intro otherId other
    rw [List.count_append, List.count_singleton]
    simpa using owning.once otherId other
  · apply startsCurrent_append owning.current
    intro before otherId other later split
    cases before with
    | nil =>
        obtain ⟨isStart, _⟩ := List.cons.inj split
        cases isStart
        rw [List.append_nil]
        exact latest
    | cons event before => simp at split

/-- A slot that is about to claim has not claimed. -/
theorem unclaimed_of_slot (owning : Owning past state) {index : Nat}
    (early : ∀ call : Call, state.calls[index]? = some call →
      call.phase.beforeClaim = true) (taskId : String) :
    OwnershipEvent.claimed taskId index ∉ past := by
  intro member
  obtain ⟨call, found, claimed⟩ := owning.claimants taskId index member
  rw [early call found] at claimed
  cases claimed

theorem step {action : Action} (owning : Owning past state)
    (apart : ClaimsApart deployment state action)
    (stepped : FleetPrivacy.step deployment state action = some next) :
    Owning (past ++ observeOwnership deployment state action) next := by
  have tidy := owning.tidy.step stepped
  have same : state.database.OwnersFrom state.database :=
    Database.ownersFrom_of_tasks rfl
  have quiet : ∀ {events : List OwnershipEvent}, events = [] →
      Owning past next → Owning (past ++ events) next := by
    rintro events rfl kept
    rw [List.append_nil]
    exact kept
  cases effect_of_step owning.tidy.tables.taskIds stepped with
  | created intake nodup fresh absent =>
      apply quiet rfl
      refine owning.carry_still tidy ?_ rfl
      intro row member owner owned
      rcases List.mem_append.mp member with old | new
      · exact ⟨row, old, rfl, owned⟩
      · obtain ⟨source, _, isTask⟩ := List.mem_map.mp new
        rw [← isTask] at owned
        cases owned
  | relayed action relays extra outbox move =>
      have silent : observeOwnership deployment state action = [] := by
        cases move <;> rfl
      exact quiet silent (owning.carry_still tidy same rfl)
  | opened workerId message executor bound =>
      apply quiet rfl
      refine owning.carry tidy same ?_ ?_
      · intro index current found
        rcases State.append_cases found with ⟨_, new⟩ | ⟨_, old⟩
        · rw [new]
          exact .inl rfl
        · exact .inr ⟨current, old, List.suffix_rfl, rfl, id⟩
      · intro index old found claimed
        refine ⟨old, ?_, claimed⟩
        rw [List.getElem?_append_left]
        · exact found
        · exact (List.getElem?_eq_some_iff.mp found).1
  | moved action index call after artifacts found move =>
      exact quiet (observeOwnership_moved deployment found move)
        (owning.carry_put tidy same found rfl
          ⟨move.todo, move.workerId.1, move.beforeClaim⟩)
  | messageClaimed index call taskId now found phase claims startable =>
      obtain ⟨row, inTable, isTask, claimable⟩ :=
        claims.claimable taskId (List.mem_singleton_self taskId)
      have matched :=
        Database.matches_iff.mpr ⟨row, inTable, isTask, claimable⟩
      have takes : state.taking deployment (.messageClaim index) =
          some ⟨index, call.workerId, [taskId]⟩ := by
        simp [State.taking, found, phase, matched]
      simp only [observeOwnership, takes]
      refine owning.claimed tidy (apart _ takes) claims rfl
        (fun other => getElem?_set_slot found _ other) rfl rfl ?_
      apply owning.unclaimed_of_slot
      intro current located
      rw [found] at located
      cases located
      rw [phase]
      rfl
  | batchClaimed arguments session taskIds selected claims copies requests
      members startable =>
      have takes : state.taking deployment (.processOnce arguments) =
          some ⟨state.calls.length, arguments.workerId, taskIds⟩ := by
        simp [State.taking, selected]
      simp only [observeOwnership, takes]
      refine owning.claimed tidy (apart _ takes) claims rfl
        (fun other => getElem?_append_slot state.calls _ other) rfl rfl ?_
      apply owning.unclaimed_of_slot
      intro current located
      simp at located
  | selected index call taskId todo row found phase rest member isTask leased =>
      have starts := State.starting_eq found phase rest member isTask leased
      simp only [observeOwnership, starts]
      exact owning.started tidy found rest member isTask leased rfl rfl rfl
        rfl rfl
  | recorded index call taskId work task request now found phase held
      requestHeld free =>
      apply quiet rfl
      refine owning.carry_put tidy ?_ found rfl ?_
      · apply Database.ownersFrom_recordOutcome
      · refine ⟨Call.todo_afterRecord .., Call.afterRecord_workerId .., ?_⟩
        intro _
        rcases call.afterRecord_phase deployment taskId work task request with
          closed | recorded
        · rw [closed]
          rfl
        · rw [recorded]
          rfl
  | locked index call requestId own session found target free =>
      exact quiet rfl (owning.carry_put tidy same found rfl
        ⟨List.suffix_rfl, rfl, fun _ => rfl⟩)
  | refreshed index call requestId own reference request noticeId now found
      phase held uploaded fresh =>
      exact quiet rfl (owning.carry_put tidy
        (Database.ownersFrom_of_tasks (Database.commitRefresh_tasks ..)) found
        rfl ⟨List.suffix_rfl, rfl, fun _ => call.beforeClaim_resume _⟩)
  | acked index call slot message found subscribed delivered returned =>
      exact quiet rfl (owning.carry_put tidy same found rfl
        ⟨List.nil_suffix, rfl, fun _ => rfl⟩)
  | extended workerId taskId now =>
      apply quiet rfl
      refine owning.carry_still tidy ?_ rfl
      apply (Database.extendTaskLease_revises deployment.settings workerId
        taskId now state.database).ownersFrom
      intro row
      unfold Database.extendRow
      split
      next => exact .inl rfl
      next => exact .inl rfl

theorem initial : Owning [] State.initial := by
  refine ⟨State.tidy_initial, ?_, ?_, ?_, ?_⟩
  · intro index call found
    cases found
  · intro taskId index member
    cases member
  · intro taskId index
    exact Nat.zero_le _
  · intro before taskId call after split
    simp at split

end Owning

/-- What a record must show when source work only ever starts under the
caller's own current claim. -/
structure OwnClaims (events : List OwnershipEvent) : Prop where
  /-- The latest event of the task is the claim through which the starting call
  got it. -/
  current : StartsCurrent events
  /-- A call claims a task at most once. -/
  once : ∀ taskId call, events.count (.claimed taskId call) ≤ 1
  /-- Between two starts of a task there is a claim of it. -/
  separated : ∀ before taskId first middle second after,
    events = before ++ .started taskId first ::
      (middle ++ .started taskId second :: after) →
    OwnershipEvent.claimed taskId second ∈ middle
  /-- A superseded claim is never executed. -/
  superseded : ∀ before taskId first middle second after,
    events = before ++ .claimed taskId first ::
      (middle ++ .claimed taskId second :: after) →
    OwnershipEvent.started taskId first ∉ after

theorem Owning.ownClaims {past : List OwnershipEvent} {state : State}
    (owning : Owning past state) : OwnClaims past := by
  refine ⟨owning.current, owning.once, ?_, ?_⟩
  · intro before taskId first middle second after split
    have latest := owning.current (before ++ .started taskId first :: middle)
      taskId second after (by simpa using split)
    have inside := latestOn_append_cons (by rfl) latest
    rcases List.mem_cons.mp inside with isStart | later
    · cases isStart
    · exact later
  · intro before taskId first middle second after split executed
    obtain ⟨between, rest, shape⟩ := List.append_of_mem executed
    have latest := owning.current
      ((before ++ .claimed taskId first :: middle) ++
        .claimed taskId second :: between) taskId first rest (by
          rw [split, shape]
          simp)
    have again : OwnershipEvent.claimed taskId first ∈
        .claimed taskId second :: between :=
      latestOn_append_cons (by rfl) latest
    -- The claim stands in the record twice.
    have counted := owning.once taskId first
    have positive := List.count_pos_iff.mpr again
    rw [split, shape] at counted
    simp only [List.count_append, List.count_cons, beq_self_eq_true,
      if_true] at counted positive
    omega

/-- In every run whose claims stay apart, source work starts only under the
caller's own current claim. -/
theorem work_starts_under_own_claim (deployment : Deployment)
    {actions : List Action} {state : State}
    (execution : Runs (step deployment) (ClaimsApart deployment)
      State.initial actions state) :
    OwnClaims (history (step deployment) (observeOwnership deployment)
      State.initial actions) := by
  have preserved : ∀ {past : List OwnershipEvent} {before : State}
      {action : Action} {after : State}, Owning past before →
      ClaimsApart deployment before action →
      step deployment before action = some after →
      Owning (past ++ observeOwnership deployment before action) after :=
    fun owning apart stepped => owning.step apart stepped
  have reached := execution.invariant_with_history preserved Owning.initial
  exact reached.ownClaims

/-! Two workers with different names: the second one takes over the batch, and
the first one skips what it lost. -/

private def demoPair : Intake :=
  demoIntake 'a' .access ["jobs", "profile"] demoSources_nodup
    demoSources_allowed

/-- The first call executes the first task of its batch of two; meanwhile the
leases run out and another call claims. -/
private def slowBatch (first second : String) : List Action :=
  [.create demoPair, .processOnce (demoClaim first 0), .selectTask 0,
    .work 0 demoSuccess, .processOnce (demoClaim second 1000),
    .recordTask 0 1001, .refreshSelect 0, .refreshCommit 0 "n" 1002,
    .selectTask 0]

theorem renamed_worker_skips_lost_task :
    ∃ state, Runs (step demoDeployment) (ClaimsApart demoDeployment)
        State.initial (slowBatch "w1" "w2") state ∧
      history (step demoDeployment) (observeOwnership demoDeployment)
          State.initial (slowBatch "w1" "w2") =
        [.claimed "aa" 0, .claimed "aaa" 0, .started "aa" 0,
          .claimed "aa" 1, .claimed "aaa" 1] ∧
      OwnClaims (history (step demoDeployment)
        (observeOwnership demoDeployment) State.initial
        (slowBatch "w1" "w2")) := by
  have evaluated : (run (step demoDeployment) (ClaimsApart demoDeployment)
      State.initial (slowBatch "w1" "w2")).isSome = true := by
    decide +kernel
  obtain ⟨state, result⟩ := Option.isSome_iff_exists.mp evaluated
  have execution := runs_of_run result
  exact ⟨state, execution, by decide +kernel,
    work_starts_under_own_claim demoDeployment execution⟩

/-! Both calls use the default name. -/

theorem namesake_executes_foreign_claim :
    ∃ state, Runs (step demoDeployment) Always State.initial
        (slowBatch "t:api-worker" "t:api-worker") state ∧
      ¬ OwnClaims (history (step demoDeployment)
        (observeOwnership demoDeployment) State.initial
        (slowBatch "t:api-worker" "t:api-worker")) := by
  have evaluated : (run (step demoDeployment) Always State.initial
      (slowBatch "t:api-worker" "t:api-worker")).isSome = true := by
    decide +kernel
  obtain ⟨state, result⟩ := Option.isSome_iff_exists.mp evaluated
  refine ⟨state, runs_of_run result, ?_⟩
  have recorded : history (step demoDeployment)
      (observeOwnership demoDeployment) State.initial
      (slowBatch "t:api-worker" "t:api-worker") =
      [.claimed "aa" 0, .claimed "aaa" 0, .started "aa" 0,
        .claimed "aa" 1, .claimed "aaa" 1, .started "aaa" 0] := by
    decide +kernel
  rw [recorded]
  intro owned
  have latest := owned.current [.claimed "aa" 0, .claimed "aaa" 0,
    .started "aa" 0, .claimed "aa" 1, .claimed "aaa" 1] "aaa" 0 [] rfl
  cases latest

end FleetPrivacy
