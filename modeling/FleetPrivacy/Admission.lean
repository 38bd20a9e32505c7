import FleetPrivacy.RedisKeys
import FleetPrivacy.Requests
import FleetPrivacy.SourceConnectors

/-!
# Admission to the regional sources

Executions of `RegionalSourceExecutor.execute` by any number of workers over
one Redis.  A slot is a member of a sorted set, named by the task and not by
the execution, and lapses on a timer.  The executions in flight stay within the
window as long as no admission meets an execution that shares its name or has
outlived its slot.
-/

namespace FleetPrivacy

open Transition

/-- The parts of the executor that admission reads. -/
structure RegionalSourceExecutor where
  shared : RedisAimdState
  admissionTimeoutSeconds : Rat

/-- A slot: when it was given, and when it lapses. -/
structure Slot where
  admittedAt : Int
  leaseEnds : Int
  deriving DecidableEq

inductive SlotPhase where
  | waiting
  /-- Between admission and release. -/
  | inFlight (slot : Slot)
  | ended
  deriving DecidableEq

structure Execution where
  operation : SourceOperation
  phase : SlotPhase
  deriving DecidableEq

def Execution.slot? (execution : Execution) : Option Slot :=
  match execution.phase with
  | .inFlight slot => some slot
  | _ => none

structure AdmissionState where
  redis : Redis
  clock : Int
  executions : List Execution

def AdmissionState.initial : AdmissionState :=
  { redis := .empty, clock := 0, executions := [] }

inductive AdmissionAction where
  | start (operation : SourceOperation)
  /-- One round of the admission loop. -/
  | acquire (execution : Nat) (defaultLimit : Int)
  /-- `publish_decision`. -/
  | adjust (execution : Nat) (arguments : AimdArguments)
  | release (execution : Nat)
  /-- The execution gives up, or its worker exits. -/
  | lose (execution : Nat)
  | elapse (millis : Nat)

section Step

variable (executor : RegionalSourceExecutor)

def RegionalSourceExecutor.slotKey (operation : SourceOperation) : String :=
  executor.shared.inflightKey operation.tenantId operation.source

def RegionalSourceExecutor.leaseSeconds : Rat :=
  executor.admissionTimeoutSeconds + 5

/-- When Redis drops a set of slots that was last extended at `time`. -/
def RegionalSourceExecutor.dropsAt (time : Int) : Int :=
  time + executor.shared.ttlSeconds * 1000

/-- The answer of the admission script to a waiting execution. -/
def AdmissionState.admission (state : AdmissionState) (index : Nat)
    (defaultLimit : Int) : Option (Redis × Bool × Int) :=
  match state.executions[index]? with
  | some execution =>
      if execution.phase = .waiting then
        executor.shared.acquire state.redis state.clock
          execution.operation.tenantId execution.operation.source
          execution.operation.taskId defaultLimit executor.leaseSeconds
      else none
  | none => none

def AdmissionState.put (state : AdmissionState) (index : Nat)
    (execution : Execution) : AdmissionState :=
  { state with executions := state.executions.set index execution }

/-- The sources of tasks are the allowed ones. -/
def admissionStep (state : AdmissionState) :
    AdmissionAction → Option AdmissionState
  | .start operation =>
      if operation.source ∈ allowedSources then
        some { state with
          executions := state.executions ++ [⟨operation, .waiting⟩] }
      else none
  | .acquire index defaultLimit => do
      let execution ← state.executions[index]?
      let (redis, admitted, _) ← state.admission executor index defaultLimit
      if admitted then
        some { (state.put index { execution with
            phase := .inFlight {
              admittedAt := state.clock
              leaseEnds := state.clock +
                RedisAimdState.leaseMillis executor.leaseSeconds } }) with
          redis }
      else some { state with redis }
  | .adjust index arguments => do
      let execution ← state.executions[index]?
      match execution.phase with
      | .inFlight _ => do
          let (redis, _, _) ← executor.shared.adjust state.redis state.clock
            execution.operation.tenantId execution.operation.source arguments
          some { state with redis }
      | _ => none
  | .release index => do
      let execution ← state.executions[index]?
      match execution.phase with
      | .inFlight _ => do
          let redis ← executor.shared.release state.redis state.clock
            execution.operation.tenantId execution.operation.source
            execution.operation.taskId
          some { (state.put index { execution with phase := .ended }) with
            redis }
      | _ => none
  | .lose index => do
      let execution ← state.executions[index]?
      some (state.put index { execution with phase := .ended })
  | .elapse millis => some { state with clock := state.clock + millis }

/-- At an admission no execution in flight over the same key has the name of
the new one, and none has outlived its slot. -/
def SlotsHeld (state : AdmissionState) : AdmissionAction → Prop
  | .acquire index defaultLimit =>
      ∀ entrant ∈ state.executions[index]?,
        (∃ answer ∈ state.admission executor index defaultLimit,
          answer.2.1 = true) →
        ∀ other ∈ state.executions, ∀ slot ∈ other.slot?,
          executor.slotKey other.operation =
            executor.slotKey entrant.operation →
          other.operation.taskId ≠ entrant.operation.taskId ∧
            state.clock < slot.leaseEnds ∧
            state.clock < executor.dropsAt slot.admittedAt
  | _ => True

instance (state : AdmissionState) (action : AdmissionAction) :
    Decidable (SlotsHeld executor state action) :=
  match action with
  | .acquire index defaultLimit =>
      inferInstanceAs (Decidable (∀ entrant ∈ state.executions[index]?,
        (∃ answer ∈ state.admission executor index defaultLimit,
          answer.2.1 = true) →
        ∀ other ∈ state.executions, ∀ slot ∈ other.slot?,
          executor.slotKey other.operation =
            executor.slotKey entrant.operation →
          other.operation.taskId ≠ entrant.operation.taskId ∧
            state.clock < slot.leaseEnds ∧
            state.clock < executor.dropsAt slot.admittedAt))
  | .start _ | .adjust _ _ | .release _ | .lose _ | .elapse _ =>
      .isTrue trivial

end Step

/-- The executions of a tenant and source between admission and release. -/
def AdmissionState.inFlight (state : AdmissionState)
    (tenantId source : String) : List Execution :=
  state.executions.filter fun execution =>
    decide (execution.operation.tenantId = tenantId ∧
      execution.operation.source = source) && execution.slot?.isSome

/-! ## The invariant -/

/-- Every execution in flight has a slot of its own until the slot lapses. -/
structure Slotted (executor : RegionalSourceExecutor)
    (state : AdmissionState) : Prop where
  sources : ∀ execution ∈ state.executions,
    execution.operation.source ∈ allowedSources
  sets : state.redis.SetsDistinct
  past : ∀ execution ∈ state.executions, ∀ slot,
    execution.slot? = some slot → slot.admittedAt ≤ state.clock
  distinct : ∀ (first second : Nat) (left right : Execution),
    state.executions[first]? = some left →
    state.executions[second]? = some right →
    left.slot?.isSome = true → right.slot?.isSome = true →
    executor.slotKey left.operation = executor.slotKey right.operation →
    left.operation.taskId = right.operation.taskId → first = second
  stored : ∀ execution ∈ state.executions, ∀ slot,
    execution.slot? = some slot → state.clock < slot.leaseEnds →
    state.clock < executor.dropsAt slot.admittedAt →
    state.redis.Holds (executor.slotKey execution.operation)
      (execution.operation.taskId, slot.leaseEnds)
      (executor.dropsAt slot.admittedAt)

namespace Slotted

variable {executor : RegionalSourceExecutor} {state : AdmissionState}

/-- Redis changes; the slots in it that have not lapsed stay. -/
theorem redis_step (slotted : Slotted executor state) {redis : Redis}
    (sets : redis.SetsDistinct)
    (kept : ∀ execution ∈ state.executions, ∀ slot,
      execution.slot? = some slot → state.clock < slot.leaseEnds →
      state.clock < executor.dropsAt slot.admittedAt →
      state.redis.Holds (executor.slotKey execution.operation)
        (execution.operation.taskId, slot.leaseEnds)
        (executor.dropsAt slot.admittedAt) →
      redis.Holds (executor.slotKey execution.operation)
        (execution.operation.taskId, slot.leaseEnds)
        (executor.dropsAt slot.admittedAt)) :
    Slotted executor { state with redis } := by
  refine ⟨slotted.sources, sets, slotted.past, slotted.distinct, ?_⟩
  intro execution member slot inFlight unlapsed undropped
  exact kept execution member slot inFlight unlapsed undropped
    (slotted.stored execution member slot inFlight unlapsed undropped)

/-- Executions come and go; those in flight stay in their places. -/
theorem executions_step (slotted : Slotted executor state)
    {executions : List Execution}
    (sources : ∀ execution ∈ executions,
      execution.operation.source ∈ allowedSources)
    (flying : ∀ (index : Nat) (execution : Execution),
      executions[index]? = some execution → execution.slot?.isSome = true →
      state.executions[index]? = some execution) :
    Slotted executor { state with executions } := by
  have member : ∀ execution ∈ executions, ∀ slot,
      execution.slot? = some slot → execution ∈ state.executions := by
    intro execution inNext slot inFlight
    obtain ⟨index, located⟩ := List.getElem?_of_mem inNext
    exact List.mem_of_getElem?
      (flying index execution located (by rw [inFlight]; rfl))
  refine ⟨sources, slotted.sets, ?_, ?_, ?_⟩
  · intro execution inNext slot inFlight
    exact slotted.past execution (member execution inNext slot inFlight) slot
      inFlight
  · intro first second left right leftFound rightFound leftFlies rightFlies
    exact slotted.distinct first second left right
      (flying first left leftFound leftFlies)
      (flying second right rightFound rightFlies) leftFlies rightFlies
  · intro execution inNext slot inFlight
    exact slotted.stored execution (member execution inNext slot inFlight) slot
      inFlight

/-- An execution ends. -/
theorem put_ended (slotted : Slotted executor state) {index : Nat}
    {execution : Execution}
    (found : state.executions[index]? = some execution) :
    Slotted executor (state.put index { execution with phase := .ended }) := by
  apply slotted.executions_step
  · intro other inNext
    rcases List.mem_or_eq_of_mem_set inNext with old | new
    · exact slotted.sources other old
    · rw [new]
      exact slotted.sources execution (List.mem_of_getElem? found)
  · intro slot current located flies
    rw [getElem?_set_slot found] at located
    split at located
    next =>
      cases located
      cases flies
    next => exact located

/-- The script keeps the slots of executions in flight, whatever it answers. -/
theorem members_active (slotted : Slotted executor state)
    {execution : Execution} (member : execution ∈ state.executions)
    {slot : Slot} (inFlight : execution.slot? = some slot)
    (unlapsed : state.clock < slot.leaseEnds)
    (undropped : state.clock < executor.dropsAt slot.admittedAt)
    {members : List (String × Int)}
    (current : state.redis.members state.clock
      (executor.slotKey execution.operation) = some members) :
    (execution.operation.taskId, slot.leaseEnds) ∈
      removeExpired state.clock members := by
  have inside := (slotted.stored execution member slot inFlight unlapsed
    undropped).mem_members undropped current
  exact List.mem_filter.mpr ⟨inside, decide_eq_true unlapsed⟩

/-- An admission: the new slot joins those of the executions in flight. -/
theorem admitted (slotted : Slotted executor state) {index : Nat}
    {execution : Execution}
    (found : state.executions[index]? = some execution)
    {members : List (String × Int)}
    (current : state.redis.members state.clock
      (executor.slotKey execution.operation) = some members)
    (held : ∀ other ∈ state.executions, ∀ slot ∈ other.slot?,
      executor.slotKey other.operation =
        executor.slotKey execution.operation →
      other.operation.taskId ≠ execution.operation.taskId ∧
        state.clock < slot.leaseEnds ∧
        state.clock < executor.dropsAt slot.admittedAt)
    (leaseEnds : Int) :
    Slotted executor { (state.put index { execution with
        phase := .inFlight ⟨state.clock, leaseEnds⟩ }) with
      redis := state.redis.write (executor.slotKey execution.operation) (some {
        value := .sortedSet (addMember execution.operation.taskId leaseEnds
          (removeExpired state.clock members))
        expiresAt := executor.dropsAt state.clock }) } := by
  have lookup : ∀ (slot : Nat) (current : Execution),
      (state.executions.set index { execution with
        phase := .inFlight ⟨state.clock, leaseEnds⟩ })[slot]? = some current →
      slot = index ∧ current = { execution with
          phase := .inFlight ⟨state.clock, leaseEnds⟩ } ∨
        slot ≠ index ∧ state.executions[slot]? = some current := by
    intro slot current located
    rw [getElem?_set_slot found] at located
    split at located
    next same => exact .inl ⟨same, (Option.some.inj located).symm⟩
    next different => exact .inr ⟨different, located⟩
  have member : ∀ other ∈ state.executions.set index { execution with
      phase := .inFlight ⟨state.clock, leaseEnds⟩ },
      other = { execution with phase := .inFlight ⟨state.clock, leaseEnds⟩ } ∨
        other ∈ state.executions := by
    intro other inNext
    exact (List.mem_or_eq_of_mem_set inNext).symm
  have inState := List.mem_of_getElem? found
  refine ⟨?_, ?_, ?_, ?_, ?_⟩
  · intro other inNext
    rcases member other inNext with new | old
    · rw [new]
      exact slotted.sources execution inState
    · exact slotted.sources other old
  · apply slotted.sets.write
    intro stored expiresAt same
    cases same
    apply nodup_addMember
    exact (slotted.sets.members current).sublist
      (List.filter_sublist.map Prod.fst)
  · intro other inNext slot inFlight
    rcases member other inNext with new | old
    · rw [new] at inFlight
      cases inFlight
      exact le_refl _
    · exact slotted.past other old slot inFlight
  · -- Nobody in flight over this key has the name of the new execution.
    have fresh : ∀ (slot : Nat) (other : Execution),
        state.executions[slot]? = some other → other.slot?.isSome = true →
        executor.slotKey other.operation =
          executor.slotKey execution.operation →
        other.operation.taskId ≠ execution.operation.taskId := by
      intro slot other located flies key
      obtain ⟨taken, inFlight⟩ := Option.isSome_iff_exists.mp flies
      exact (held other (List.mem_of_getElem? located) taken inFlight key).1
    intro first second left right leftFound rightFound leftFlies rightFlies
      key name
    rcases lookup first left leftFound with ⟨isFirst, new⟩ | ⟨_, old⟩
    · rcases lookup second right rightFound with
        ⟨isSecond, _⟩ | ⟨_, rightOld⟩
      · exact isFirst.trans isSecond.symm
      · rw [new] at key name
        exact absurd name.symm (fresh second right rightOld rightFlies key.symm)
    · rcases lookup second right rightFound with ⟨_, new⟩ | ⟨_, rightOld⟩
      · rw [new] at key name
        exact absurd name (fresh first left old leftFlies key)
      · exact slotted.distinct first second left right old rightOld leftFlies
          rightFlies key name
  · intro other inNext slot inFlight unlapsed undropped
    rcases member other inNext with new | old
    · rw [new] at inFlight ⊢
      cases inFlight
      refine ⟨_, _, if_pos rfl, ?_, le_refl _⟩
      exact List.mem_append_right _ (List.mem_singleton_self _)
    · have before := slotted.stored other old slot inFlight unlapsed undropped
      by_cases key : executor.slotKey other.operation =
          executor.slotKey execution.operation
      · have different := (held other old slot inFlight key).1
        have active := slotted.members_active old inFlight unlapsed undropped
          (key ▸ current)
        refine ⟨_, _, if_pos key, ?_, ?_⟩
        · apply List.mem_append_left
          exact List.mem_filter.mpr ⟨active, decide_eq_true different⟩
        · have earlier := slotted.past other old slot inFlight
          unfold RegionalSourceExecutor.dropsAt
          omega
      · exact before.write_of_ne key _

/-- A waiting execution asks for a slot. -/
theorem acquired (slotted : Slotted executor state) {next : AdmissionState}
    {index : Nat} {defaultLimit : Int}
    (held : SlotsHeld executor state (.acquire index defaultLimit))
    (stepped : admissionStep executor state (.acquire index defaultLimit) =
      some next) : Slotted executor next := by
  simp only [admissionStep, Option.bind_eq_bind,
    Option.bind_eq_some_iff] at stepped
  obtain ⟨execution, found, ⟨redis, isAdmitted, limit⟩, answer, stepped⟩ :=
    stepped
  have script := answer
  simp only [AdmissionState.admission, found] at script
  split at script
  next waiting =>
    obtain ⟨members, current, outcome⟩ := redisAdmission_cases script
    rcases outcome with ⟨rejected, written⟩ | ⟨accepted, _, written⟩
    · subst rejected
      cases stepped
      rw [written]
      apply slotted.redis_step
      · apply slotted.sets.keepMembers
        exact (slotted.sets.members current).sublist
          (List.filter_sublist.map Prod.fst)
      · intro other member slot inFlight unlapsed undropped holds
        apply holds.keepMembers
        intro key
        exact slotted.members_active member inFlight unlapsed undropped
          (key ▸ current)
    · subst accepted
      cases stepped
      rw [written]
      exact slotted.admitted found current
        (held execution found ⟨_, answer, rfl⟩) _
  next => cases script

theorem step {next : AdmissionState} {action : AdmissionAction}
    (slotted : Slotted executor state)
    (held : SlotsHeld executor state action)
    (stepped : admissionStep executor state action = some next) :
    Slotted executor next := by
  cases action with
  | start operation =>
      simp only [admissionStep] at stepped
      split at stepped
      next allowed =>
        cases stepped
        apply slotted.executions_step
        · intro other inNext
          rcases List.mem_append.mp inNext with old | new
          · exact slotted.sources other old
          · rw [List.mem_singleton.mp new]
            exact allowed
        · intro slot current located flies
          rw [getElem?_append_slot] at located
          split at located
          next =>
            cases located
            cases flies
          next => exact located
      next => cases stepped
  | acquire index defaultLimit => exact slotted.acquired held stepped
  | adjust index arguments =>
      simp only [admissionStep, Option.bind_eq_bind,
        Option.bind_eq_some_iff] at stepped
      obtain ⟨execution, found, stepped⟩ := stepped
      split at stepped
      next slot phase =>
        simp only [Option.bind_eq_some_iff] at stepped
        obtain ⟨⟨redis, _, _⟩, script, stepped⟩ := stepped
        cases stepped
        simp only [RedisAimdState.adjust, redisAimd, Option.bind_eq_bind,
          Option.bind_eq_some_iff] at script
        obtain ⟨stored, _, script⟩ := script
        split at script
        next => cases script
        next =>
          cases script
          apply slotted.redis_step
          · apply slotted.sets.write
            intro members expiresAt isSet
            cases isSet
          · intro other member taken inFlight _ _ holds
            apply holds.write_of_ne
            intro same
            apply RedisAimdState.key_ne_inflightKey
              (slotted.sources execution (List.mem_of_getElem? found))
            exact same.symm
      next => cases stepped
  | release index =>
      simp only [admissionStep, Option.bind_eq_bind,
        Option.bind_eq_some_iff] at stepped
      obtain ⟨execution, found, stepped⟩ := stepped
      split at stepped
      next slot phase =>
        simp only [Option.bind_eq_some_iff] at stepped
        obtain ⟨redis, script, stepped⟩ := stepped
        cases stepped
        simp only [RedisAimdState.release, Option.bind_eq_bind,
          Option.bind_eq_some_iff] at script
        obtain ⟨members, current, script⟩ := script
        cases script
        apply (slotted.put_ended found).redis_step
        · apply slotted.sets.keepMembers
          exact (slotted.sets.members current).sublist
            (List.filter_sublist.map Prod.fst)
        · intro other member taken inFlight unlapsed undropped holds
          apply holds.keepMembers
          intro key
          have inside := holds.mem_members undropped (key ▸ current)
          refine List.mem_filter.mpr ⟨inside, decide_eq_true ?_⟩
          -- The slot of the ended execution was its own.
          intro name
          obtain ⟨position, located⟩ := List.getElem?_of_mem member
          rw [AdmissionState.put, getElem?_set_slot found] at located
          split at located
          next =>
            cases located
            cases inFlight
          next away =>
            apply away
            apply slotted.distinct position index other execution located found
              (by rw [inFlight]; rfl) (by simp [Execution.slot?, phase]) key
              name
      next => cases stepped
  | lose index =>
      simp only [admissionStep, Option.bind_eq_bind,
        Option.bind_eq_some_iff] at stepped
      obtain ⟨execution, found, stepped⟩ := stepped
      cases stepped
      exact slotted.put_ended found
  | elapse millis =>
      cases stepped
      have later : state.clock ≤ state.clock + millis := by omega
      refine ⟨slotted.sources, slotted.sets, ?_, slotted.distinct, ?_⟩
      · intro execution member slot inFlight
        exact le_trans (slotted.past execution member slot inFlight) later
      · intro execution member slot inFlight unlapsed undropped
        exact slotted.stored execution member slot inFlight
          (lt_of_le_of_lt later unlapsed) (lt_of_le_of_lt later undropped)

theorem initial : Slotted executor AdmissionState.initial := by
  refine ⟨?_, ?_, ?_, ?_, ?_⟩
  · intro execution member
    cases member
  · intro key members expiresAt found
    cases found
  · intro execution member
    cases member
  · intro first second left right found
    cases found
  · intro execution member
    cases member

/-- The executions in flight over one key have different names. -/
theorem nodup_names (slotted : Slotted executor state)
    (tenantId source : String) :
    ((state.inFlight tenantId source).map fun execution =>
      execution.operation.taskId).Nodup := by
  unfold List.Nodup AdmissionState.inFlight
  rw [List.pairwise_map, List.pairwise_filter, List.pairwise_iff_getElem]
  intro first second firstBound secondBound before leftHit rightHit name
  rw [Bool.and_eq_true, decide_eq_true_iff] at leftHit rightHit
  have key : executor.slotKey (state.executions[first]).operation =
      executor.slotKey (state.executions[second]).operation := by
    unfold RegionalSourceExecutor.slotKey
    rw [leftHit.1.1, leftHit.1.2, rightHit.1.1, rightHit.1.2]
  have same := slotted.distinct first second _ _
    (List.getElem?_eq_getElem firstBound)
    (List.getElem?_eq_getElem secondBound) leftHit.2 rightHit.2 key name
  omega

end Slotted

/-- In every run whose admissions meet no namesake and no outlived slot, an
admission leaves at most as many executions in flight as its window. -/
theorem admissions_stay_within_window (executor : RegionalSourceExecutor)
    {actions : List AdmissionAction} {state next : AdmissionState}
    (execution : Runs (admissionStep executor) (SlotsHeld executor)
      AdmissionState.initial actions state)
    {index : Nat} {defaultLimit : Int}
    (held : SlotsHeld executor state (.acquire index defaultLimit))
    (stepped : admissionStep executor state (.acquire index defaultLimit) =
      some next)
    {entrant : Execution} (found : state.executions[index]? = some entrant)
    {redis : Redis} {window : Int}
    (answer : state.admission executor index defaultLimit =
      some (redis, true, window)) :
    ((next.inFlight entrant.operation.tenantId
      entrant.operation.source).length : Int) ≤ window := by
  have preserved : ∀ {before : AdmissionState} {action : AdmissionAction}
      {after : AdmissionState}, Slotted executor before →
      SlotsHeld executor before action →
      admissionStep executor before action = some after →
      Slotted executor after :=
    fun slotted held stepped => slotted.step held stepped
  have slotted := execution.invariant preserved Slotted.initial
  have distinct := (slotted.step held stepped).nodup_names
    entrant.operation.tenantId entrant.operation.source
  have others := held entrant found ⟨_, answer, rfl⟩
  have script := answer
  simp only [AdmissionState.admission, found] at script
  split at script
  next waiting =>
    obtain ⟨members, current, outcome⟩ := redisAdmission_cases script
    rcases outcome with ⟨rejected, _⟩ | ⟨_, within, _⟩
    · cases rejected
    · -- Every execution in flight is a member of the new set of slots.
      have inside : ((next.inFlight entrant.operation.tenantId
          entrant.operation.source).map fun execution =>
            execution.operation.taskId) ⊆
          (addMember entrant.operation.taskId 0
            (removeExpired state.clock members)).map Prod.fst := by
        intro name inNames
        obtain ⟨other, inFilter, rfl⟩ := List.mem_map.mp inNames
        obtain ⟨inNext, hit⟩ := List.mem_filter.mp inFilter
        rw [Bool.and_eq_true, decide_eq_true_iff] at hit
        obtain ⟨slot, inFlight⟩ := Option.isSome_iff_exists.mp hit.2
        simp only [admissionStep, found, answer, Option.bind_eq_bind,
          Option.bind_some, if_true] at stepped
        cases stepped
        rcases List.mem_or_eq_of_mem_set inNext with old | new
        · have key : executor.slotKey other.operation =
              executor.slotKey entrant.operation := by
            unfold RegionalSourceExecutor.slotKey
            rw [hit.1.1, hit.1.2]
          obtain ⟨different, unlapsed, undropped⟩ :=
            others other old slot inFlight key
          have active := slotted.members_active old inFlight unlapsed
            undropped (by rw [key]; exact current)
          apply List.mem_map_of_mem (f := Prod.fst)
            (a := (other.operation.taskId, slot.leaseEnds))
          apply List.mem_append_left
          exact List.mem_filter.mpr ⟨active, decide_eq_true different⟩
        · rw [new]
          apply List.mem_map_of_mem (f := Prod.fst)
            (a := (entrant.operation.taskId, 0))
          exact List.mem_append_right _ (List.mem_singleton_self _)
      have counted := (List.subperm_of_subset distinct inside).length_le
      rw [List.length_map, List.length_map] at counted
      have bound : (addMember entrant.operation.taskId 0
          (removeExpired state.clock members)).length ≤
          (removeExpired state.clock members).length + 1 := by
        unfold addMember
        rw [List.length_append]
        exact Nat.add_le_add_right (List.length_filter_le _ _) 1
      omega
  next => cases script

/-! Four executions fill the default window. -/

private def demoExecutor : RegionalSourceExecutor :=
  { shared := .create "privacy:aimd" 900, admissionTimeoutSeconds := 30 }

private def demoOperation (taskId : String) : SourceOperation :=
  { taskId, tenantId := "t", source := "jobs", subjectKeyHash := "h"
    kind := "access" }

/-- The tasks start in turn and are admitted in turn. -/
private def admissions (taskIds : List String) : List AdmissionAction :=
  taskIds.map (fun taskId => .start (demoOperation taskId)) ++
    (List.range taskIds.length).map fun index => .acquire index 4

private def waitingFourth : List AdmissionAction :=
  admissions ["a", "b", "c"] ++ [.start (demoOperation "d")]

theorem fourth_task_fills_window :
    ∃ state next redis, Runs (admissionStep demoExecutor)
        (SlotsHeld demoExecutor) AdmissionState.initial waitingFourth state ∧
      SlotsHeld demoExecutor state (.acquire 3 4) ∧
      admissionStep demoExecutor state (.acquire 3 4) = some next ∧
      state.admission demoExecutor 3 4 = some (redis, true, 4) ∧
      ((next.inFlight "t" "jobs").length : Int) ≤ 4 := by
  have evaluated : ((run (admissionStep demoExecutor) (SlotsHeld demoExecutor)
      AdmissionState.initial waitingFourth).bind fun state =>
        (admissionStep demoExecutor state (.acquire 3 4)).bind fun next =>
          (state.admission demoExecutor 3 4).map fun answer =>
            (decide (SlotsHeld demoExecutor state (.acquire 3 4)),
              (state.executions[3]?).map Execution.operation, answer.2)) =
      some (true, some (demoOperation "d"), true, 4) := by
    decide +kernel
  obtain ⟨state, result, rest⟩ := Option.bind_eq_some_iff.mp evaluated
  obtain ⟨next, stepped, rest⟩ := Option.bind_eq_some_iff.mp rest
  obtain ⟨⟨redis, admitted, window⟩, answer, columns⟩ :=
    Option.map_eq_some_iff.mp rest
  simp only [Prod.mk.injEq, decide_eq_true_eq,
    Option.map_eq_some_iff] at columns
  obtain ⟨held, ⟨entrant, found, operation⟩, isAdmitted, isFour⟩ := columns
  rw [isAdmitted, isFour] at answer
  have execution := runs_of_run result
  have within := admissions_stay_within_window demoExecutor execution held
    stepped found answer
  rw [operation] at within
  exact ⟨state, next, redis, execution, held, stepped, answer, within⟩

/-! One task is executed twice at the same time: its two executions share a
slot, and a fifth one is admitted. -/

private def twiceExecuted : List AdmissionAction :=
  admissions ["a", "a", "b", "c"] ++ [.start (demoOperation "d")]

theorem shared_name_exceeds_window :
    ∃ state next redis, Runs (admissionStep demoExecutor) Always
        AdmissionState.initial twiceExecuted state ∧
      admissionStep demoExecutor state (.acquire 4 4) = some next ∧
      state.admission demoExecutor 4 4 = some (redis, true, 4) ∧
      ¬ ((next.inFlight "t" "jobs").length : Int) ≤ 4 := by
  have evaluated : ((run (admissionStep demoExecutor) Always
      AdmissionState.initial twiceExecuted).bind fun state =>
        (admissionStep demoExecutor state (.acquire 4 4)).bind fun next =>
          (state.admission demoExecutor 4 4).map fun answer =>
            (answer.2, (next.inFlight "t" "jobs").length)) =
      some ((true, 4), 5) := by
    decide +kernel
  obtain ⟨state, result, rest⟩ := Option.bind_eq_some_iff.mp evaluated
  obtain ⟨next, stepped, rest⟩ := Option.bind_eq_some_iff.mp rest
  obtain ⟨⟨redis, admitted, window⟩, answer, columns⟩ :=
    Option.map_eq_some_iff.mp rest
  simp only [Prod.mk.injEq] at columns
  obtain ⟨⟨isAdmitted, isFour⟩, count⟩ := columns
  rw [isAdmitted, isFour] at answer
  refine ⟨state, next, redis, runs_of_run result, stepped, answer, ?_⟩
  rw [count]
  decide

end FleetPrivacy
