import FleetPrivacy.SourceConnectors
import Mathlib.Data.List.Dedup

/-!
# Batches of operations

`RegionalSourceClient.execute_batch`: rounds of concurrent calls whose number
is set by the local controller and, where there is one, by the window that all
clients share.  The coroutines of a round start and are answered in any order,
and other clients change Redis between any two steps.
-/

namespace FleetPrivacy

open Transition

/-- `items[start:stop]` for a start that is not negative. -/
def slice {α : Type} (items : List α) (start : Nat) (stop : Int) : List α :=
  let bound := if stop < 0 then max 0 (stop + items.length) else stop
  (items.take bound.toNat).drop start

/-- A coroutine `self.execute(operation)` of the round. -/
inductive BatchCall where
  | waiting
  | outstanding
  | done (receipt : SourceReceipt)
  deriving DecidableEq

def BatchCall.receipt? : BatchCall → Option SourceReceipt
  | .done receipt => some receipt
  | .waiting | .outstanding => none

inductive BatchPhase where
  | entered
  /-- The head of the loop. -/
  | looping
  /-- The `gather` over `operations[cursor : cursor + limit]`. -/
  | gathering (calls : List BatchCall)
  /-- Before `shared_state.adjust`. -/
  | publishing (operation : SourceOperation) (arguments : AimdArguments)
  | ended (outcome : Outcome (List SourceReceipt))
  deriving DecidableEq

structure BatchState where
  redis : Redis
  clock : Int
  controller : AimdConcurrencyController
  cursor : Nat
  receipts : List SourceReceipt
  phase : BatchPhase

inductive BatchAction where
  /-- The check of the scopes. -/
  | enter
  /-- `get_limit`, and the start of a round. -/
  | readLimit
  | post (call : Nat)
  | answer (call : Nat)
  /-- The `gather` returns. -/
  | collect
  | publish
  /-- Other clients run, time passes and keys expire. -/
  | elsewhere (redis : Redis) (millis : Nat)

/-- Steps of the batch itself. -/
def BatchAction.own : BatchAction → Bool
  | .elsewhere _ _ => false
  | _ => true

/-- `{(operation.tenant_id, operation.source) …}`. -/
def scopes (operations : List SourceOperation) : List (String × String) :=
  (operations.map fun operation =>
    (operation.tenantId, operation.source)).dedup

def scopeError : String :=
  "one connector batch must target one tenant and data source"

/-- The exception of the Redis client. -/
def redisError : String := "ResponseError"

/-- What a batch asks of the shared state and of the regional source. -/
inductive BatchRequest where
  | getLimit
  | post (operation : SourceOperation)
  | adjust (arguments : AimdArguments)
  deriving DecidableEq

namespace BatchState

def initial (redis : Redis) (clock : Int)
    (controller : AimdConcurrencyController) : BatchState :=
  { redis, clock, controller, cursor := 0, receipts := [], phase := .entered }

/-- The round that starts with a limit. -/
def beginRound (state : BatchState) (operations : List SourceOperation)
    (limit : Int) : BatchState :=
  { state with
    controller := { state.controller with limit }
    phase := .gathering
      ((slice operations state.cursor (state.cursor + limit)).map
        fun _ => .waiting) }

def fail (state : BatchState) (message : String) : BatchState :=
  { state with phase := .ended (.raised message) }

/-- Operations that have been posted and not answered. -/
def outstanding (state : BatchState) : Nat :=
  match state.phase with
  | .gathering calls => calls.countP fun call => decide (call = .outstanding)
  | _ => 0

end BatchState

/-- `gather` raises with the first of its coroutines that does. -/
def answeredPhase (calls : List BatchCall) (call : Nat) :
    Outcome SourceReceipt → BatchPhase
  | .returned receipt => .gathering (calls.set call (.done receipt))
  | .raised message => .ended (.raised message)
  | .cancelled => .ended .cancelled

def collectedPhase (shared : Option RedisAimdState)
    (operation : SourceOperation) (controller : AimdConcurrencyController) :
    BatchPhase :=
  match shared with
  | none => .looping
  | some _ => .publishing operation (decisionArguments controller)

/-- A window of at least 1. -/
def RedisValue.Positive : RedisValue → Prop
  | .number limit => 1 ≤ limit
  | .sortedSet _ => False

instance (value : RedisValue) : Decidable value.Positive :=
  match value with
  | .number limit => inferInstanceAs (Decidable (1 ≤ limit))
  | .sortedSet _ => .isFalse id

theorem RedisValue.Positive.number {value : RedisValue}
    (positive : value.Positive) :
    ∃ limit, value = .number limit ∧ 1 ≤ limit := by
  cases value with
  | number limit => exact ⟨limit, rfl, positive⟩
  | sortedSet => cases positive

section Step

variable (shared : Option RedisAimdState) (operations : List SourceOperation)
  (exchanges : Nat → Exchange)

/-- One step of `execute_batch`; the exchange of every operation is given by
its position. -/
def batchStep (state : BatchState) : BatchAction → Option BatchState
  | .enter =>
      match state.phase with
      | .entered =>
          if 1 < (scopes operations).length then some (state.fail scopeError)
          else some { state with phase := .looping }
      | _ => none
  | .readLimit =>
      match state.phase, operations[state.cursor]?, shared with
      | .looping, none, _ =>
          some { state with phase := .ended (.returned state.receipts) }
      | .looping, some _, none =>
          some (state.beginRound operations state.controller.limit)
      | .looping, some operation, some shared =>
          match shared.getLimit state.redis state.clock operation.tenantId
              operation.source state.controller.limit with
          | some limit => some (state.beginRound operations limit)
          | none => some (state.fail redisError)
      | _, _, _ => none
  | .post call =>
      match state.phase with
      | .gathering calls =>
          if calls[call]? = some .waiting then
            some { state with phase := .gathering (calls.set call .outstanding) }
          else none
      | _ => none
  | .answer call =>
      match state.phase, operations[state.cursor + call]? with
      | .gathering calls, some operation =>
          if calls[call]? = some .outstanding then
            let (controller, outcome) := clientExecute operation
              (exchanges (state.cursor + call)) state.controller
            some { state with
              controller
              phase := answeredPhase calls call outcome }
          else none
      | _, _ => none
  | .collect =>
      match state.phase, operations[state.cursor]? with
      | .gathering calls, some operation => do
          let receipts ← calls.mapM BatchCall.receipt?
          some { state with
            controller := state.controller.adjust.1
            cursor := state.cursor + calls.length
            receipts := state.receipts ++ receipts
            phase := collectedPhase shared operation state.controller }
      | _, _ => none
  | .publish =>
      match state.phase, shared with
      | .publishing operation arguments, some shared =>
          match shared.adjust state.redis state.clock operation.tenantId
              operation.source arguments with
          | some (redis, _, limit) =>
              some { state with
                redis
                controller := { state.controller with limit }
                phase := .looping }
          | none => some (state.fail redisError)
      | _, _ => none
  | .elsewhere redis millis =>
      some { state with redis, clock := state.clock + millis }

/-- The requests of a step. -/
def batchRequests (state : BatchState) : BatchAction → List BatchRequest
  | .readLimit =>
      match state.phase, operations[state.cursor]?, shared with
      | .looping, some _, some _ => [.getLimit]
      | _, _, _ => []
  | .post call =>
      match state.phase with
      | .gathering _ =>
          (operations[state.cursor + call]?).toList.map BatchRequest.post
      | _ => []
  | .publish =>
      match state.phase with
      | .publishing _ arguments => [.adjust arguments]
      | _ => []
  | .enter | .answer _ | .collect | .elsewhere _ _ => []

/-- The windows of the batch's scopes are at least 1. -/
def WindowsPositive (redis : Redis) (now : Int) : Prop :=
  ∀ window ∈ shared, ∀ operation ∈ operations,
    ∀ value ∈ redis.read now
      (window.key operation.tenantId operation.source), value.Positive

instance (redis : Redis) (now : Int) :
    Decidable (WindowsPositive shared operations redis now) :=
  inferInstanceAs (Decidable (∀ window ∈ shared, ∀ operation ∈ operations,
    ∀ value ∈ redis.read now
      (window.key operation.tenantId operation.source), value.Positive))

/-- Other clients keep the windows at least 1. -/
def PositiveElsewhere (state : BatchState) : BatchAction → Prop
  | .elsewhere redis millis =>
      WindowsPositive shared operations redis (state.clock + millis)
  | _ => True

instance (state : BatchState) (action : BatchAction) :
    Decidable (PositiveElsewhere shared operations state action) :=
  match action with
  | .elsewhere redis millis =>
      inferInstanceAs (Decidable
        (WindowsPositive shared operations redis (state.clock + millis)))
  | .enter | .readLimit | .post _ | .answer _ | .collect | .publish =>
      .isTrue trivial

/-- What each step can do. -/
inductive BatchMove (state : BatchState) : BatchAction → BatchState → Prop where
  | reject (entered : state.phase = .entered)
      (several : 1 < (scopes operations).length) :
      BatchMove state .enter (state.fail scopeError)
  | enterLoop (entered : state.phase = .entered)
      (single : (scopes operations).length ≤ 1) :
      BatchMove state .enter { state with phase := .looping }
  | finish (looping : state.phase = .looping)
      (exhausted : operations[state.cursor]? = none) :
      BatchMove state .readLimit
        { state with phase := .ended (.returned state.receipts) }
  | localRound {operation : SourceOperation}
      (looping : state.phase = .looping)
      (found : operations[state.cursor]? = some operation)
      (unshared : shared = none) :
      BatchMove state .readLimit
        (state.beginRound operations state.controller.limit)
  | sharedRound {operation : SourceOperation} {window : RedisAimdState}
      {limit : Int} (looping : state.phase = .looping)
      (found : operations[state.cursor]? = some operation)
      (isShared : shared = some window)
      (read : window.getLimit state.redis state.clock operation.tenantId
        operation.source state.controller.limit = some limit) :
      BatchMove state .readLimit (state.beginRound operations limit)
  | readFails {operation : SourceOperation} {window : RedisAimdState}
      (looping : state.phase = .looping)
      (found : operations[state.cursor]? = some operation)
      (isShared : shared = some window)
      (read : window.getLimit state.redis state.clock operation.tenantId
        operation.source state.controller.limit = none) :
      BatchMove state .readLimit (state.fail redisError)
  | post {calls : List BatchCall} {call : Nat}
      (gathering : state.phase = .gathering calls)
      (waiting : calls[call]? = some .waiting) :
      BatchMove state (.post call)
        { state with phase := .gathering (calls.set call .outstanding) }
  | answer {calls : List BatchCall} {call : Nat} {operation : SourceOperation}
      {controller : AimdConcurrencyController}
      {outcome : Outcome SourceReceipt}
      (gathering : state.phase = .gathering calls)
      (outstanding : calls[call]? = some .outstanding)
      (found : operations[state.cursor + call]? = some operation)
      (executed : clientExecute operation (exchanges (state.cursor + call))
        state.controller = (controller, outcome)) :
      BatchMove state (.answer call) { state with
        controller
        phase := answeredPhase calls call outcome }
  | collect {calls : List BatchCall} {operation : SourceOperation}
      {receipts : List SourceReceipt}
      (gathering : state.phase = .gathering calls)
      (found : operations[state.cursor]? = some operation)
      (collected : calls.mapM BatchCall.receipt? = some receipts) :
      BatchMove state .collect { state with
        controller := state.controller.adjust.1
        cursor := state.cursor + calls.length
        receipts := state.receipts ++ receipts
        phase := collectedPhase shared operation state.controller }
  | publish {operation : SourceOperation} {arguments : AimdArguments}
      {window : RedisAimdState} {redis : Redis} {previous limit : Int}
      (publishing : state.phase = .publishing operation arguments)
      (isShared : shared = some window)
      (adjusted : window.adjust state.redis state.clock operation.tenantId
        operation.source arguments = some (redis, previous, limit)) :
      BatchMove state .publish { state with
        redis
        controller := { state.controller with limit }
        phase := .looping }
  | publishFails {operation : SourceOperation} {arguments : AimdArguments}
      {window : RedisAimdState}
      (publishing : state.phase = .publishing operation arguments)
      (isShared : shared = some window)
      (adjusted : window.adjust state.redis state.clock operation.tenantId
        operation.source arguments = none) :
      BatchMove state .publish (state.fail redisError)
  | elsewhere (redis : Redis) (millis : Nat) :
      BatchMove state (.elsewhere redis millis)
        { state with redis, clock := state.clock + millis }

end Step

section Moves

variable {shared : Option RedisAimdState} {operations : List SourceOperation}
  {exchanges : Nat → Exchange} {state next : BatchState} {action : BatchAction}

theorem batchStep_moves
    (stepped : batchStep shared operations exchanges state action =
      some next) :
    BatchMove shared operations exchanges state action next := by
  cases action with
  | enter =>
      simp only [batchStep] at stepped
      split at stepped
      next entered =>
        split at stepped
        next several =>
          cases stepped
          exact .reject entered several
        next single =>
          cases stepped
          exact .enterLoop entered (not_lt.mp single)
      next => cases stepped
  | readLimit =>
      simp only [batchStep] at stepped
      split at stepped
      next looping exhausted =>
        cases stepped
        exact .finish looping exhausted
      next operation looping found =>
        cases stepped
        exact .localRound looping found rfl
      next operation window looping found =>
        split at stepped
        next limit read =>
          cases stepped
          exact .sharedRound looping found rfl read
        next read =>
          cases stepped
          exact .readFails looping found rfl read
      next => cases stepped
  | post call =>
      simp only [batchStep] at stepped
      split at stepped
      next calls gathering =>
        split at stepped
        next waiting =>
          cases stepped
          exact .post gathering waiting
        next => cases stepped
      next => cases stepped
  | answer call =>
      simp only [batchStep] at stepped
      split at stepped
      next calls operation gathering found =>
        split at stepped
        next outstanding =>
          cases stepped
          exact .answer gathering outstanding found rfl
        next => cases stepped
      next => cases stepped
  | collect =>
      simp only [batchStep] at stepped
      split at stepped
      next calls operation gathering found =>
        obtain ⟨receipts, collected, stepped⟩ :=
          Option.bind_eq_some_iff.mp stepped
        cases stepped
        exact .collect gathering found collected
      next => cases stepped
  | publish =>
      simp only [batchStep] at stepped
      split at stepped
      next operation arguments window publishing =>
        split at stepped
        next redis previous limit adjusted =>
          cases stepped
          exact .publish publishing rfl adjusted
        next adjusted =>
          cases stepped
          exact .publishFails publishing rfl adjusted
      next => cases stepped
  | elsewhere redis millis =>
      cases stepped
      exact .elsewhere redis millis

end Moves

/-! ## Limits -/

/-- The parameters of a controller that never stops its client. -/
structure AimdConcurrencyController.Controlled
    (controller : AimdConcurrencyController) : Prop where
  limit : 1 ≤ controller.limit
  minimum : 1 ≤ controller.minimum
  maximum : 1 ≤ controller.maximum
  additive : 0 ≤ controller.additiveStep

namespace AimdConcurrencyController.Controlled

variable {controller : AimdConcurrencyController}

theorem withLimit (controlled : controller.Controlled) {limit : Int}
    (positive : 1 ≤ limit) :
    AimdConcurrencyController.Controlled { controller with limit } :=
  ⟨positive, controlled.minimum, controlled.maximum, controlled.additive⟩

theorem observe (controlled : controller.Controlled) (latencySeconds : Rat)
    (succeeded : Bool) :
    (controller.observe latencySeconds succeeded).Controlled :=
  ⟨controlled.limit, controlled.minimum, controlled.maximum,
    controlled.additive⟩

end AimdConcurrencyController.Controlled

/-- The local step is the step of the script, except that without samples it
keeps the limit. -/
theorem adjust_limit (controller : AimdConcurrencyController) :
    controller.adjust.1.limit =
      if controller.latencies = [] then controller.limit
      else (decisionArguments controller).nextLimit controller.limit := by
  cases samples : controller.latencies with
  | nil => simp [AimdConcurrencyController.adjust, samples]
  | cons first rest =>
      rw [if_neg (List.cons_ne_nil first rest)]
      simp only [AimdConcurrencyController.adjust, decisionArguments,
        AimdArguments.nextLimit, samples, List.length_cons, ne_eq,
        Nat.succ_ne_zero, not_false_eq_true, true_and, if_true, if_false]

/-- A decision of such a controller leads from positive windows to positive
windows. -/
theorem one_le_nextLimit {controller : AimdConcurrencyController}
    (controlled : controller.Controlled) {current : Int}
    (positive : 1 ≤ current) :
    1 ≤ (decisionArguments controller).nextLimit current := by
  have minimum := controlled.minimum
  have maximum := controlled.maximum
  have additive := controlled.additive
  unfold AimdArguments.nextLimit
  split
  next => exact le_trans minimum (le_max_left _ _)
  next =>
    simp only [decisionArguments]
    omega

theorem AimdConcurrencyController.Controlled.adjust
    {controller : AimdConcurrencyController}
    (controlled : controller.Controlled) :
    controller.adjust.1.Controlled := by
  refine ⟨?_, controlled.minimum, controlled.maximum, controlled.additive⟩
  rw [adjust_limit]
  split
  next => exact controlled.limit
  next => exact one_le_nextLimit controlled controlled.limit

namespace WindowsPositive

variable {shared : Option RedisAimdState} {operations : List SourceOperation}
  {redis : Redis} {now : Int}

/-- `get_limit` succeeds with a positive limit. -/
theorem getLimit (windows : WindowsPositive shared operations redis now)
    {window : RedisAimdState} (isShared : shared = some window)
    {operation : SourceOperation} (member : operation ∈ operations)
    {defaultLimit : Int} (positive : 1 ≤ defaultLimit) :
    ∃ stored, redis.get now (window.key operation.tenantId operation.source) =
        some stored ∧ 1 ≤ stored.getD defaultLimit := by
  unfold Redis.get
  cases found : redis.read now
      (window.key operation.tenantId operation.source) with
  | none => exact ⟨none, rfl, positive⟩
  | some value =>
      obtain ⟨limit, isNumber, atLeast⟩ :=
        (windows window isShared operation member value found).number
      rw [isNumber]
      exact ⟨some limit, rfl, atLeast⟩

/-- A positive window is written. -/
theorem write (windows : WindowsPositive shared operations redis now)
    (key : String) {limit : Int} (positive : 1 ≤ limit) (expiresAt : Int) :
    WindowsPositive shared operations
      (redis.write key (some { value := .number limit, expiresAt })) now := by
  intro window isShared operation member value found
  by_cases same : window.key operation.tenantId operation.source = key
  · rw [same] at found
    cases Redis.read_write_self found
    exact positive
  · apply windows window isShared operation member value
    rwa [Redis.read_write_of_ne same] at found

end WindowsPositive

/-! ## Rounds and receipts -/

/-- A round takes at least one operation, and no more than its limit. -/
theorem length_round {α : Type} {items : List α} {cursor : Nat} {limit : Int}
    (inside : cursor < items.length) (positive : 1 ≤ limit) :
    1 ≤ (slice items cursor (cursor + limit)).length ∧
      ((slice items cursor (cursor + limit)).length : Int) ≤ limit ∧
      cursor + (slice items cursor (cursor + limit)).length ≤
        items.length := by
  have forward : ¬ (cursor + limit < 0) := by omega
  simp only [slice, if_neg forward, List.length_drop, List.length_take]
  omega

/-- A response with a JSON or an empty body. -/
def Exchange.Readable : Exchange → Prop
  | .answered _ (.malformed _) _ => False
  | .answered _ _ _ => True
  | .failed _ | .cancelled => False

theorem Exchange.Readable.returned {exchange : Exchange}
    (readable : exchange.Readable) (operation : SourceOperation) :
    ∃ latencySeconds succeeded receipt,
      ∀ controller, clientExecute operation exchange controller =
        (controller.observe latencySeconds succeeded, .returned receipt) := by
  cases exchange with
  | answered statusCode body latencySeconds =>
      refine ⟨latencySeconds, isSuccess statusCode, ?_⟩
      cases body with
      | empty => exact ⟨_, fun controller => rfl⟩
      | json value => exact ⟨_, fun controller => rfl⟩
      | malformed message => cases readable
  | failed | cancelled => cases readable

section Answers

variable (operations : List SourceOperation) (exchanges : Nat → Exchange)

/-- The receipt of the operation at a position. -/
def Answers (position : Nat) (receipt : SourceReceipt) : Prop :=
  ∃ operation, operations[position]? = some operation ∧
    ∀ controller, (clientExecute operation (exchanges position)
      controller).2 = .returned receipt

/-- One receipt for each of the first operations, in their order. -/
structure Received (receipts : List SourceReceipt) (cursor : Nat) : Prop where
  length : receipts.length = cursor
  within : cursor ≤ operations.length
  each : ∀ position receipt, receipts[position]? = some receipt →
    Answers operations exchanges position receipt

/-- The calls of a round: each stands for the operation at its position. -/
structure RoundFormed (cursor : Nat) (limit : Int) (calls : List BatchCall) :
    Prop where
  started : 1 ≤ calls.length
  bounded : (calls.length : Int) ≤ limit
  within : cursor + calls.length ≤ operations.length
  each : ∀ (call : Nat) receipt, calls[call]? = some (.done receipt) →
    Answers operations exchanges (cursor + call) receipt

end Answers

section Receipts

variable {operations : List SourceOperation} {exchanges : Nat → Exchange}

/-- Receipts of all operations answer each of them. -/
theorem Received.answered {receipts : List SourceReceipt} {cursor : Nat}
    (received : Received operations exchanges receipts cursor)
    (complete : cursor = operations.length) {position : Nat}
    {operation : SourceOperation}
    (found : operations[position]? = some operation) :
    ∃ receipt, receipts[position]? = some receipt ∧
      ∀ controller, (clientExecute operation (exchanges position)
        controller).2 = .returned receipt := by
  have length := received.length.trans complete
  obtain ⟨inside, _⟩ := List.getElem?_eq_some_iff.mp found
  have located := List.getElem?_eq_getElem (length ▸ inside)
  obtain ⟨answered, same, returned⟩ := received.each position _ located
  cases found.symm.trans same
  exact ⟨_, located, returned⟩

theorem receipts_of_mapM {calls : List BatchCall}
    {receipts : List SourceReceipt}
    (collected : calls.mapM BatchCall.receipt? = some receipts) :
    calls = receipts.map BatchCall.done := by
  induction calls generalizing receipts with
  | nil =>
      cases collected
      rfl
  | cons call calls induction =>
      rw [List.mapM_cons] at collected
      obtain ⟨first, isDone, later⟩ := Option.bind_eq_some_iff.mp collected
      obtain ⟨rest, tail, same⟩ := Option.bind_eq_some_iff.mp later
      cases same
      cases call with
      | done receipt =>
          cases isDone
          rw [List.map_cons, ← induction tail]
      | waiting | outstanding => cases isDone

theorem exists_mapM_of_done {calls : List BatchCall}
    (finished : ∀ call ∈ calls, ∃ receipt, call = .done receipt) :
    ∃ receipts, calls.mapM BatchCall.receipt? = some receipts := by
  induction calls with
  | nil => exact ⟨[], rfl⟩
  | cons call calls induction =>
      obtain ⟨receipt, isDone⟩ := finished call List.mem_cons_self
      obtain ⟨receipts, tail⟩ := induction fun other member =>
        finished other (List.mem_cons_of_mem call member)
      refine ⟨receipt :: receipts, ?_⟩
      rw [List.mapM_cons, isDone, tail]
      rfl

/-- The receipts of a round follow those of the rounds before. -/
theorem Received.append {past receipts : List SourceReceipt} {cursor : Nat}
    (received : Received operations exchanges past cursor) {limit : Int}
    {calls : List BatchCall}
    (formed : RoundFormed operations exchanges cursor limit calls)
    (collected : calls.mapM BatchCall.receipt? = some receipts) :
    Received operations exchanges (past ++ receipts)
      (cursor + calls.length) := by
  have allDone := receipts_of_mapM collected
  have same : calls.length = receipts.length := by
    rw [allDone, List.length_map]
  refine ⟨?_, formed.within, ?_⟩
  · rw [List.length_append, received.length, same]
  · intro position receipt found
    rcases Nat.lt_or_ge position past.length with before | after
    · rw [List.getElem?_append_left before] at found
      exact received.each position receipt found
    · rw [List.getElem?_append_right after] at found
      have located : calls[position - past.length]? =
          some (.done receipt) := by
        rw [allDone, List.getElem?_map, found]
        rfl
      have answered := formed.each _ receipt located
      rw [received.length] at after answered
      rwa [Nat.add_sub_cancel' after] at answered

end Receipts

/-! ## The invariant -/

section Formed

variable (shared : Option RedisAimdState) (operations : List SourceOperation)
  (exchanges : Nat → Exchange)

/-- Where a batch can stand: only batches over one scope get beyond the
check. -/
def PhaseFormed (state : BatchState) : Prop :=
  match state.phase with
  | .entered => True
  | .looping => (scopes operations).length ≤ 1
  | .gathering calls =>
      (scopes operations).length ≤ 1 ∧
        RoundFormed operations exchanges state.cursor state.controller.limit
          calls
  | .publishing operation arguments =>
      (scopes operations).length ≤ 1 ∧ operation ∈ operations ∧
        shared.isSome = true ∧ 1 ≤ arguments.defaultLimit ∧
        ∀ current, 1 ≤ current → 1 ≤ arguments.nextLimit current
  | .ended outcome =>
      if 1 < (scopes operations).length then outcome = .raised scopeError
      else
        outcome = .returned state.receipts ∧
          state.cursor = operations.length

/-- A post and an answer for each call. -/
def BatchCall.stepsLeft : BatchCall → Nat
  | .waiting => 2
  | .outstanding => 1
  | .done _ => 0

structure BatchFormed (state : BatchState) : Prop where
  controlled : state.controller.Controlled
  windows : WindowsPositive shared operations state.redis state.clock
  received : Received operations exchanges state.receipts state.cursor
  phase : PhaseFormed shared operations exchanges state

/-- A batch that has made no request. -/
structure QuietBatch (past : List BatchRequest) (state : BatchState) :
    Prop where
  formed : BatchFormed shared operations exchanges state
  nothing : past = []

/-- An upper bound of the steps that a batch still takes. -/
def stepsLeft (state : BatchState) : Nat :=
  let operationsLeft := operations.length - state.cursor
  match state.phase with
  | .entered => 5 * operationsLeft + 2
  | .looping => 5 * operationsLeft + 1
  | .gathering calls =>
      5 * (operationsLeft - calls.length) + 3 +
        (calls.map BatchCall.stepsLeft).sum
  | .publishing _ _ => 5 * operationsLeft + 2
  | .ended _ => 0

end Formed

namespace BatchFormed

variable {shared : Option RedisAimdState} {operations : List SourceOperation}
  {exchanges : Nat → Exchange} {state next : BatchState} {action : BatchAction}

theorem initial {redis : Redis} {clock : Int}
    {controller : AimdConcurrencyController}
    (controlled : controller.Controlled)
    (windows : WindowsPositive shared operations redis clock) :
    BatchFormed shared operations exchanges
      (.initial redis clock controller) := by
  refine ⟨controlled, windows, ⟨rfl, Nat.zero_le _, ?_⟩, trivial⟩
  intro position receipt found
  cases found

theorem atLoop (formed : BatchFormed shared operations exchanges state)
    (looping : state.phase = .looping) : (scopes operations).length ≤ 1 := by
  have phase := formed.phase
  unfold PhaseFormed at phase
  rwa [looping] at phase

theorem atRound (formed : BatchFormed shared operations exchanges state)
    {calls : List BatchCall} (gathering : state.phase = .gathering calls) :
    (scopes operations).length ≤ 1 ∧
      RoundFormed operations exchanges state.cursor state.controller.limit
        calls := by
  have phase := formed.phase
  unfold PhaseFormed at phase
  rwa [gathering] at phase

theorem atPublication
    (formed : BatchFormed shared operations exchanges state)
    {operation : SourceOperation} {arguments : AimdArguments}
    (publishing : state.phase = .publishing operation arguments) :
    (scopes operations).length ≤ 1 ∧ operation ∈ operations ∧
      shared.isSome = true ∧ 1 ≤ arguments.defaultLimit ∧
      ∀ current, 1 ≤ current → 1 ≤ arguments.nextLimit current := by
  have phase := formed.phase
  unfold PhaseFormed at phase
  rwa [publishing] at phase

theorem atEnd (formed : BatchFormed shared operations exchanges state)
    {outcome : Outcome (List SourceReceipt)}
    (ended : state.phase = .ended outcome) :
    if 1 < (scopes operations).length then outcome = .raised scopeError
    else
      outcome = .returned state.receipts ∧
        state.cursor = operations.length := by
  have phase := formed.phase
  unfold PhaseFormed at phase
  rwa [ended] at phase

/-- A round starts with a positive limit. -/
theorem beginRound (formed : BatchFormed shared operations exchanges state)
    (looping : state.phase = .looping) {operation : SourceOperation}
    (found : operations[state.cursor]? = some operation) {limit : Int}
    (positive : 1 ≤ limit) :
    BatchFormed shared operations exchanges
      (state.beginRound operations limit) := by
  obtain ⟨inside, _⟩ := List.getElem?_eq_some_iff.mp found
  obtain ⟨started, bounded, within⟩ := length_round inside positive
  refine ⟨formed.controlled.withLimit positive, formed.windows,
    formed.received, formed.atLoop looping, ?_⟩
  refine ⟨?_, ?_, ?_, ?_⟩
  · rwa [List.length_map]
  · rwa [List.length_map]
  · rwa [List.length_map]
  · intro call receipt located
    rw [List.getElem?_map] at located
    obtain ⟨_, _, same⟩ := Option.map_eq_some_iff.mp located
    cases same

/-- The call at one position moves on. -/
theorem setCall (formed : BatchFormed shared operations exchanges state)
    {calls : List BatchCall} (gathering : state.phase = .gathering calls)
    {call : Nat} {old new : BatchCall} (located : calls[call]? = some old)
    {controller : AimdConcurrencyController}
    (controlled : controller.Controlled)
    (sameLimit : controller.limit = state.controller.limit)
    (answers : ∀ receipt, new = .done receipt →
      Answers operations exchanges (state.cursor + call) receipt) :
    BatchFormed shared operations exchanges
      { state with controller, phase := .gathering (calls.set call new) } := by
  obtain ⟨single, round⟩ := formed.atRound gathering
  refine ⟨controlled, formed.windows, formed.received, single, ?_⟩
  refine ⟨?_, ?_, ?_, ?_⟩
  · rw [List.length_set]
    exact round.started
  · rw [List.length_set]
    exact sameLimit ▸ round.bounded
  · rw [List.length_set]
    exact round.within
  · intro other receipt found
    rw [getElem?_set_slot located] at found
    split at found
    next same =>
      cases found
      rw [same]
      exact answers receipt rfl
    next => exact round.each other receipt found

/-- The decision of a round, with what `shared_state.adjust` makes of it. -/
theorem publish (formed : BatchFormed shared operations exchanges state)
    {operation : SourceOperation} {arguments : AimdArguments}
    (publishing : state.phase = .publishing operation arguments)
    {window : RedisAimdState} (isShared : shared = some window)
    (accepted : 0 < window.ttlSeconds) :
    ∃ redis previous limit,
      window.adjust state.redis state.clock operation.tenantId
          operation.source arguments = some (redis, previous, limit) ∧
        BatchFormed shared operations exchanges { state with
          redis
          controller := { state.controller with limit }
          phase := .looping } := by
  obtain ⟨single, member, _, positive, increases⟩ :=
    formed.atPublication publishing
  obtain ⟨stored, read, atLeast⟩ :=
    formed.windows.getLimit isShared member positive
  have positiveNext := increases _ atLeast
  refine ⟨_, _, _, RedisAimdState.adjust_eq read accepted arguments, ?_⟩
  exact ⟨formed.controlled.withLimit positiveNext,
    formed.windows.write _ positiveNext _, formed.received, single⟩

theorem step (formed : BatchFormed shared operations exchanges state)
    (readable : ∀ position, (exchanges position).Readable)
    (accepted : ∀ window ∈ shared, 0 < window.ttlSeconds)
    (elsewhere : PositiveElsewhere shared operations state action)
    (stepped : batchStep shared operations exchanges state action =
      some next) :
    BatchFormed shared operations exchanges next := by
  cases batchStep_moves stepped with
  | reject _ several =>
      exact ⟨formed.controlled, formed.windows, formed.received,
        (if_pos several).mpr rfl⟩
  | enterLoop _ single =>
      exact ⟨formed.controlled, formed.windows, formed.received, single⟩
  | finish looping exhausted =>
      have single := not_lt.mpr (formed.atLoop looping)
      have beyond := List.getElem?_eq_none_iff.mp exhausted
      exact ⟨formed.controlled, formed.windows, formed.received,
        (if_neg single).mpr
          ⟨rfl, le_antisymm formed.received.within beyond⟩⟩
  | localRound looping found =>
      exact formed.beginRound looping found formed.controlled.limit
  | sharedRound looping found isShared read =>
      obtain ⟨stored, isStored, positive⟩ := formed.windows.getLimit isShared
        (List.mem_of_getElem? found) formed.controlled.limit
      rw [RedisAimdState.getLimit, isStored] at read
      cases read
      exact formed.beginRound looping found positive
  | readFails looping found isShared read =>
      obtain ⟨stored, isStored, _⟩ := formed.windows.getLimit isShared
        (List.mem_of_getElem? found) formed.controlled.limit
      rw [RedisAimdState.getLimit, isStored] at read
      cases read
  | post gathering waiting =>
      apply formed.setCall gathering waiting formed.controlled rfl
      intro receipt same
      cases same
  | answer gathering outstanding found executed =>
      obtain ⟨latencySeconds, succeeded, receipt, returned⟩ :=
        (readable _).returned _
      rw [returned] at executed
      cases executed
      apply formed.setCall gathering outstanding
        (formed.controlled.observe latencySeconds succeeded) rfl
      intro _ same
      cases same
      refine ⟨_, found, ?_⟩
      intro controller
      rw [returned]
  | @collect calls operation receipts gathering found collected =>
      obtain ⟨single, round⟩ := formed.atRound gathering
      refine ⟨formed.controlled.adjust, formed.windows,
        formed.received.append round collected, ?_⟩
      cases shared with
      | none => exact single
      | some window =>
          refine ⟨single, List.mem_of_getElem? found, rfl,
            formed.controlled.limit, ?_⟩
          intro current positive
          exact one_le_nextLimit formed.controlled positive
  | publish publishing isShared adjusted =>
      obtain ⟨_, _, _, same, later⟩ := formed.publish publishing isShared
        (accepted _ isShared)
      cases adjusted.symm.trans same
      exact later
  | publishFails publishing isShared adjusted =>
      obtain ⟨_, _, _, same, _⟩ := formed.publish publishing isShared
        (accepted _ isShared)
      cases adjusted.symm.trans same
  | elsewhere redis millis =>
      exact ⟨formed.controlled, elsewhere, formed.received, formed.phase⟩

/-- A round takes at least one operation, so it lowers the bound. -/
theorem stepsLeft_beginRound {limit : Int}
    (looping : state.phase = .looping)
    (later : BatchFormed shared operations exchanges
      (state.beginRound operations limit)) :
    1 + stepsLeft operations (state.beginRound operations limit) ≤
      stepsLeft operations state := by
  obtain ⟨_, started, _, within, _⟩ := later.atRound rfl
  generalize isTaken : slice operations state.cursor (state.cursor + limit) =
    taken at started within
  have weights : ((taken.map fun _ => BatchCall.waiting).map
      BatchCall.stepsLeft).sum = taken.length * 2 := by
    rw [List.map_const', List.map_replicate, List.sum_replicate]
    rfl
  simp only [stepsLeft, looping, BatchState.beginRound, isTaken, weights]
  rw [List.length_map] at started within ⊢
  dsimp only [BatchState.beginRound] at within
  omega

/-- Every own step lowers the bound, and no other step raises it. -/
theorem stepsLeft_le (later : BatchFormed shared operations exchanges next)
    (stepped : batchStep shared operations exchanges state action =
      some next) :
    (if action.own then 1 else 0) + stepsLeft operations next ≤
      stepsLeft operations state := by
  cases batchStep_moves stepped with
  | reject entered => simp [stepsLeft, entered, BatchAction.own, BatchState.fail]
  | enterLoop entered =>
      simp only [stepsLeft, entered, BatchAction.own, if_true]
      omega
  | finish looping | readFails looping =>
      simp [stepsLeft, looping, BatchAction.own, BatchState.fail]
  | localRound looping found => exact later.stepsLeft_beginRound looping
  | sharedRound looping found isShared read =>
      exact later.stepsLeft_beginRound looping
  | post gathering waiting =>
      have moved := sum_map_set_slot waiting BatchCall.outstanding
        BatchCall.stepsLeft
      simp only [BatchCall.stepsLeft] at moved
      simp only [stepsLeft, gathering, BatchAction.own, List.length_set,
        if_true]
      omega
  | @answer calls call operation controller outcome gathering outstanding =>
      simp only [stepsLeft, gathering, BatchAction.own, if_true]
      cases outcome with
      | returned receipt =>
          have moved := sum_map_set_slot outstanding (BatchCall.done receipt)
            BatchCall.stepsLeft
          simp only [BatchCall.stepsLeft] at moved
          simp only [answeredPhase, List.length_set]
          omega
      | raised | cancelled =>
          simp only [answeredPhase]
          omega
  | collect gathering found collected =>
      simp only [stepsLeft, gathering, BatchAction.own, if_true,
        Nat.sub_add_eq]
      cases shared with
      | none =>
          simp only [collectedPhase]
          omega
      | some window =>
          simp only [collectedPhase]
          omega
  | publish publishing =>
      simp only [stepsLeft, publishing, BatchAction.own, if_true]
      omega
  | publishFails publishing =>
      simp [stepsLeft, publishing, BatchAction.own, BatchState.fail]
  | elsewhere redis millis => simp [stepsLeft, BatchAction.own]

/-- A batch that has not ended can go on, whatever the other clients do. -/
theorem progress (formed : BatchFormed shared operations exchanges state)
    (unended : ∀ outcome, state.phase ≠ .ended outcome) :
    ∃ action, action.own = true ∧
      (batchStep shared operations exchanges state action).isSome = true := by
  cases standing : state.phase with
  | entered =>
      refine ⟨.enter, rfl, ?_⟩
      simp only [batchStep, standing]
      split
      next => rfl
      next => rfl
  | looping =>
      refine ⟨.readLimit, rfl, ?_⟩
      simp only [batchStep, standing]
      cases operations[state.cursor]? with
      | none => rfl
      | some operation =>
          cases shared with
          | none => rfl
          | some window =>
              dsimp only
              split
              next => rfl
              next => rfl
  | gathering calls =>
      obtain ⟨_, round⟩ := formed.atRound standing
      have operationAt : ∀ call < calls.length, ∃ operation,
          operations[state.cursor + call]? = some operation := by
        intro call inside
        have within := round.within
        exact ⟨_, List.getElem?_eq_getElem (by omega)⟩
      by_cases finished : ∀ call ∈ calls, ∃ receipt, call = .done receipt
      · obtain ⟨receipts, collected⟩ := exists_mapM_of_done finished
        obtain ⟨operation, found⟩ := operationAt 0 round.started
        rw [Nat.add_zero] at found
        refine ⟨.collect, rfl, ?_⟩
        simp [batchStep, standing, found, collected]
      · simp only [not_forall, not_exists] at finished
        obtain ⟨call, member, unfinished⟩ := finished
        obtain ⟨position, located⟩ := List.getElem?_of_mem member
        cases call with
        | waiting =>
            refine ⟨.post position, rfl, ?_⟩
            simp [batchStep, standing, located]
        | outstanding =>
            obtain ⟨inside, _⟩ := List.getElem?_eq_some_iff.mp located
            obtain ⟨operation, found⟩ := operationAt position inside
            refine ⟨.answer position, rfl, ?_⟩
            simp [batchStep, standing, found, located]
        | done receipt => exact absurd rfl (unfinished receipt)
  | publishing operation arguments =>
      obtain ⟨_, _, isShared, _⟩ := formed.atPublication standing
      refine ⟨.publish, rfl, ?_⟩
      cases shared with
      | none => cases isShared
      | some window =>
          simp only [batchStep, standing]
          split
          next => rfl
          next => rfl
  | ended outcome => exact absurd standing (unended outcome)

/-- It stops only when it has ended. -/
theorem ended_of_stuck (formed : BatchFormed shared operations exchanges state)
    (stuck : ∀ action, action.own = true →
      batchStep shared operations exchanges state action = none) :
    ∃ outcome, state.phase = .ended outcome := by
  by_contra unended
  obtain ⟨action, own, enabled⟩ := formed.progress fun outcome ended =>
    unended ⟨outcome, ended⟩
  rw [stuck action own] at enabled
  cases enabled

/-- Every run of a batch, whatever keeps the windows of its scopes positive. -/
theorem run {allowed : BatchState → BatchAction → Prop}
    (positive : ∀ {before : BatchState} {action : BatchAction},
      BatchFormed shared operations exchanges before → allowed before action →
      PositiveElsewhere shared operations before action)
    (readable : ∀ position, (exchanges position).Readable)
    (accepted : ∀ window ∈ shared, 0 < window.ttlSeconds)
    {redis : Redis} {clock : Int} {controller : AimdConcurrencyController}
    (controlled : controller.Controlled)
    (windows : WindowsPositive shared operations redis clock)
    {actions : List BatchAction}
    (execution : Runs (batchStep shared operations exchanges) allowed
      (BatchState.initial redis clock controller) actions state) :
    BatchFormed shared operations exchanges state ∧
      actions.countP BatchAction.own ≤ 5 * operations.length + 2 := by
  have initially : BatchFormed shared operations exchanges
      (BatchState.initial redis clock controller) :=
    .initial controlled windows
  have preserved : ∀ {before : BatchState} {action : BatchAction}
      {after : BatchState}, BatchFormed shared operations exchanges before →
      allowed before action →
      batchStep shared operations exchanges before action = some after →
      BatchFormed shared operations exchanges after :=
    fun formed permitted stepped =>
      formed.step readable accepted (positive formed permitted) stepped
  refine ⟨execution.invariant preserved initially, ?_⟩
  have counted := execution.countP_add_le (stepsLeft operations)
    BatchAction.own
    (fun formed permitted stepped =>
      ⟨preserved formed permitted stepped,
        (preserved formed permitted stepped).stepsLeft_le stepped⟩) initially
  have bound : stepsLeft operations
      (BatchState.initial redis clock controller) =
      5 * operations.length + 2 := rfl
  omega

/-- Only a batch over one scope makes requests. -/
theorem requests_of_several
    (formed : BatchFormed shared operations exchanges state)
    (several : 1 < (scopes operations).length) (action : BatchAction) :
    batchRequests shared operations state action = [] := by
  have phase := formed.phase
  unfold PhaseFormed at phase
  cases standing : state.phase with
  | entered | ended => cases action <;> simp [batchRequests, standing]
  | looping | gathering | publishing =>
      rw [standing] at phase
      first
        | exact absurd several (not_lt.mpr phase)
        | exact absurd several (not_lt.mpr phase.1)

/-- The calls of a round that are outstanding. -/
theorem outstanding_le (formed : BatchFormed shared operations exchanges state) :
    (state.outstanding : Int) ≤ state.controller.limit := by
  unfold BatchState.outstanding
  split
  next calls gathering =>
    obtain ⟨_, round⟩ := formed.atRound gathering
    have counted := List.countP_le_length (l := calls)
      (p := fun call => decide (call = .outstanding))
    have bounded := round.bounded
    omega
  next =>
    have positive := formed.controlled.limit
    omega

end BatchFormed

theorem QuietBatch.step {shared : Option RedisAimdState}
    {operations : List SourceOperation} {exchanges : Nat → Exchange}
    {past : List BatchRequest} {state next : BatchState} {action : BatchAction}
    (quiet : QuietBatch shared operations exchanges past state)
    (readable : ∀ position, (exchanges position).Readable)
    (accepted : ∀ window ∈ shared, 0 < window.ttlSeconds)
    (several : 1 < (scopes operations).length)
    (elsewhere : PositiveElsewhere shared operations state action)
    (stepped : batchStep shared operations exchanges state action =
      some next) :
    QuietBatch shared operations exchanges
      (past ++ batchRequests shared operations state action) next := by
  refine ⟨quiet.formed.step readable accepted elsewhere stepped, ?_⟩
  rw [quiet.nothing, quiet.formed.requests_of_several several]
  rfl

/-- Every run of `execute_batch` takes a bounded number of its own steps, and
cannot stop before the batch has ended.  A batch over several scopes raises and
requests nothing.  A batch over one scope never has more operations
outstanding than its limit, which stays positive, and ends with one receipt for
each operation, in order. -/
theorem batch_execution_completes (shared : Option RedisAimdState)
    (operations : List SourceOperation) (exchanges : Nat → Exchange)
    (controller : AimdConcurrencyController) (redis : Redis) (clock : Int)
    (readable : ∀ position, (exchanges position).Readable)
    (controlled : controller.Controlled)
    (accepted : ∀ window ∈ shared, 0 < window.ttlSeconds)
    (windows : WindowsPositive shared operations redis clock)
    {actions : List BatchAction} {state : BatchState}
    (execution : Runs (batchStep shared operations exchanges)
      (PositiveElsewhere shared operations)
      (BatchState.initial redis clock controller) actions state) :
    actions.countP BatchAction.own ≤ 5 * operations.length + 2 ∧
      ((∀ action, action.own = true →
          batchStep shared operations exchanges state action = none) →
        ∃ outcome, state.phase = .ended outcome) ∧
      (1 < (scopes operations).length →
        history (batchStep shared operations exchanges)
            (batchRequests shared operations)
            (BatchState.initial redis clock controller) actions = [] ∧
          ∀ outcome, state.phase = .ended outcome →
            outcome = .raised scopeError) ∧
      ((scopes operations).length ≤ 1 →
        1 ≤ state.controller.limit ∧
          (state.outstanding : Int) ≤ state.controller.limit ∧
          ∀ outcome, state.phase = .ended outcome →
            ∃ receipts, outcome = .returned receipts ∧
              receipts.length = operations.length ∧
              ∀ position operation,
                operations[position]? = some operation →
                ∃ receipt, receipts[position]? = some receipt ∧
                  ∀ observing, (clientExecute operation (exchanges position)
                    observing).2 = .returned receipt) := by
  have initially : BatchFormed shared operations exchanges
      (BatchState.initial redis clock controller) :=
    .initial controlled windows
  obtain ⟨formed, counted⟩ := BatchFormed.run (fun _ permitted => permitted)
    readable accepted controlled windows execution
  refine ⟨counted, formed.ended_of_stuck, ?_, ?_⟩
  · intro several
    constructor
    · have quiet : QuietBatch shared operations exchanges
          (history (batchStep shared operations exchanges)
            (batchRequests shared operations)
            (BatchState.initial redis clock controller) actions) state := by
        exact execution.invariant_with_history
          (fun quiet elsewhere stepped => QuietBatch.step quiet readable
            accepted several elsewhere stepped) (QuietBatch.mk initially rfl)
      exact quiet.nothing
    · intro outcome ended
      have atEnd := formed.atEnd ended
      rwa [if_pos several] at atEnd
  · intro single
    refine ⟨formed.controlled.limit, formed.outstanding_le, ?_⟩
    intro outcome ended
    have atEnd := formed.atEnd ended
    rw [if_neg (not_lt.mpr single)] at atEnd
    obtain ⟨isReturned, complete⟩ := atEnd
    refine ⟨state.receipts, isReturned,
      formed.received.length.trans complete, ?_⟩
    intro position operation found
    exact formed.received.answered complete found

/-! Six operations with a limit of four: the first four fail, the limit falls
to two, and the other two succeed.  Another client has set the window that the
second round reads to three. -/

def batchOperation (taskId : String) : SourceOperation :=
  { taskId, tenantId := "t", source := "telemetry", subjectKeyHash := "h"
    kind := "access" }

def sixOperations : List SourceOperation :=
  ["0", "1", "2", "3", "4", "5"].map batchOperation

def fourFailures (position : Nat) : Exchange :=
  .answered (if position < 4 then 503 else 200) .empty (1 / 10)

def batchController : AimdConcurrencyController :=
  { limit := 4, minimum := 1, maximum := 64, targetP95Seconds := 8 / 10
    additiveStep := 1, decreaseRatio := 1 / 2, latencies := [], failures := 0 }

def batchWindow : RedisAimdState :=
  .create "privacy:aimd" 900

private def widened : Redis :=
  Redis.empty.write (batchWindow.key "t" "telemetry")
    (some { value := .number 3, expiresAt := 900000 })

private def sixCalls : List BatchAction :=
  [.enter, .readLimit, .post 0, .post 1, .answer 1, .post 2, .post 3,
    .answer 3, .answer 2, .answer 0, .collect, .publish, .elsewhere widened 10,
    .readLimit, .post 1, .post 0, .answer 0, .answer 1, .collect, .publish,
    .readLimit]

theorem six_operations_take_two_rounds :
    ∃ state receipts, Runs
        (batchStep (some batchWindow) sixOperations fourFailures)
        (PositiveElsewhere (some batchWindow) sixOperations)
        (BatchState.initial .empty 0 batchController) sixCalls state ∧
      state.phase = .ended (.returned receipts) ∧
      receipts.length = sixOperations.length := by
  have evaluated : (run (batchStep (some batchWindow) sixOperations
      fourFailures) (PositiveElsewhere (some batchWindow) sixOperations)
      (BatchState.initial .empty 0 batchController) sixCalls).map
        (fun state => (state.controller.limit,
          decide (state.phase = .ended (.returned state.receipts)))) =
      some (4, true) := by
    decide +kernel
  obtain ⟨state, result, columns⟩ := Option.map_eq_some_iff.mp evaluated
  rw [Prod.mk.injEq, decide_eq_true_eq] at columns
  have execution := runs_of_run result
  obtain ⟨_, _, _, complete⟩ := batch_execution_completes (some batchWindow)
    sixOperations fourFailures batchController .empty 0 (fun _ => trivial)
    ⟨by decide, by decide, by decide, by decide⟩
    (fun window isShared => by cases isShared; decide) (by decide) execution
  obtain ⟨_, _, ending⟩ := complete (by decide)
  obtain ⟨receipts, isReturned, length, _⟩ := ending _ columns.2
  cases isReturned
  exact ⟨state, state.receipts, execution, columns.2, length⟩

end FleetPrivacy
