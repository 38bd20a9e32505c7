import FleetPrivacy.BatchExecution
import FleetPrivacy.Percentile

/-!
# Shared and local control of a batch

The AIMD step exists in Python and in Lua.  A batch whose window is used by no
other client takes the same rounds with the same limits as one without a shared
state, whenever the window expires: the stored window is always the limit that
the local controller has, or had before its last step.

Both kinds of runs follow one description of the rounds, in which the answers
of a round come in the order of the operations.
-/

namespace FleetPrivacy

open Transition

inductive BatchEvent where
  /-- The limit of the controller changes. -/
  | limit (limit : Int)
  | round (operations : List SourceOperation)
  deriving DecidableEq

def limitChange (before after : Int) : List BatchEvent :=
  if after = before then [] else [.limit after]

@[simp] theorem limitChange_self (limit : Int) : limitChange limit limit = [] :=
  if_pos rfl

/-- The limits that the controller passes through, and the rounds. -/
def batchEvents (shared : Option RedisAimdState)
    (operations : List SourceOperation) (exchanges : Nat → Exchange)
    (state : BatchState) (action : BatchAction) : List BatchEvent :=
  match batchStep shared operations exchanges state action with
  | none => []
  | some next =>
      limitChange state.controller.limit next.controller.limit ++
        match action, next.phase with
        | .readLimit, .gathering _ =>
            [.round (slice operations state.cursor
              (state.cursor + next.controller.limit))]
        | _, _ => []

/-- The window key is left to this batch; it may expire at any time. -/
def KeyUntouched (shared : Option RedisAimdState)
    (operations : List SourceOperation) (state : BatchState) :
    BatchAction → Prop
  | .elsewhere redis _ =>
      ∀ window ∈ shared, ∀ operation ∈ operations,
        redis.entries (window.key operation.tenantId operation.source) =
            state.redis.entries
              (window.key operation.tenantId operation.source) ∨
          redis.entries (window.key operation.tenantId operation.source) = none
  | _ => True

instance (shared : Option RedisAimdState) (operations : List SourceOperation)
    (state : BatchState) (action : BatchAction) :
    Decidable (KeyUntouched shared operations state action) :=
  match action with
  | .elsewhere redis _ =>
      inferInstanceAs (Decidable (∀ window ∈ shared, ∀ operation ∈ operations,
        redis.entries (window.key operation.tenantId operation.source) =
            state.redis.entries
              (window.key operation.tenantId operation.source) ∨
          redis.entries (window.key operation.tenantId operation.source) =
            none))
  | .enter | .readLimit | .post _ | .answer _ | .collect | .publish =>
      .isTrue trivial

/-! ## The order of the answers -/

/-- The decision depends on the latencies of a round, not on their order. -/
theorem adjust_perm (controller : AimdConcurrencyController)
    {latencies : List Rat} (same : latencies.Perm controller.latencies) :
    ({ controller with latencies } : AimdConcurrencyController).adjust =
      controller.adjust := by
  simp only [AimdConcurrencyController.adjust, same.length_eq,
    percentile_perm same]

/-- What the controller learns from an exchange. -/
def Exchange.latencies : Exchange → List Rat
  | .answered _ _ latencySeconds => [latencySeconds]
  | .failed _ | .cancelled => []

def Exchange.failures : Exchange → Nat
  | .answered statusCode _ _ => if isSuccess statusCode then 0 else 1
  | .failed _ | .cancelled => 0

theorem clientExecute_observes (operation : SourceOperation)
    (exchange : Exchange) (controller : AimdConcurrencyController) :
    (clientExecute operation exchange controller).1 = { controller with
      latencies := controller.latencies ++ exchange.latencies
      failures := controller.failures + exchange.failures } := by
  cases exchange with
  | answered => rfl
  | failed | cancelled =>
      simp [clientExecute, Exchange.latencies, Exchange.failures]

section Observed

variable (exchanges : Nat → Exchange)

/-- A controller after the answers to the operations at some positions. -/
def observedAt (controller : AimdConcurrencyController)
    (positions : List Nat) : AimdConcurrencyController :=
  { controller with
    latencies := controller.latencies ++
      positions.flatMap fun position => (exchanges position).latencies
    failures := controller.failures +
      (positions.map fun position => (exchanges position).failures).sum }

/-- The positions of a round that have not been answered. -/
def unanswered : Nat → List BatchCall → List Nat
  | _, [] => []
  | position, .done _ :: calls => unanswered (position + 1) calls
  | position, _ :: calls => position :: unanswered (position + 1) calls

@[simp] theorem observedAt_nil (controller : AimdConcurrencyController) :
    observedAt exchanges controller [] = controller := by
  simp [observedAt]

/-- One more answer, of any of the positions left. -/
theorem observedAt_adjust_perm (controller : AimdConcurrencyController)
    (operation : SourceOperation) {position : Nat} {later all : List Nat}
    (same : all.Perm (position :: later)) :
    (observedAt exchanges (clientExecute operation (exchanges position)
      controller).1 later).adjust =
      (observedAt exchanges controller all).adjust := by
  have latencies : ((controller.latencies ++ (exchanges position).latencies) ++
      later.flatMap fun position => (exchanges position).latencies).Perm
      (controller.latencies ++
        all.flatMap fun position => (exchanges position).latencies) := by
    have merged := (same.flatMap_right
      fun position => (exchanges position).latencies).symm
    rw [List.flatMap_cons] at merged
    rw [List.append_assoc]
    exact merged.append_left _
  have failures : controller.failures + (exchanges position).failures +
      (later.map fun position => (exchanges position).failures).sum =
      controller.failures +
        (all.map fun position => (exchanges position).failures).sum := by
    rw [(same.map _).sum_eq, List.map_cons, List.sum_cons, Nat.add_assoc]
  rw [clientExecute_observes]
  refine Eq.trans ?_ (adjust_perm (observedAt exchanges controller all)
    latencies)
  simp only [observedAt, failures]

end Observed

section Unanswered

theorem unanswered_waiting {α : Type} (position : Nat) (items : List α) :
    unanswered position (items.map fun _ => .waiting) =
      List.range' position items.length := by
  induction items generalizing position with
  | nil => rfl
  | cons item items induction =>
      rw [List.map_cons, unanswered, induction, List.length_cons,
        List.range'_succ]
      intro receipt same
      cases same

theorem unanswered_done (position : Nat) (receipts : List SourceReceipt) :
    unanswered position (receipts.map BatchCall.done) = [] := by
  induction receipts generalizing position with
  | nil => rfl
  | cons receipt receipts induction => exact induction (position + 1)

theorem unanswered_post {calls : List BatchCall} {call : Nat}
    (waiting : calls[call]? = some .waiting) (position : Nat) :
    unanswered position (calls.set call .outstanding) =
      unanswered position calls := by
  induction calls generalizing call position with
  | nil => cases waiting
  | cons first calls induction =>
      cases call with
      | zero =>
          cases waiting
          rfl
      | succ call =>
          have tail := induction waiting (position + 1)
          cases first with
          | done receipt => exact tail
          | waiting | outstanding => exact congrArg (List.cons position) tail

theorem unanswered_answer {calls : List BatchCall} {call : Nat}
    (outstanding : calls[call]? = some .outstanding) (position : Nat)
    (receipt : SourceReceipt) :
    (unanswered position calls).Perm ((position + call) ::
      unanswered position (calls.set call (.done receipt))) := by
  induction calls generalizing call position with
  | nil => cases outstanding
  | cons first calls induction =>
      cases call with
      | zero =>
          cases outstanding
          exact List.Perm.refl _
      | succ call =>
          have tail := induction outstanding (position + 1)
          rw [Nat.add_right_comm, Nat.add_assoc] at tail
          cases first with
          | done receipt => exact tail
          | waiting | outstanding =>
              exact (tail.cons position).trans (List.Perm.swap _ _ _)

end Unanswered

/-! ## The rounds of a batch -/

section Rounds

variable (operations : List SourceOperation) (exchanges : Nat → Exchange)

/-- The rounds from a position on, and the limits between them. -/
inductive Rounds :
    Nat → AimdConcurrencyController → List BatchEvent → Prop where
  | finish {cursor : Nat} {controller : AimdConcurrencyController}
      (exhausted : operations[cursor]? = none) : Rounds cursor controller []
  | round {cursor : Nat} {controller next : AimdConcurrencyController}
      {operation : SourceOperation} {taken : List SourceOperation}
      {events : List BatchEvent}
      (found : operations[cursor]? = some operation)
      (isTaken : slice operations cursor (cursor + controller.limit) = taken)
      (adjusted : (observedAt exchanges controller
        (List.range' cursor taken.length)).adjust.1 = next)
      (later : Rounds (cursor + taken.length) next events) :
      Rounds cursor controller
        (.round taken :: (limitChange controller.limit next.limit ++ events))

theorem Rounds.deterministic {cursor : Nat}
    {controller : AimdConcurrencyController} {left right : List BatchEvent}
    (first : Rounds operations exchanges cursor controller left)
    (second : Rounds operations exchanges cursor controller right) :
    left = right := by
  induction first generalizing right with
  | finish exhausted =>
      cases second with
      | finish => rfl
      | round found => cases exhausted.symm.trans found
  | round found isTaken adjusted later induction =>
      cases second with
      | finish exhausted => cases exhausted.symm.trans found
      | round _ isTaken' adjusted' later' =>
          cases isTaken.symm.trans isTaken'
          cases adjusted.symm.trans adjusted'
          rw [induction later']

/-- The events that are still to come. -/
def Pending (state : BatchState) (rest : List BatchEvent) : Prop :=
  match state.phase with
  | .entered | .looping | .publishing _ _ =>
      Rounds operations exchanges state.cursor state.controller rest
  | .gathering calls =>
      ∃ next events,
        (observedAt exchanges state.controller
          (unanswered state.cursor calls)).adjust.1 = next ∧
        Rounds operations exchanges (state.cursor + calls.length) next
          events ∧
        rest = limitChange state.controller.limit next.limit ++ events
  | .ended _ => rest = []

end Rounds

/-! ## The invariant -/

/-- The limit that the stored window has to agree with. -/
def BatchState.windowLimit (state : BatchState) : Int :=
  match state.phase with
  | .publishing _ arguments => arguments.defaultLimit
  | _ => state.controller.limit

/-- The script will take the step that the controller has taken; and a round
with an answer has a sample. -/
def StepAgrees (state : BatchState) : Prop :=
  match state.phase with
  | .publishing _ arguments =>
      state.controller.limit = arguments.nextLimit arguments.defaultLimit
  | .gathering calls =>
      (∃ receipt, BatchCall.done receipt ∈ calls) →
        state.controller.latencies ≠ []
  | _ => True

section Follows

variable (shared : Option RedisAimdState) (operations : List SourceOperation)
  (exchanges : Nat → Exchange)

/-- The stored window is the one that the batch expects. -/
def WindowAgrees (redis : Redis) (now limit : Int) : Prop :=
  ∀ window ∈ shared, ∀ operation ∈ operations,
    ∀ value ∈ redis.read now (window.key operation.tenantId operation.source),
      value = .number limit

/-- A batch that follows the rounds of its controller. -/
structure BatchFollows (start : AimdConcurrencyController)
    (past : List BatchEvent) (state : BatchState) : Prop where
  formed : BatchFormed shared operations exchanges state
  window : WindowAgrees shared operations state.redis state.clock
    state.windowLimit
  agrees : StepAgrees state
  rounds : ∀ rest, Pending operations exchanges state rest →
    Rounds operations exchanges 0 start (past ++ rest)

end Follows

section Step

variable {shared : Option RedisAimdState} {operations : List SourceOperation}
  {exchanges : Nat → Exchange} {start : AimdConcurrencyController}
  {past : List BatchEvent} {state next : BatchState} {action : BatchAction}

theorem WindowAgrees.get {redis : Redis} {now limit : Int}
    (agrees : WindowAgrees shared operations redis now limit)
    {window : RedisAimdState} (isShared : shared = some window)
    {operation : SourceOperation} (member : operation ∈ operations) :
    ∃ stored, redis.get now (window.key operation.tenantId operation.source) =
        some stored ∧ stored.getD limit = limit := by
  unfold Redis.get
  cases found : redis.read now
      (window.key operation.tenantId operation.source) with
  | none => exact ⟨none, rfl, rfl⟩
  | some value =>
      rw [agrees window isShared operation member value found]
      exact ⟨some limit, rfl, rfl⟩

/-- The operations of one scope have one window. -/
theorem scope_eq_of_single (single : (scopes operations).length ≤ 1)
    {first second : SourceOperation} (firstMember : first ∈ operations)
    (secondMember : second ∈ operations) :
    first.tenantId = second.tenantId ∧ first.source = second.source := by
  have inScopes : ∀ operation ∈ operations,
      (operation.tenantId, operation.source) ∈ scopes operations := by
    intro operation member
    exact List.mem_dedup.mpr (List.mem_map_of_mem member)
  have left := inScopes first firstMember
  have right := inScopes second secondMember
  generalize scopes operations = all at single left right
  match all, single with
  | [scope], _ =>
      rw [List.mem_singleton] at left right
      exact Prod.mk.injEq .. ▸ left.trans right.symm

theorem read_of_untouched {redis before : Redis} {key : String}
    (untouched : redis.entries key = before.entries key ∨
      redis.entries key = none)
    {now : Int} {millis : Nat} {value : RedisValue}
    (found : redis.read (now + millis) key = some value) :
    before.read now key = some value := by
  apply Redis.read_earlier (by omega : now ≤ now + millis)
  unfold Redis.read at found ⊢
  rcases untouched with same | expired
  · rwa [← same]
  · rw [expired] at found
    cases found

/-- Other clients run; the key may have expired. -/
theorem BatchFormed.positiveElsewhere
    (formed : BatchFormed shared operations exchanges state)
    (untouched : KeyUntouched shared operations state action) :
    PositiveElsewhere shared operations state action := by
  cases action with
  | elsewhere redis millis =>
      intro window isShared operation member value found
      apply formed.windows window isShared operation member value
      exact read_of_untouched (untouched window isShared operation member) found
  | enter | readLimit | post | answer | collect | publish => exact trivial

/-- A positive limit is a positive window. -/
theorem WindowAgrees.positive {redis : Redis} {now limit : Int}
    (agrees : WindowAgrees shared operations redis now limit)
    (positive : 1 ≤ limit) : WindowsPositive shared operations redis now := by
  intro window isShared operation member value found
  rw [agrees window isShared operation member value found]
  exact positive

namespace BatchFollows

/-- A step that keeps the controller and what is to come. -/
theorem quietly (follows : BatchFollows shared operations exchanges start past
      state)
    (formed : BatchFormed shared operations exchanges next)
    (window : WindowAgrees shared operations next.redis next.clock
      next.windowLimit)
    (agrees : StepAgrees next)
    (pending : ∀ rest, Pending operations exchanges next rest →
      Pending operations exchanges state rest) :
    BatchFollows shared operations exchanges start past next := by
  refine ⟨formed, window, agrees, ?_⟩
  intro rest later
  exact follows.rounds rest (pending rest later)

/-- A round with the limit of the controller. -/
theorem beginRound (follows : BatchFollows shared operations exchanges start
      past state)
    (looping : state.phase = .looping) {operation : SourceOperation}
    (found : operations[state.cursor]? = some operation)
    (formed : BatchFormed shared operations exchanges
      (state.beginRound operations state.controller.limit)) :
    BatchFollows shared operations exchanges start
      (past ++ [.round (slice operations state.cursor
        (state.cursor + state.controller.limit))])
      (state.beginRound operations state.controller.limit) := by
  refine ⟨formed, ?_, ?_, ?_⟩
  · have window := follows.window
    unfold BatchState.windowLimit at window
    rwa [looping] at window
  · intro ⟨receipt, member⟩
    obtain ⟨_, _, same⟩ := List.mem_map.mp member
    cases same
  · intro rest pending
    obtain ⟨adjusted, events, isAdjusted, later, rfl⟩ := pending
    rw [unanswered_waiting] at isAdjusted
    rw [List.length_map] at later
    rw [List.append_assoc]
    apply follows.rounds
    unfold Pending
    rw [looping]
    exact .round found rfl isAdjusted later

/-- One call of the round is posted. -/
theorem post (follows : BatchFollows shared operations exchanges start past
      state)
    {calls : List BatchCall} (gathering : state.phase = .gathering calls)
    {call : Nat} (waiting : calls[call]? = some .waiting)
    (formed : BatchFormed shared operations exchanges
      { state with phase := .gathering (calls.set call .outstanding) }) :
    BatchFollows shared operations exchanges start past
      { state with phase := .gathering (calls.set call .outstanding) } := by
  have window := follows.window
  unfold BatchState.windowLimit at window
  rw [gathering] at window
  refine follows.quietly formed window ?_ ?_
  · intro ⟨receipt, member⟩
    have agrees := follows.agrees
    unfold StepAgrees at agrees
    rw [gathering] at agrees
    rcases List.mem_or_eq_of_mem_set member with old | new
    · exact agrees ⟨receipt, old⟩
    · cases new
  · intro rest pending
    unfold Pending at pending ⊢
    rw [gathering]
    dsimp only at pending ⊢
    rwa [unanswered_post waiting, List.length_set] at pending

/-- One call of the round is answered. -/
theorem answer (follows : BatchFollows shared operations exchanges start past
      state)
    {calls : List BatchCall} (gathering : state.phase = .gathering calls)
    {call : Nat} (outstanding : calls[call]? = some .outstanding)
    {operation : SourceOperation} {latencySeconds : Rat} {succeeded : Bool}
    {receipt : SourceReceipt}
    (returned : ∀ controller, clientExecute operation
      (exchanges (state.cursor + call)) controller =
        (controller.observe latencySeconds succeeded, .returned receipt))
    (formed : BatchFormed shared operations exchanges { state with
      controller := state.controller.observe latencySeconds succeeded
      phase := .gathering (calls.set call (.done receipt)) }) :
    BatchFollows shared operations exchanges start past { state with
      controller := state.controller.observe latencySeconds succeeded
      phase := .gathering (calls.set call (.done receipt)) } := by
  have window := follows.window
  unfold BatchState.windowLimit at window
  rw [gathering] at window
  refine follows.quietly formed window ?_ ?_
  · intro _ empty
    exact List.append_ne_nil_of_right_ne_nil _ (List.cons_ne_nil _ _) empty
  · intro rest pending
    unfold Pending at pending ⊢
    rw [gathering]
    dsimp only at pending ⊢
    rw [List.length_set] at pending
    have observed := congrArg Prod.fst (returned state.controller)
    have same := observedAt_adjust_perm exchanges state.controller operation
      (unanswered_answer outstanding state.cursor receipt)
    rw [observed] at same
    rwa [same] at pending

/-- The round ends: the controller takes its step. -/
theorem collect (follows : BatchFollows shared operations exchanges start past
      state)
    {calls : List BatchCall} (gathering : state.phase = .gathering calls)
    {operation : SourceOperation} {receipts : List SourceReceipt}
    (collected : calls.mapM BatchCall.receipt? = some receipts)
    (formed : BatchFormed shared operations exchanges { state with
      controller := state.controller.adjust.1
      cursor := state.cursor + calls.length
      receipts := state.receipts ++ receipts
      phase := collectedPhase shared operation state.controller }) :
    BatchFollows shared operations exchanges start
      (past ++ limitChange state.controller.limit
        state.controller.adjust.1.limit)
      { state with
        controller := state.controller.adjust.1
        cursor := state.cursor + calls.length
        receipts := state.receipts ++ receipts
        phase := collectedPhase shared operation state.controller } := by
  have allDone := receipts_of_mapM collected
  have window := follows.window
  unfold BatchState.windowLimit at window
  rw [gathering] at window
  refine ⟨formed, ?_, ?_, ?_⟩
  · cases shared with
    | none =>
        intro other isShared
        cases isShared
    | some shared => exact window
  · cases shared with
    | none => exact trivial
    | some shared =>
        have agrees := follows.agrees
        unfold StepAgrees at agrees
        rw [gathering] at agrees
        have sampled : state.controller.latencies ≠ [] := by
          apply agrees
          obtain ⟨_, round⟩ := follows.formed.atRound gathering
          have started := round.started
          rw [allDone, List.length_map] at started
          rw [allDone]
          exact ⟨_, List.mem_map_of_mem (List.getElem_mem started)⟩
        have limit := adjust_limit state.controller
        rwa [if_neg sampled] at limit
  · intro rest pending
    rw [List.append_assoc]
    apply follows.rounds
    unfold Pending
    rw [gathering]
    refine ⟨state.controller.adjust.1, rest, ?_, ?_, rfl⟩
    · rw [allDone, unanswered_done, observedAt_nil]
    · cases shared with
      | none => exact pending
      | some shared => exact pending

/-- The script takes the same step. -/
theorem publish (follows : BatchFollows shared operations exchanges start past
      state)
    (single : (scopes operations).length ≤ 1)
    {operation : SourceOperation} {arguments : AimdArguments}
    (publishing : state.phase = .publishing operation arguments)
    {window : RedisAimdState} (isShared : shared = some window)
    (accepted : 0 < window.ttlSeconds) {redis : Redis} {previous limit : Int}
    (adjusted : window.adjust state.redis state.clock operation.tenantId
      operation.source arguments = some (redis, previous, limit))
    (formed : BatchFormed shared operations exchanges { state with
      redis
      controller := { state.controller with limit }
      phase := .looping }) :
    limit = state.controller.limit ∧
      BatchFollows shared operations exchanges start past { state with
        redis
        controller := { state.controller with limit }
        phase := .looping } := by
  obtain ⟨_, member, _⟩ := follows.formed.atPublication publishing
  have windowAgrees := follows.window
  have agrees := follows.agrees
  unfold BatchState.windowLimit at windowAgrees
  unfold StepAgrees at agrees
  rw [publishing] at windowAgrees agrees
  obtain ⟨stored, read, isDefault⟩ := windowAgrees.get isShared member
  rw [RedisAimdState.adjust_eq read accepted, isDefault, ← agrees] at adjusted
  cases adjusted
  refine ⟨rfl, follows.quietly formed ?_ trivial ?_⟩
  · intro other alsoShared second secondMember value found
    cases isShared.symm.trans alsoShared
    obtain ⟨tenant, source⟩ := scope_eq_of_single single secondMember member
    rw [tenant, source] at found
    exact Redis.read_write_self found
  · intro rest pending
    unfold Pending
    rw [publishing]
    exact pending

theorem step (follows : BatchFollows shared operations exchanges start past
      state)
    (single : (scopes operations).length ≤ 1)
    (readable : ∀ position, (exchanges position).Readable)
    (accepted : ∀ window ∈ shared, 0 < window.ttlSeconds)
    (untouched : KeyUntouched shared operations state action)
    (stepped : batchStep shared operations exchanges state action =
      some next) :
    BatchFollows shared operations exchanges start
      (past ++ batchEvents shared operations exchanges state action) next := by
  have formed := follows.formed.step readable accepted
    (follows.formed.positiveElsewhere untouched) stepped
  have unfailed : ∀ message, next.phase ≠ .ended (.raised message) := by
    intro message failed
    have ended := formed.atEnd failed
    rw [if_neg (not_lt.mpr single)] at ended
    cases ended.1
  simp only [batchEvents, stepped]
  cases batchStep_moves stepped with
  | reject _ several => exact absurd several (not_lt.mpr single)
  | enterLoop entered =>
      simp only [limitChange_self, List.append_nil]
      have window := follows.window
      unfold BatchState.windowLimit at window
      rw [entered] at window
      refine follows.quietly formed window trivial ?_
      intro rest pending
      unfold Pending
      rw [entered]
      exact pending
  | finish looping exhausted =>
      simp only [limitChange_self, List.append_nil]
      have window := follows.window
      unfold BatchState.windowLimit at window
      rw [looping] at window
      refine follows.quietly formed window trivial ?_
      intro rest pending
      cases pending
      unfold Pending
      rw [looping]
      exact .finish exhausted
  | localRound looping found =>
      have begun := follows.beginRound looping found formed
      simpa [BatchState.beginRound] using begun
  | sharedRound looping found isShared read =>
      have window := follows.window
      unfold BatchState.windowLimit at window
      rw [looping] at window
      obtain ⟨stored, isStored, isLimit⟩ :=
        window.get isShared (List.mem_of_getElem? found)
      rw [RedisAimdState.getLimit, isStored, Option.map_some, isLimit] at read
      cases read
      have begun := follows.beginRound looping found formed
      simpa [BatchState.beginRound] using begun
  | readFails => exact absurd rfl (unfailed redisError)
  | post gathering waiting =>
      simp only [limitChange_self, List.append_nil]
      exact follows.post gathering waiting formed
  | answer gathering outstanding found executed =>
      obtain ⟨latencySeconds, succeeded, receipt, returned⟩ :=
        (readable _).returned _
      rw [returned] at executed
      cases executed
      have answered := follows.answer gathering outstanding returned formed
      simpa [AimdConcurrencyController.observe, answeredPhase] using answered
  | collect gathering found collected =>
      have adjusted := follows.collect gathering collected formed
      simpa using adjusted
  | publish publishing isShared adjusted =>
      obtain ⟨same, published⟩ := follows.publish single publishing isShared
        (accepted _ isShared) adjusted formed
      simpa [same] using published
  | publishFails => exact absurd rfl (unfailed redisError)
  | elsewhere redis millis =>
      simp only [limitChange_self, List.append_nil]
      refine follows.quietly formed ?_ follows.agrees fun _ pending => pending
      intro window isShared operation member value found
      apply follows.window window isShared operation member value
      exact read_of_untouched (untouched window isShared operation member) found

theorem initial {redis : Redis} {clock : Int}
    (controlled : start.Controlled)
    (window : WindowAgrees shared operations redis clock start.limit) :
    BatchFollows shared operations exchanges start []
      (.initial redis clock start) := by
  refine ⟨.initial controlled ?_, window, trivial, fun rest pending => pending⟩
  exact window.positive controlled.limit

/-- A batch that has ended has gone through its rounds. -/
theorem atEnd (follows : BatchFollows shared operations exchanges start past
      state)
    (single : (scopes operations).length ≤ 1)
    {outcome : Outcome (List SourceReceipt)}
    (ended : state.phase = .ended outcome) :
    outcome = .returned state.receipts ∧
      Received operations exchanges state.receipts operations.length ∧
      Rounds operations exchanges 0 start past := by
  have atEnd := follows.formed.atEnd ended
  rw [if_neg (not_lt.mpr single)] at atEnd
  obtain ⟨isReturned, complete⟩ := atEnd
  refine ⟨isReturned, complete ▸ follows.formed.received, ?_⟩
  have rounds := follows.rounds []
  unfold Pending at rounds
  rw [ended, List.append_nil] at rounds
  exact rounds rfl

/-- The run of a batch whose window is its own. -/
theorem run (readable : ∀ position, (exchanges position).Readable)
    (accepted : ∀ window ∈ shared, 0 < window.ttlSeconds)
    (single : (scopes operations).length ≤ 1)
    (controlled : start.Controlled) {redis : Redis} {clock : Int}
    (window : WindowAgrees shared operations redis clock start.limit)
    {actions : List BatchAction}
    (execution : Runs (batchStep shared operations exchanges)
      (KeyUntouched shared operations) (.initial redis clock start) actions
      state) :
    BatchFollows shared operations exchanges start
      (history (batchStep shared operations exchanges)
        (batchEvents shared operations exchanges)
        (BatchState.initial redis clock start) actions) state :=
  execution.invariant_with_history
    (fun follows untouched stepped => BatchFollows.step follows single readable
      accepted untouched stepped) (initial controlled window)

end BatchFollows

end Step

/-- The receipts of a batch are determined by its exchanges. -/
theorem Received.unique {operations : List SourceOperation}
    {exchanges : Nat → Exchange} {left right : List SourceReceipt}
    {cursor : Nat} (controller : AimdConcurrencyController)
    (first : Received operations exchanges left cursor)
    (second : Received operations exchanges right cursor) : left = right := by
  have lengths := first.length.trans second.length.symm
  apply List.ext_getElem lengths
  intro position inLeft inRight
  obtain ⟨operation, found, returned⟩ :=
    first.each position _ (List.getElem?_eq_getElem inLeft)
  obtain ⟨other, alsoFound, alsoReturned⟩ :=
    second.each position _ (List.getElem?_eq_getElem inRight)
  cases found.symm.trans alsoFound
  exact Outcome.returned.inj
    ((returned controller).symm.trans (alsoReturned controller))

/-- Few own steps are taken, and a batch stops only when it has ended. -/
def Completes (shared : Option RedisAimdState)
    (operations : List SourceOperation) (exchanges : Nat → Exchange)
    (actions : List BatchAction) (state : BatchState) : Prop :=
  actions.countP BatchAction.own ≤ 5 * operations.length + 2 ∧
    ((∀ action, action.own = true →
        batchStep shared operations exchanges state action = none) →
      ∃ outcome, state.phase = .ended outcome)

theorem Completes.of_runs {shared : Option RedisAimdState}
    {operations : List SourceOperation} {exchanges : Nat → Exchange}
    {start : AimdConcurrencyController} {state : BatchState}
    (readable : ∀ position, (exchanges position).Readable)
    (accepted : ∀ window ∈ shared, 0 < window.ttlSeconds)
    (controlled : start.Controlled) {redis : Redis} {clock : Int}
    (window : WindowAgrees shared operations redis clock start.limit)
    {actions : List BatchAction}
    (execution : Runs (batchStep shared operations exchanges)
      (KeyUntouched shared operations) (.initial redis clock start) actions
      state) : Completes shared operations exchanges actions state := by
  obtain ⟨formed, counted⟩ := BatchFormed.run
    (fun formed untouched => formed.positiveElsewhere untouched) readable
    accepted controlled (window.positive controlled.limit) execution
  exact ⟨counted, formed.ended_of_stuck⟩

/-- A batch whose shared window is used by no other client and starts absent or
equal to the limit of the controller ends, as one without a shared state does.
The two go through the same limits and rounds and return the same receipts,
whenever the window expires. -/
theorem shared_and_local_batches_agree (window : RedisAimdState)
    (operations : List SourceOperation) (exchanges : Nat → Exchange)
    (controller : AimdConcurrencyController)
    (single : (scopes operations).length ≤ 1)
    (readable : ∀ position, (exchanges position).Readable)
    (controlled : controller.Controlled) (accepted : 0 < window.ttlSeconds)
    {redis localRedis : Redis} {clock localClock : Int}
    (agrees : WindowAgrees (some window) operations redis clock
      controller.limit)
    {actions localActions : List BatchAction} {state localState : BatchState}
    (execution : Runs (batchStep (some window) operations exchanges)
      (KeyUntouched (some window) operations)
      (BatchState.initial redis clock controller) actions state)
    (localExecution : Runs (batchStep none operations exchanges) Always
      (BatchState.initial localRedis localClock controller) localActions
      localState) :
    Completes (some window) operations exchanges actions state ∧
    Completes none operations exchanges localActions localState ∧
    ∀ {outcome localOutcome : Outcome (List SourceReceipt)},
      state.phase = .ended outcome → localState.phase = .ended localOutcome →
      history (batchStep (some window) operations exchanges)
          (batchEvents (some window) operations exchanges)
          (BatchState.initial redis clock controller) actions =
        history (batchStep none operations exchanges)
          (batchEvents none operations exchanges)
          (BatchState.initial localRedis localClock controller)
          localActions ∧
      ∃ receipts, outcome = .returned receipts ∧
        localOutcome = .returned receipts := by
  have acceptedAll : ∀ other ∈ some window, 0 < other.ttlSeconds := by
    intro other isShared
    cases isShared
    exact accepted
  have follows := BatchFollows.run readable acceptedAll single controlled
    agrees execution
  -- Without a shared state there is no window to agree with.
  have unshared : ∀ state action, Always state action →
      KeyUntouched none operations state action := by
    intro state action _
    cases action with
    | elsewhere =>
        intro other isShared
        cases isShared
    | enter | readLimit | post | answer | collect | publish => exact trivial
  have noWindow : ∀ other ∈ (none : Option RedisAimdState),
      0 < other.ttlSeconds := by
    intro other isShared
    cases isShared
  have noAgreement : WindowAgrees none operations localRedis localClock
      controller.limit := by
    intro other isShared
    cases isShared
  have localUntouched := localExecution.weaken unshared
  have localFollows := BatchFollows.run readable noWindow single controlled
    noAgreement localUntouched
  refine ⟨.of_runs readable acceptedAll controlled agrees execution,
    .of_runs readable noWindow controlled noAgreement localUntouched, ?_⟩
  intro outcome localOutcome ended localEnded
  obtain ⟨isReturned, received, rounds⟩ := follows.atEnd single ended
  obtain ⟨isLocal, localReceived, localRounds⟩ :=
    localFollows.atEnd single localEnded
  refine ⟨rounds.deterministic _ _ localRounds, state.receipts, isReturned, ?_⟩
  rw [received.unique controller localReceived]
  exact isLocal

/-! The window of six operations starts absent, and it expires between the
`get_limit` and the `adjust` of the second round. -/

private def expiringCalls : List BatchAction :=
  [.enter, .readLimit, .post 0, .post 1, .answer 1, .post 2, .post 3,
    .answer 3, .answer 2, .answer 0, .collect, .publish, .readLimit, .post 1,
    .post 0, .answer 0, .elsewhere .empty 10, .answer 1, .collect, .publish,
    .readLimit]

private def localCalls : List BatchAction :=
  [.enter, .readLimit, .post 0, .post 1, .post 2, .post 3, .answer 0,
    .answer 1, .answer 2, .answer 3, .collect, .readLimit, .post 0, .post 1,
    .answer 0, .answer 1, .collect, .readLimit]

theorem expiring_window_changes_nothing :
    ∃ state localState receipts,
      Runs (batchStep (some batchWindow) sixOperations fourFailures)
        (KeyUntouched (some batchWindow) sixOperations)
        (BatchState.initial .empty 0 batchController) expiringCalls state ∧
      Runs (batchStep none sixOperations fourFailures) Always
        (BatchState.initial .empty 0 batchController) localCalls localState ∧
      state.phase = .ended (.returned receipts) ∧
      localState.phase = .ended (.returned receipts) := by
  have evaluated : (run (batchStep (some batchWindow) sixOperations
      fourFailures) (KeyUntouched (some batchWindow) sixOperations)
      (BatchState.initial .empty 0 batchController) expiringCalls).map
        (fun state =>
          decide (state.phase = .ended (.returned state.receipts))) =
      some true := by
    decide +kernel
  have localEvaluated : (run (batchStep none sixOperations fourFailures) Always
      (BatchState.initial .empty 0 batchController) localCalls).map
        (fun state =>
          decide (state.phase = .ended (.returned state.receipts))) =
      some true := by
    decide +kernel
  obtain ⟨state, result, ended⟩ := Option.map_eq_some_iff.mp evaluated
  obtain ⟨localState, localResult, localEnded⟩ :=
    Option.map_eq_some_iff.mp localEvaluated
  rw [decide_eq_true_eq] at ended localEnded
  have execution := runs_of_run result
  have localExecution := runs_of_run localResult
  obtain ⟨_, _, agreement⟩ :=
    shared_and_local_batches_agree batchWindow sixOperations fourFailures
      batchController (by decide) (fun _ => trivial)
      ⟨by decide, by decide, by decide, by decide⟩ (by decide)
      (fun window isShared operation member value found => by cases found)
      execution localExecution
  obtain ⟨_, receipts, isReturned, isLocal⟩ := agreement ended localEnded
  rw [isReturned] at ended
  rw [isLocal] at localEnded
  exact ⟨state, localState, receipts, execution, localExecution, ended,
    localEnded⟩

end FleetPrivacy
