import FleetPrivacy.Attempts
import FleetPrivacy.Executions

/-!
# What the audit trail accounts for

A claim counts an attempt in one transaction, its outcome and the audit event
of that outcome are written in another.  While leases live and no execution is
cancelled, the audit events of a request match its finished tasks, and its
attempts are its outcomes and the claims that have none.
-/

namespace FleetPrivacy

open Transition

/-- A claim: the call that made it, and its task. -/
structure Claim where
  slot : Nat
  taskId : String
  deriving DecidableEq, Repr

/-- The call that a claim or an outcome belongs to. -/
def State.slot (state : State) : Action → Nat
  | .messageClaim index | .recordTask index _ => index
  | _ => state.calls.length

def observeExecutions (deployment : Deployment) (state : State)
    (action : Action) : List (Nat × LeaseEvent) :=
  (observeLeases deployment state action).map (Prod.mk (state.slot action))

def claimMade : Nat × LeaseEvent → Option Claim
  | (slot, .claimed row _ _ _) => some ⟨slot, row.id⟩
  | _ => none

def claimCommitted : Nat × LeaseEvent → Option Claim
  | (slot, .recorded taskId) => some ⟨slot, taskId⟩
  | _ => none

def claimsMade (events : List (Nat × LeaseEvent)) : List Claim :=
  events.filterMap claimMade

def claimsCommitted (events : List (Nat × LeaseEvent)) : List Claim :=
  events.filterMap claimCommitted

theorem claimsMade_append (first second : List (Nat × LeaseEvent)) :
    claimsMade (first ++ second) = claimsMade first ++ claimsMade second :=
  List.filterMap_append

theorem claimsCommitted_append (first second : List (Nat × LeaseEvent)) :
    claimsCommitted (first ++ second) =
      claimsCommitted first ++ claimsCommitted second :=
  List.filterMap_append

namespace Database

/-- The audit events of a request with an action. -/
def reported (database : Database) (requestId : String)
    (action : AuditAction) : Nat :=
  database.audit.countP fun event =>
    decide (event.requestId = requestId) &&
      decide (event.action = action.value)

/-- Every outcome of an execution is one of these three. -/
def outcomes (database : Database) (requestId : String) : Nat :=
  database.reported requestId (.taskSettled .succeeded) +
    database.reported requestId (.taskSettled .failed) +
    database.reported requestId .taskRetryScheduled

def tasksIn (database : Database) (requestId : String) (status : TaskStatus) :
    Nat :=
  (database.tasksOf requestId).countP fun task => decide (task.status = status)

/-- The claims on tasks of a request whose execution has not committed. -/
def openClaims (database : Database) (requestId : String)
    (events : List (Nat × LeaseEvent)) : Nat :=
  (claimsMade events).countP fun claim =>
    decide (claim.taskId ∈ database.taskIds requestId) &&
      decide (claim ∉ claimsCommitted events)

end Database

def Action.uncancelled : Action → Bool
  | .work _ performed => decide (performed.ending ≠ .cancelled)
  | _ => true

/-- Leases live, and no execution is cancelled. -/
def Uncancelled (state : State) (action : Action) : Prop :=
  LeasesLive state action ∧ action.uncancelled = true

instance (state : State) (action : Action) :
    Decidable (Uncancelled state action) :=
  inferInstanceAs (Decidable (_ ∧ _))

/-! ## Calls before their claim -/

/-- The call has not tried to claim its task. -/
def Phase.awaits : Phase → Bool
  | .received | .claiming _ _ => true
  | _ => false

theorem Call.awaits_resume (call : Call) (result : Bool) :
    (call.resume result).awaits = false := by
  unfold Call.resume
  cases call.message with
  | none => rfl
  | some => rfl

theorem CallMove.awaits {deployment : Deployment} {state : State}
    {index : Nat} {call next : Call} {action : Action}
    (move : CallMove deployment state index call action next)
    (waits : next.phase.awaits = true) : call.phase.awaits = true := by
  cases move with
  | unfinished slot message now taskId received =>
      rw [received]
      rfl
  | skipped =>
      rw [Call.awaits_resume] at waits
      cases waits
  | _ => cases waits

theorem Call.afterRecord_awaits (deployment : Deployment) (call : Call)
    (taskId : String) (work : Work) (task : RequestTask)
    (request : PrivacyRequest) :
    (call.afterRecord deployment taskId work task request).phase.awaits =
      false := by
  rcases call.afterRecord_phase deployment taskId work task request with
    closed | recorded
  · rw [closed]
    rfl
  · rw [recorded]
    rfl

/-! ## The log of claims -/

/-- What the claims and commits of a run say about its calls. -/
structure ClaimLog (past : List (Nat × LeaseEvent)) (state : State) :
    Prop where
  ledger : Ledger (past.map Prod.snd) state
  slots : ∀ claim ∈ claimsMade past, claim.slot < state.calls.length
  awaiting : ∀ slot call, state.calls[slot]? = some call →
    call.phase.awaits = true → ∀ claim ∈ claimsMade past, claim.slot ≠ slot
  held : ∀ slot call, state.calls[slot]? = some call →
    ∀ taskId ∈ call.held, ⟨slot, taskId⟩ ∈ claimsMade past ∧
      ⟨slot, taskId⟩ ∉ claimsCommitted past
  made : (claimsMade past).Nodup
  committed : (claimsCommitted past).Nodup
  inside : ∀ claim ∈ claimsCommitted past, claim ∈ claimsMade past

namespace ClaimLog

variable {deployment : Deployment} {past : List (Nat × LeaseEvent)}
  {state next : State}

theorem initial : ClaimLog [] State.initial where
  ledger := Ledger.initial
  slots := fun _ member => nomatch member
  awaiting := fun _ _ located => nomatch located
  held := fun _ _ located => nomatch located
  made := List.nodup_nil
  committed := List.nodup_nil
  inside := fun _ member => nomatch member

/-- A step that neither claims nor commits; its calls hold less. -/
theorem quiet (log : ClaimLog past state)
    {events : List (Nat × LeaseEvent)}
    (ledger : Ledger ((past ++ events).map Prod.snd) next)
    (unclaimed : claimsMade events = [])
    (uncommitted : claimsCommitted events = [])
    (length : state.calls.length ≤ next.calls.length)
    (calls : ∀ slot call, next.calls[slot]? = some call →
      (∃ old, state.calls[slot]? = some old ∧ call.held ⊆ old.held ∧
        (call.phase.awaits = true → old.phase.awaits = true)) ∨
      slot = state.calls.length ∧ call.held = []) :
    ClaimLog (past ++ events) next := by
  have made : claimsMade (past ++ events) = claimsMade past := by
    rw [claimsMade_append, unclaimed, List.append_nil]
  have committed : claimsCommitted (past ++ events) = claimsCommitted past := by
    rw [claimsCommitted_append, uncommitted, List.append_nil]
  refine ⟨ledger, ?_, ?_, ?_, ?_, ?_, ?_⟩
  · rw [made]
    intro claim member
    exact Nat.lt_of_lt_of_le (log.slots claim member) length
  · rw [made]
    intro slot call located waits claim member
    rcases calls slot call located with ⟨old, found, _, before⟩ | ⟨new, _⟩
    · exact log.awaiting slot old found (before waits) claim member
    · have bound := log.slots claim member
      omega
  · rw [made, committed]
    intro slot call located taskId holds
    rcases calls slot call located with ⟨old, found, fewer, _⟩ | ⟨_, none⟩
    · exact log.held slot old found taskId (fewer holds)
    · rw [none] at holds
      cases holds
  · rw [made]
    exact log.made
  · rw [committed]
    exact log.committed
  · rw [made, committed]
    exact log.inside

theorem claimsMade_claimEvents {slot : Nat} {taskIds : List String}
    {workerId : String} {leaseUntil now : Time}
    (formed : state.database.WellFormed)
    (claims : state.database.Claims now taskIds) :
    claimsMade ((claimEvents state.database taskIds workerId leaseUntil
      now).map (Prod.mk slot)) = taskIds.map (Claim.mk slot) := by
  have names : (claimEvents state.database taskIds workerId leaseUntil
      now).map LeaseEvent.taskId = taskIds := claimEvents_taskIds formed claims
  have events : ∀ event ∈ claimEvents state.database taskIds workerId
      leaseUntil now, (claimMade ∘ Prod.mk slot) event =
        some ⟨slot, event.taskId⟩ := by
    intro event member
    obtain ⟨row, _, _, rfl⟩ := mem_claimEvents member
    rfl
  calc
    claimsMade ((claimEvents state.database taskIds workerId leaseUntil
        now).map (Prod.mk slot)) =
        (claimEvents state.database taskIds workerId leaseUntil now).map
          (Claim.mk slot ∘ LeaseEvent.taskId) := by
      rw [claimsMade, List.filterMap_map, List.filterMap_congr events]
      exact congrFun List.filterMap_eq_map _
    _ = taskIds.map (Claim.mk slot) := by
      rw [← List.map_map, names]

theorem claimsCommitted_claimEvents (database : Database)
    (taskIds : List String) (workerId : String) (leaseUntil now : Time)
    (slot : Nat) :
    claimsCommitted ((claimEvents database taskIds workerId leaseUntil
      now).map (Prod.mk slot)) = [] := by
  unfold claimsCommitted
  rw [List.filterMap_map, List.filterMap_eq_nil_iff]
  intro event member
  obtain ⟨row, _, _, rfl⟩ := mem_claimEvents member
  rfl

/-- A call that has not claimed before claims tasks. -/
theorem claimed (log : ClaimLog past state) {slot : Nat} {call : Call}
    {taskIds : List String} {events : List (Nat × LeaseEvent)}
    (ledger : Ledger ((past ++ events).map Prod.snd) next)
    (made : claimsMade events = taskIds.map (Claim.mk slot))
    (uncommitted : claimsCommitted events = [])
    (distinct : taskIds.Nodup)
    (unclaimed : ∀ claim ∈ claimsMade past, claim.slot ≠ slot)
    (length : state.calls.length ≤ next.calls.length)
    (bound : slot < next.calls.length)
    (calls : ∀ other current, next.calls[other]? = some current →
      other = slot ∧ current = call ∨
        other ≠ slot ∧ state.calls[other]? = some current)
    (holds : call.held = taskIds) (claiming : call.phase.awaits = false) :
    ClaimLog (past ++ events) next := by
  have all : claimsMade (past ++ events) =
      claimsMade past ++ taskIds.map (Claim.mk slot) := by
    rw [claimsMade_append, made]
  have committed : claimsCommitted (past ++ events) = claimsCommitted past := by
    rw [claimsCommitted_append, uncommitted, List.append_nil]
  have new : ∀ claim ∈ taskIds.map (Claim.mk slot), claim.slot = slot := by
    intro claim member
    obtain ⟨taskId, _, rfl⟩ := List.mem_map.mp member
    rfl
  refine ⟨ledger, ?_, ?_, ?_, ?_, ?_, ?_⟩
  · rw [all]
    intro claim member
    rcases List.mem_append.mp member with old | added
    · exact Nat.lt_of_lt_of_le (log.slots claim old) length
    · rw [new claim added]
      exact bound
  · rw [all]
    intro other current located waits claim member
    rcases calls other current located with ⟨_, rfl⟩ | ⟨differs, found⟩
    · rw [claiming] at waits
      cases waits
    · rcases List.mem_append.mp member with old | added
      · exact log.awaiting other current found waits claim old
      · rw [new claim added]
        exact differs.symm
  · rw [all, committed]
    intro other current located taskId inHeld
    rcases calls other current located with ⟨rfl, rfl⟩ | ⟨_, found⟩
    · rw [holds] at inHeld
      refine ⟨List.mem_append_right _ (List.mem_map_of_mem inHeld), ?_⟩
      intro done
      exact unclaimed _ (log.inside _ done) rfl
    · obtain ⟨before, open_⟩ := log.held other current found taskId inHeld
      exact ⟨List.mem_append_left _ before, open_⟩
  · rw [all, List.nodup_append]
    refine ⟨log.made, distinct.map ?_, ?_⟩
    · intro first second same
      exact congrArg Claim.taskId same
    · intro old inPast claim added same
      apply unclaimed old inPast
      rw [same]
      exact new claim added
  · rw [committed]
    exact log.committed
  · rw [all, committed]
    intro claim member
    exact List.mem_append_left _ (log.inside claim member)

/-- A call commits the outcome of a task it holds. -/
theorem recorded (log : ClaimLog past state) {slot : Nat}
    {call after : Call} {taskId : String}
    {events : List (Nat × LeaseEvent)}
    (ledger : Ledger ((past ++ events).map Prod.snd) next)
    (unclaimed : claimsMade events = [])
    (commits : claimsCommitted events = [⟨slot, taskId⟩])
    (found : state.calls[slot]? = some call) (holds : taskId ∈ call.held)
    (length : next.calls.length = state.calls.length)
    (calls : ∀ other current, next.calls[other]? = some current →
      other = slot ∧ current = after ∨
        other ≠ slot ∧ state.calls[other]? = some current)
    (fewer : after.held ⊆ call.held) (given : taskId ∉ after.held)
    (busy : after.phase.awaits = false) :
    ClaimLog (past ++ events) next := by
  obtain ⟨made, open_⟩ := log.held slot call found taskId holds
  have same : claimsMade (past ++ events) = claimsMade past := by
    rw [claimsMade_append, unclaimed, List.append_nil]
  have committed : claimsCommitted (past ++ events) =
      claimsCommitted past ++ [⟨slot, taskId⟩] := by
    rw [claimsCommitted_append, commits]
  refine ⟨ledger, ?_, ?_, ?_, ?_, ?_, ?_⟩
  · rw [same, length]
    exact log.slots
  · rw [same]
    intro other current located waits claim member
    rcases calls other current located with ⟨_, rfl⟩ | ⟨_, kept⟩
    · rw [busy] at waits
      cases waits
    · exact log.awaiting other current kept waits claim member
  · rw [same, committed]
    intro other current located otherId inHeld
    rcases calls other current located with ⟨rfl, rfl⟩ | ⟨differs, kept⟩
    · obtain ⟨before, stillOpen⟩ := log.held other call found otherId
        (fewer inHeld)
      refine ⟨before, ?_⟩
      intro done
      rcases List.mem_append.mp done with old | now
      · exact stillOpen old
      · have equal : otherId = taskId :=
          congrArg Claim.taskId (List.mem_singleton.mp now)
        rw [equal] at inHeld
        exact given inHeld
    · obtain ⟨before, stillOpen⟩ := log.held other current kept otherId inHeld
      refine ⟨before, ?_⟩
      intro done
      rcases List.mem_append.mp done with old | now
      · exact stillOpen old
      · exact differs (congrArg Claim.slot (List.mem_singleton.mp now))
  · rw [same]
    exact log.made
  · rw [committed, List.nodup_append]
    refine ⟨log.committed, List.nodup_singleton _, ?_⟩
    intro old inPast claim added equal
    rw [equal, List.mem_singleton.mp added] at inPast
    exact open_ inPast
  · rw [same, committed]
    intro claim member
    rcases List.mem_append.mp member with old | now
    · exact log.inside claim old
    · rw [List.mem_singleton.mp now]
      exact made

/-- Steps that are not observed to claim or to commit. -/
theorem unobserved {action : Action} (log : ClaimLog past state)
    (ledger : Ledger ((past ++ observeExecutions deployment state action).map
      Prod.snd) next)
    (silent : observeLeases deployment state action = [])
    (length : state.calls.length ≤ next.calls.length)
    (calls : ∀ slot call, next.calls[slot]? = some call →
      (∃ old, state.calls[slot]? = some old ∧ call.held ⊆ old.held ∧
        (call.phase.awaits = true → old.phase.awaits = true)) ∨
      slot = state.calls.length ∧ call.held = []) :
    ClaimLog (past ++ observeExecutions deployment state action) next := by
  apply log.quiet ledger ?_ ?_ length calls
  · unfold observeExecutions
    rw [silent]
    rfl
  · unfold observeExecutions
    rw [silent]
    rfl

/-- One call is replaced; it keeps at most the tasks it held. -/
theorem unobserved_put {action : Action} (log : ClaimLog past state)
    (ledger : Ledger ((past ++ observeExecutions deployment state action).map
      Prod.snd) next)
    (silent : observeLeases deployment state action = []) {index : Nat}
    {call after : Call} (found : state.calls[index]? = some call)
    (calls : next.calls = (state.put index after).calls)
    (fewer : after.held ⊆ call.held)
    (awaits : after.phase.awaits = true → call.phase.awaits = true) :
    ClaimLog (past ++ observeExecutions deployment state action) next := by
  refine log.unobserved ledger silent ?_ ?_
  · rw [calls]
    simp [State.put]
  · intro slot current located
    rw [calls] at located
    rcases State.put_cases found located with ⟨rfl, rfl⟩ | ⟨_, kept⟩
    · exact .inl ⟨call, found, fewer, awaits⟩
    · exact .inl ⟨current, kept, List.Subset.refl _, id⟩

theorem step {action : Action} (log : ClaimLog past state)
    (holding : Holding state)
    (stepped : FleetPrivacy.step deployment state action = some next) :
    ClaimLog (past ++ observeExecutions deployment state action) next := by
  have tidy := log.ledger.tidy
  have ledger : Ledger ((past ++ observeExecutions deployment state
      action).map Prod.snd) next := by
    have advanced := log.ledger.step stepped
    have observed : (observeExecutions deployment state action).map Prod.snd =
        observeLeases deployment state action := by
      unfold observeExecutions
      rw [List.map_map]
      exact List.map_id _
    rw [List.map_append, observed]
    exact advanced
  have same : ∀ slot call, state.calls[slot]? = some call →
      (∃ old, state.calls[slot]? = some old ∧ call.held ⊆ old.held ∧
        (call.phase.awaits = true → old.phase.awaits = true)) ∨
      slot = state.calls.length ∧ call.held = [] :=
    fun slot call found => .inl ⟨call, found, List.Subset.refl _, id⟩
  cases effect_of_step tidy.tables.taskIds stepped with
  | created intake nodup fresh absent =>
      exact log.unobserved ledger rfl (Nat.le_refl _) same
  | relayed action relays extra outbox move =>
      exact log.unobserved ledger (observeLeases_relayed move) (Nat.le_refl _)
        same
  | opened workerId message executor bound =>
      refine log.unobserved ledger rfl ?_ ?_
      · simp
      · intro slot call located
        rcases State.append_cases located with ⟨here, rfl⟩ | ⟨_, found⟩
        · exact .inr ⟨here, rfl⟩
        · exact same slot call found
  | moved action index call after artifacts found move =>
      exact log.unobserved_put ledger
        (observeLeases_moved deployment found move) found rfl move.held.subset
        move.awaits
  | messageClaimed index call taskId now found phase claims startable =>
      have observed := observeLeases_messageClaimed deployment found phase
        claims
      have waits : call.phase.awaits = true := by
        rw [phase]
        rfl
      refine log.claimed ledger ?_ ?_ claims.nodup
        (log.awaiting index call found waits) ?_ ?_
        (fun other current => State.put_cases found) rfl rfl
      · unfold observeExecutions
        rw [observed]
        exact claimsMade_claimEvents tidy.tables claims
      · unfold observeExecutions
        rw [observed]
        exact claimsCommitted_claimEvents ..
      · simp [State.put]
      · have bound := (List.getElem?_eq_some_iff.mp found).1
        simpa [State.put] using bound
  | batchClaimed arguments session taskIds selected claims copies requests
      members startable =>
      have observed : observeLeases deployment state (.processOnce arguments) =
          claimEvents state.database taskIds arguments.workerId
            (arguments.leaseUntil deployment.settings) arguments.now := by
        simp only [observeLeases, selected]
      refine log.claimed ledger ?_ ?_ claims.nodup ?_ ?_ ?_
        (fun other current => State.append_cases) rfl rfl
      · unfold observeExecutions
        rw [observed]
        exact claimsMade_claimEvents tidy.tables claims
      · unfold observeExecutions
        rw [observed]
        exact claimsCommitted_claimEvents ..
      · intro claim member
        exact Nat.ne_of_lt (log.slots claim member)
      · simp
      · simp
  | selected index call taskId todo row found phase rest member sameId leased =>
      refine log.unobserved_put ledger rfl found rfl ?_
        (fun waits => absurd waits Bool.false_ne_true)
      rw [Call.held_of_ready phase, rest]
      exact List.Subset.refl _
  | recorded index call taskId work task request now found phase held
      requestHeld free =>
      have observed := observeLeases_recorded deployment found phase now
      have shape := Call.held_of_worked phase
      have nodup := (holding.leases call (List.mem_of_getElem? found)).nodup
      rw [shape, List.nodup_cons] at nodup
      have left := (call.held_afterRecord deployment taskId work task
        request).subset
      have holds : taskId ∈ call.held := by
        rw [shape]
        exact List.mem_cons_self
      refine log.recorded ledger ?_ ?_ found holds ?_
        (fun other current => State.put_cases found) ?_ ?_
        (call.afterRecord_awaits deployment taskId work task request)
      · unfold observeExecutions
        rw [observed]
        rfl
      · unfold observeExecutions
        rw [observed]
        rfl
      · simp [State.put]
      · rw [shape]
        exact fun other inHeld => List.mem_cons_of_mem _ (left inHeld)
      · exact fun inHeld => nodup.1 (left inHeld)
  | locked index call requestId own session found target free =>
      exact log.unobserved_put ledger rfl found rfl
        (List.subset_append_right _ _) (fun waits => absurd waits Bool.false_ne_true)
  | refreshed index call requestId own reference request noticeId now found
      phase held uploaded fresh =>
      refine log.unobserved_put ledger rfl found rfl ?_ ?_
      · rw [Call.held_of_idle (call.current_resume _ _ _)]
        exact List.subset_append_right _ _
      · intro waits
        rw [Call.awaits_resume] at waits
        cases waits
  | acked index call slot message found subscribed delivered returned =>
      exact log.unobserved_put ledger rfl found rfl (List.nil_subset _)
        (fun waits => absurd waits Bool.false_ne_true)
  | extended workerId taskId now =>
      refine log.quiet ledger ?_ ?_ (Nat.le_refl _) same
      · simp only [observeExecutions, observeLeases]
        split
        next => rfl
        next => rfl
      · simp only [observeExecutions, observeLeases]
        split
        next => rfl
        next => rfl

/-- Committed executions are executions of tasks. -/
theorem known (log : ClaimLog past state) :
    ∀ claim ∈ claimsCommitted past,
      ∃ row, state.database.task claim.taskId = some row := by
  intro claim member
  obtain ⟨⟨slot, event⟩, inPast, read⟩ :=
    List.mem_filterMap.mp (log.inside claim member)
  cases event with
  | claimed row workerId leaseUntil now =>
      cases read
      exact log.ledger.known row workerId leaseUntil now
        (List.mem_map.mpr ⟨_, inPast, rfl⟩)
  | extended | recorded => cases read

end ClaimLog

/-! ## Audit events of tasks -/

/-- The actions that `execute_task` reports. -/
def AuditAction.ofTask : AuditAction → Bool
  | .taskRetryScheduled | .taskSettled _ => true
  | .requestCreated | .requestFinished _ => false

theorem AuditAction.value_ne_of_ofTask {other action : AuditAction}
    (foreign : other.ofTask = false) (task : action.ofTask = true) :
    other.value ≠ action.value := by
  cases action with
  | requestCreated => cases task
  | requestFinished => cases task
  | taskRetryScheduled =>
      cases other with
      | requestCreated => decide
      | requestFinished status => cases status <;> decide
      | taskRetryScheduled | taskSettled => cases foreign
  | taskSettled settled =>
      cases other with
      | requestCreated => cases settled <;> decide
      | requestFinished status =>
          cases settled <;> cases status <;> decide
      | taskRetryScheduled | taskSettled => cases foreign

theorem countP_reported_appendAudit (runtime : Runtime)
    (tenantId owner requestId value : String) (action : AuditAction)
    (payload : Json) (rows : List AuditEvent) :
    (appendAudit runtime tenantId owner value payload rows).countP
        (fun event => decide (event.requestId = requestId) &&
          decide (event.action = action.value)) =
      rows.countP (fun event => decide (event.requestId = requestId) &&
          decide (event.action = action.value)) +
        if owner = requestId ∧ value = action.value then 1 else 0 := by
  rw [appendAudit, List.countP_append, List.countP_singleton]
  congr 1
  apply if_congr _ rfl rfl
  rw [Bool.and_eq_true, decide_eq_true_iff, decide_eq_true_iff]
  exact Iff.rfl

namespace Database

variable {database : Database} {requestId : String}

theorem insertRows_reported {action : AuditAction}
    (ofTask : action.ofTask = true) (intake : Intake) (runtime : Runtime) :
    (intake.insertRows runtime database).reported requestId action =
      database.reported requestId action := by
  have foreign : AuditAction.requestCreated.value ≠ action.value :=
    AuditAction.value_ne_of_ofTask rfl ofTask
  refine (countP_reported_appendAudit runtime _ _ requestId _ action _
    _).trans ?_
  rw [if_neg (fun both => foreign both.2), Nat.add_zero]
  rfl

theorem commitRefresh_reported {action : AuditAction}
    (ofTask : action.ofTask = true) (runtime : Runtime) (session : Session)
    (request : PrivacyRequest) (reference : Option String) (noticeId : String)
    (now : Time) :
    (commitRefresh runtime session request reference noticeId now
      database).reported requestId action =
      database.reported requestId action := by
  have foreign : ∀ status,
      (AuditAction.requestFinished status).value ≠ action.value :=
    fun status => AuditAction.value_ne_of_ofTask rfl ofTask
  unfold commitRefresh
  dsimp only
  split
  next =>
    refine (countP_reported_appendAudit runtime _ _ requestId _ action _
      _).trans ?_
    rw [if_neg (fun both => foreign _ both.2), Nat.add_zero]
    rfl
  next => rfl

/-- Tasks of a request by status, after a revision of the rows. -/
theorem Revises.tasksIn_eq {before after : Database}
    {task : RequestTask → RequestTask}
    {request : PrivacyRequest → PrivacyRequest}
    (revises : Revises before after task request) (requestId : String)
    (status : TaskStatus) :
    after.tasksIn requestId status =
      (before.tasksOf requestId).countP fun row =>
        decide ((task row).status = status) := by
  unfold tasksIn
  rw [revises.tasksOf_eq, List.countP_map]
  rfl

theorem Revises.tasksIn_kept {before after : Database}
    {task : RequestTask → RequestTask}
    {request : PrivacyRequest → PrivacyRequest}
    (revises : Revises before after task request) {requestId : String}
    {status : TaskStatus}
    (kept : ∀ row ∈ before.tasksOf requestId,
      (task row).status = status ↔ row.status = status) :
    after.tasksIn requestId status = before.tasksIn requestId status := by
  rw [revises.tasksIn_eq]
  apply List.countP_congr
  intro row member
  rw [decide_eq_true_iff, decide_eq_true_iff]
  exact kept row member

theorem insertRows_tasksIn (intake : Intake) (runtime : Runtime)
    {status : TaskStatus} (terminal : status.Terminal) :
    (intake.insertRows runtime database).tasksIn requestId status =
      database.tasksIn requestId status := by
  have added : (intake.insertRows runtime database).tasksOf requestId =
      database.tasksOf requestId ++ intake.tasks.filter
        fun row => decide (row.requestId = requestId) := List.filter_append _ _
  unfold tasksIn
  rw [added, List.countP_append, Nat.add_eq_left, List.countP_eq_zero]
  intro row member
  obtain ⟨⟨source, position⟩, _, rfl⟩ :=
    List.mem_map.mp (List.mem_filter.mp member).1
  rw [decide_eq_true_iff]
  rintro rfl
  cases terminal

theorem markClaimed_tasksIn (formed : database.WellFormed) {now : Time}
    {taskIds : List String} (claims : database.Claims now taskIds)
    (workerId : String) (leaseUntil : Time) {status : TaskStatus}
    (terminal : status.Terminal) :
    (database.markClaimed taskIds workerId leaseUntil now).tasksIn requestId
      status = database.tasksIn requestId status := by
  apply (markClaimed_revises ..).tasksIn_kept
  intro row member
  unfold claimRow
  split
  next hit =>
    have open_ : ¬ row.status.Terminal := by
      obtain ⟨other, inTable, same, claimable⟩ :=
        claims.claimable row.id (of_decide_eq_true hit)
      rw [formed.taskIds.eq_of_mem inTable (mem_tasksOf.mp member).1 same]
        at claimable
      exact RequestTask.not_terminal_of_claimable claimable
    constructor
    · rintro rfl
      cases terminal
    · rintro rfl
      exact absurd terminal open_
  next => exact Iff.rfl

end Database

/-! ## Outcomes -/

namespace RequestTask

theorem settle_status_congr {first second : RequestTask}
    (attempt : first.attempt = second.attempt) {settings : Settings}
    {executor : Bool} {ending : Ending} (uncancelled : ending ≠ .cancelled) :
    (first.settle settings executor ending).status =
      (second.settle settings executor ending).status := by
  cases ending with
  | returned payload => rfl
  | raised message =>
      unfold settle
      dsimp only
      rw [attempt]
  | cancelled => exact absurd rfl uncancelled

/-- What an outcome reports, by the status it leaves. -/
theorem auditAction_value_iff (task : RequestTask) {status : TaskStatus}
    (terminal : status.Terminal) :
    task.auditAction.value = (AuditAction.taskSettled status).value ↔
      task.status = status := by
  unfold auditAction
  cases status with
  | pending | running => cases terminal
  | succeeded => cases task.status <;> decide
  | failed => cases task.status <;> decide

theorem auditAction_retry_iff (task : RequestTask) :
    task.auditAction.value = AuditAction.taskRetryScheduled.value ↔
      task.status = .pending := by
  unfold auditAction
  cases task.status <;> decide

end RequestTask

namespace Database

variable {before : Database} {requestId : String}

theorem recordOutcome_reported (action : AuditAction) (runtime : Runtime)
    (settings : Settings) (executor : Bool) (work : Work) (task : RequestTask)
    (request : PrivacyRequest) (now : Time) :
    (recordOutcome runtime settings executor work task request now
      before).reported requestId action =
      before.reported requestId action +
        if task.requestId = requestId ∧
          (task.settle settings executor work.ending).auditAction.value =
            action.value then 1 else 0 :=
  countP_reported_appendAudit runtime _ _ requestId _ action _ _

/-- The row of a running task is settled, other rows stay. -/
theorem recordOutcome_tasksIn (formed : before.WellFormed) (runtime : Runtime)
    {settings : Settings} {executor : Bool} {work : Work}
    {task row : RequestTask} (request : PrivacyRequest) (now : Time)
    (found : before.task task.id = some row) (running : row.status = .running)
    (settles : recordRow settings executor work.ending task row =
      row.settle settings executor work.ending)
    {status : TaskStatus} (terminal : status.Terminal) :
    (recordOutcome runtime settings executor work task request now
      before).tasksIn requestId status =
      before.tasksIn requestId status +
        if row.requestId = requestId ∧
          (row.settle settings executor work.ending).status = status then 1
        else 0 := by
  obtain ⟨member, key⟩ := task_mem found
  have revises := recordOutcome_revises runtime settings executor work task
    request now before
  have others : ∀ other : RequestTask, other.id ≠ row.id →
      recordRow settings executor work.ending task other = other := by
    intro other differs
    rw [key] at differs
    exact recordRow_of_ne differs _ _ _
  by_cases owner : row.requestId = requestId
  · have unique : Table.KeyUnique RequestTask.id
        (before.tasksOf requestId) := formed.taskIds.filter _
    have change := unique.countP_change
      (fun other => decide (other.status = status))
      (fun other => decide ((recordRow settings executor work.ending task
        other).status = status))
      (mem_tasksOf.mpr ⟨member, owner⟩) (by
        intro other _ differs
        rw [others other differs])
    have open_ : row.status ≠ status := by
      rw [running]
      rintro rfl
      cases terminal
    rw [revises.tasksIn_eq]
    simp only [open_, decide_false, Bool.false_eq_true, if_false,
      Nat.add_zero, settles, decide_eq_true_eq] at change
    simp only [owner, true_and]
    exact change
  · rw [if_neg (fun both => owner both.1), Nat.add_zero]
    apply revises.tasksIn_kept
    intro other inTasks
    have differs : other.id ≠ row.id := by
      intro same
      obtain ⟨inTable, otherOwner⟩ := mem_tasksOf.mp inTasks
      rw [formed.taskIds.eq_of_mem inTable member same] at otherOwner
      exact owner otherOwner
    rw [others other differs]

end Database

/-! ## The balance -/

/-- Audit events match finished tasks and committed claims. -/
structure Database.Balanced (database : Database) (commits : List Claim) :
    Prop where
  settled : ∀ requestId status, status.Terminal →
    database.reported requestId (.taskSettled status) =
      database.tasksIn requestId status
  outcomes : ∀ requestId, database.outcomes requestId =
    commits.countP fun claim =>
      decide (claim.taskId ∈ database.taskIds requestId)

namespace Database

variable {before after : Database} {commits : List Claim}

/-- A step that reports no outcome and finishes no task. -/
theorem Balanced.carry (balanced : before.Balanced commits)
    (reported : ∀ requestId action, action.ofTask = true →
      after.reported requestId action = before.reported requestId action)
    (tasksIn : ∀ requestId status, status.Terminal →
      after.tasksIn requestId status = before.tasksIn requestId status)
    (members : ∀ claim ∈ commits, ∀ requestId,
      claim.taskId ∈ after.taskIds requestId ↔
        claim.taskId ∈ before.taskIds requestId) :
    after.Balanced commits := by
  constructor
  · intro requestId status terminal
    rw [reported requestId _ rfl, tasksIn requestId status terminal]
    exact balanced.settled requestId status terminal
  · intro requestId
    have same : after.outcomes requestId = before.outcomes requestId := by
      unfold Database.outcomes
      rw [reported _ _ rfl, reported _ _ rfl, reported _ _ rfl]
    rw [same, balanced.outcomes]
    apply List.countP_congr
    intro claim member
    rw [decide_eq_true_iff, decide_eq_true_iff]
    exact (members claim member requestId).symm

theorem Balanced.same_tasks (balanced : before.Balanced commits)
    (tasks : after.tasks = before.tasks)
    (reported : ∀ requestId action, action.ofTask = true →
      after.reported requestId action = before.reported requestId action) :
    after.Balanced commits := by
  have tasksOf : ∀ requestId,
      after.tasksOf requestId = before.tasksOf requestId := by
    intro requestId
    unfold Database.tasksOf
    rw [tasks]
  apply balanced.carry reported
  · intro requestId status _
    unfold Database.tasksIn
    rw [tasksOf]
  · intro claim _ requestId
    unfold Database.taskIds
    rw [tasksOf]

theorem Balanced.insertRows (balanced : before.Balanced commits)
    {intake : Intake} {runtime : Runtime}
    (fresh : before.unused intake.drawnIds = true)
    (known : ∀ claim ∈ commits, ∃ row, before.task claim.taskId = some row) :
    (intake.insertRows runtime before).Balanced commits := by
  obtain ⟨_, _, freshTasks, _⟩ := Database.unused_iff.mp fresh
  refine balanced.carry
    (fun requestId action ofTask => insertRows_reported ofTask intake runtime)
    (fun requestId status terminal =>
      insertRows_tasksIn intake runtime terminal) ?_
  intro claim member requestId
  obtain ⟨row, found⟩ := known claim member
  obtain ⟨inTable, key⟩ := task_mem found
  rw [mem_taskIds, mem_taskIds]
  constructor
  · rintro ⟨other, inTables, owner, same⟩
    rcases List.mem_append.mp inTables with old | new
    · exact ⟨other, old, owner, same⟩
    · exact absurd (Intake.task_id_mem new)
        (by rw [same, ← key]; exact freshTasks row inTable)
  · rintro ⟨other, inTables, owner, same⟩
    exact ⟨other, List.mem_append_left _ inTables, owner, same⟩

theorem Balanced.revise (balanced : before.Balanced commits)
    {task : RequestTask → RequestTask}
    {request : PrivacyRequest → PrivacyRequest}
    (revises : Revises before after task request)
    (audit : after.audit = before.audit)
    (tasksIn : ∀ requestId status, status.Terminal →
      after.tasksIn requestId status = before.tasksIn requestId status) :
    after.Balanced commits := by
  refine balanced.carry ?_ tasksIn ?_
  · intro requestId action _
    unfold Database.reported
    rw [audit]
  · intro claim _ requestId
    unfold Database.taskIds
    rw [revises.ids_eq]

/-- An outcome is reported once, and finishes its task or puts it back. -/
theorem Balanced.recordOutcome (balanced : before.Balanced commits)
    (formed : before.WellFormed) {runtime : Runtime} {settings : Settings}
    {executor : Bool} {work : Work} {task row : RequestTask}
    {request : PrivacyRequest} {now : Time} {slot : Nat}
    (found : before.task task.id = some row)
    (running : row.status = .running)
    (settles : recordRow settings executor work.ending task row =
      row.settle settings executor work.ending)
    (uncancelled : work.ending ≠ .cancelled)
    (owner : task.requestId = row.requestId)
    (attempt : task.attempt = row.attempt) :
    (FleetPrivacy.recordOutcome runtime settings executor work task request now
      before).Balanced (commits ++ [⟨slot, task.id⟩]) := by
  obtain ⟨member, key⟩ := task_mem found
  have status : (task.settle settings executor work.ending).status =
      (row.settle settings executor work.ending).status :=
    RequestTask.settle_status_congr attempt uncancelled
  have ids : ∀ requestId, (FleetPrivacy.recordOutcome runtime settings executor
      work task request now before).taskIds requestId =
      before.taskIds requestId :=
    (recordOutcome_revises runtime settings executor work task request now
      before).ids_eq
  constructor
  · intro requestId settled terminal
    rw [recordOutcome_reported, balanced.settled requestId settled terminal,
      recordOutcome_tasksIn formed runtime request now found running settles
        terminal, owner]
    congr 1
    apply if_congr _ rfl rfl
    rw [RequestTask.auditAction_value_iff _ terminal, status]
  · intro requestId
    have mine : task.id ∈ before.taskIds requestId ↔
        task.requestId = requestId := by
      rw [mem_taskIds, owner]
      constructor
      · rintro ⟨other, inTable, owned, same⟩
        rw [← formed.taskIds.eq_of_mem inTable member (same.trans key.symm)]
        exact owned
      · intro owned
        exact ⟨row, member, owned, key⟩
    have one : (FleetPrivacy.recordOutcome runtime settings executor work task
        request now before).outcomes requestId =
        before.outcomes requestId +
          if task.requestId = requestId then 1 else 0 := by
      have unfinished : (task.settle settings executor
          work.ending).status ≠ .running :=
        RequestTask.settle_status_ne_running uncancelled task
      have succeeded : TaskStatus.succeeded.Terminal := trivial
      have failed : TaskStatus.failed.Terminal := trivial
      unfold Database.outcomes
      rw [recordOutcome_reported, recordOutcome_reported,
        recordOutcome_reported,
        if_congr (and_congr_right fun _ =>
          RequestTask.auditAction_value_iff _ succeeded) rfl rfl,
        if_congr (and_congr_right fun _ =>
          RequestTask.auditAction_value_iff _ failed) rfl rfl,
        if_congr (and_congr_right fun _ =>
          RequestTask.auditAction_retry_iff _) rfl rfl]
      by_cases owned : task.requestId = requestId
      · cases left : (task.settle settings executor work.ending).status with
        | running => exact absurd left unfinished
        | pending | succeeded | failed =>
            simp only [owned, true_and, reduceCtorEq, if_true, if_false]
            omega
      · simp only [owned, false_and, if_false]
        omega
    rw [one, balanced.outcomes, List.countP_append, List.countP_singleton,
      ids]
    congr 1
    apply if_congr _ rfl rfl
    rw [decide_eq_true_iff]
    exact mine.symm

end Database

structure AuditTrail (past : List (Nat × LeaseEvent)) (state : State) :
    Prop where
  log : ClaimLog past state
  holding : Holding state
  executing : Executing state
  endings : ∀ call ∈ state.calls, ∀ taskId work,
    call.phase = .worked taskId work → work.ending ≠ .cancelled
  balanced : state.database.Balanced (claimsCommitted past)

namespace AuditTrail

variable {deployment : Deployment} {past : List (Nat × LeaseEvent)}
  {state next : State} {action : Action}

theorem initial : AuditTrail [] State.initial where
  log := ClaimLog.initial
  holding := Holding.initial
  executing := Executing.initial
  endings := fun _ member => nomatch member
  balanced := ⟨fun _ _ _ => rfl, fun _ => rfl⟩

theorem balanced_step (trail : AuditTrail past state)
    (effect : Effect deployment state action next) :
    next.database.Balanced (claimsCommitted
      (past ++ observeExecutions deployment state action)) := by
  have tidy := trail.log.ledger.tidy
  have silent : observeLeases deployment state action = [] →
      claimsCommitted (past ++ observeExecutions deployment state action) =
        claimsCommitted past := by
    intro none
    unfold observeExecutions
    rw [none, List.map_nil, List.append_nil]
  have kept : ∀ requestId action, action.ofTask = true →
      state.database.reported requestId action =
        state.database.reported requestId action := fun _ _ _ => rfl
  cases effect with
  | created intake nodup fresh absent =>
      rw [silent rfl]
      exact trail.balanced.insertRows fresh trail.log.known
  | relayed action relays extra outbox move =>
      rw [silent (observeLeases_relayed move)]
      exact trail.balanced.same_tasks rfl kept
  | opened | selected | locked | acked =>
      rw [silent rfl]
      exact trail.balanced
  | moved action index call after artifacts found move =>
      rw [silent (observeLeases_moved deployment found move)]
      exact trail.balanced
  | messageClaimed index call taskId now found phase claims startable =>
      have observed := observeLeases_messageClaimed deployment found phase
        claims
      unfold observeExecutions
      rw [observed, claimsCommitted_append, ClaimLog.claimsCommitted_claimEvents,
        List.append_nil]
      apply trail.balanced.revise (Database.markClaimed_revises ..) rfl
      intro requestId status terminal
      exact Database.markClaimed_tasksIn tidy.tables claims _ _ terminal
  | batchClaimed arguments session taskIds selected claims copies requests
      members startable =>
      simp only [observeExecutions, observeLeases, selected]
      rw [claimsCommitted_append, ClaimLog.claimsCommitted_claimEvents,
        List.append_nil]
      apply trail.balanced.revise (Database.markClaimed_revises ..) rfl
      intro requestId status terminal
      exact Database.markClaimed_tasksIn tidy.tables claims _ _ terminal
  | recorded index call taskId work task request now found phase held
      requestHeld free =>
      have member := List.mem_of_getElem? found
      have isTask := tidy.keyed call member taskId task held
      have holds : taskId ∈ call.held := by
        rw [Call.held_of_worked phase]
        exact List.mem_cons_self
      obtain ⟨row, rowFound, leased⟩ :=
        (trail.holding.leases call member).rows taskId holds
      obtain ⟨_, current⟩ := trail.executing call member taskId holds row
        rowFound
      have columns := (current task held).columns
      have settles := trail.executing.recordRow_eq tidy deployment.settings
        found phase held rowFound
      have owner : task.requestId = row.requestId := by
        rw [← columns]
      have attempt : task.attempt = row.attempt := by
        rw [← columns]
      have recorded : (recordOutcome deployment.runtime deployment.settings
          call.executor work task request now state.database).Balanced
            (claimsCommitted past ++ [⟨index, task.id⟩]) := by
        apply trail.balanced.recordOutcome tidy.tables ?_
          (RequestTask.leasedBy_iff.mp leased).1 settles
          (trail.endings call member taskId work phase) owner attempt
        rw [isTask]
        exact rowFound
      unfold observeExecutions
      rw [observeLeases_recorded deployment found phase, claimsCommitted_append]
      rw [isTask] at recorded
      exact recorded
  | refreshed index call requestId own reference request noticeId now found
      phase held uploaded fresh =>
      rw [silent rfl]
      apply trail.balanced.same_tasks
      · exact Database.commitRefresh_tasks ..
      · intro otherId action ofTask
        exact Database.commitRefresh_reported ofTask ..
  | extended workerId taskId now =>
      have none : claimsCommitted (observeExecutions deployment state
          (.extendLease workerId taskId now)) = [] := by
        simp only [observeExecutions, observeLeases]
        split
        next => rfl
        next => rfl
      have revises := Database.extendTaskLease_revises deployment.settings
        workerId taskId now state.database
      rw [claimsCommitted_append, none, List.append_nil]
      apply trail.balanced.revise revises rfl
      intro requestId status _
      apply revises.tasksIn_kept
      intro row _
      rw [Database.extendRow_status]

theorem step (trail : AuditTrail past state)
    (uncancelled : Uncancelled state action)
    (stepped : FleetPrivacy.step deployment state action = some next) :
    AuditTrail (past ++ observeExecutions deployment state action) next := by
  have tidy := trail.log.ledger.tidy
  have effect := effect_of_step tidy.tables.taskIds stepped
  refine ⟨trail.log.step trail.holding stepped,
    trail.holding.effect tidy uncancelled.1 effect,
    trail.executing.effect trail.holding tidy uncancelled.1 effect, ?_,
    trail.balanced_step effect⟩
  intro call member taskId work phase
  obtain ⟨slot, located⟩ := List.getElem?_of_mem member
  have busy : call.current = some taskId := by
    simp [Call.current, phase]
  rcases effect.working located busy with
    kept | ⟨_, _, _, _, _, _, _, _, _, _, new⟩ | ⟨_, done, rfl, _, _, new⟩
  · exact trail.endings call (List.mem_of_getElem? kept) taskId work phase
  · rw [new] at phase
    cases phase
  · rw [new] at phase
    cases phase
    exact of_decide_eq_true uncancelled.2

end AuditTrail

/-- The audit events of a request and its attempts, for the claims and
outcomes of a run. -/
structure TrailAccounting (events : List (Nat × LeaseEvent))
    (database : Database) (requestId : String) : Prop where
  succeeded : database.reported requestId (.taskSettled .succeeded) =
    database.tasksIn requestId .succeeded
  failed : database.reported requestId (.taskSettled .failed) =
    database.tasksIn requestId .failed
  attempts : ((database.tasksOf requestId).map RequestTask.attempt).sum =
    database.reported requestId (.taskSettled .succeeded) +
      database.reported requestId (.taskSettled .failed) +
      database.reported requestId .taskRetryScheduled +
      database.openClaims requestId events

theorem countP_claimsMade (events : List (Nat × LeaseEvent))
    (taskId : String) :
    (events.map Prod.snd).countP (LeaseEvent.claims taskId) =
      (claimsMade events).countP fun claim =>
        decide (claim.taskId = taskId) := by
  unfold claimsMade
  rw [List.countP_map, List.countP_filterMap]
  apply List.countP_congr
  intro entry _
  obtain ⟨slot, event⟩ := entry
  cases event with
  | claimed row workerId leaseUntil now => exact Iff.rfl
  | extended | recorded => exact Iff.rfl

theorem AuditTrail.accounting {past : List (Nat × LeaseEvent)} {state : State}
    (trail : AuditTrail past state) (requestId : String) :
    TrailAccounting past state.database requestId := by
  have formed := trail.log.ledger.tidy.tables
  refine ⟨trail.balanced.settled requestId .succeeded trivial,
    trail.balanced.settled requestId .failed trivial, ?_⟩
  have unique : Table.KeyUnique RequestTask.id
      (state.database.tasksOf requestId) := formed.taskIds.filter _
  calc
    ((state.database.tasksOf requestId).map RequestTask.attempt).sum =
        ((state.database.tasksOf requestId).map fun row =>
          (claimsMade past).countP fun claim =>
            decide (claim.taskId = row.id)).sum := by
      congr 1
      apply List.map_congr_left
      intro row member
      rw [← countP_claimsMade]
      exact trail.log.ledger.attempts row (Database.mem_tasksOf.mp member).1
    _ = (claimsMade past).countP fun claim =>
          decide (claim.taskId ∈ state.database.taskIds requestId) :=
      unique.sum_countP Claim.taskId (claimsMade past)
    _ = ((claimsCommitted past).countP fun claim =>
          decide (claim.taskId ∈ state.database.taskIds requestId)) +
        state.database.openClaims requestId past :=
      Table.countP_split trail.log.made trail.log.committed trail.log.inside _
    _ = state.database.outcomes requestId +
        state.database.openClaims requestId past := by
      rw [trail.balanced.outcomes]

/-- In every run in which leases live and no execution is cancelled, however
workers crash, messages come again and tasks are retried, the audit trail
accounts for every outcome. -/
theorem audit_trail_accounts_for_outcomes (deployment : Deployment)
    {actions : List Action} {state : State}
    (execution : Runs (step deployment) Uncancelled State.initial actions
      state) :
    ∀ request ∈ state.database.requests,
      TrailAccounting (history (step deployment)
        (observeExecutions deployment) State.initial actions)
        state.database request.id := by
  have preserved : ∀ {past : List (Nat × LeaseEvent)} {before : State}
      {action : Action} {after : State}, AuditTrail past before →
      Uncancelled before action → step deployment before action = some after →
      AuditTrail (past ++ observeExecutions deployment before action) after :=
    fun trail uncancelled stepped => trail.step uncancelled stepped
  have reached := execution.invariant_with_history preserved AuditTrail.initial
  intro request _
  exact reached.accounting request.id

/-! A regional failure is retried, a claim is lost with its worker, and a third
one succeeds. -/

private def retriedAndLost : List Action :=
  .create demoRequest :: demoRelay 0 2 ++ [.deliver "w1" 1 true] ++
    demoExecution 0
      { ending := .raised "timeout", deleted := [], deletedAt := 0 } ++
    [.processOnce (demoClaim "w2" 20), .crash 1,
      .processOnce (demoClaim "w3" 200), .selectTask 2, .work 2 demoSuccess,
      .recordTask 2 201]

theorem retried_and_lost_claims_are_accounted :
    ∃ state, Runs (step demoDeployment) Uncancelled State.initial
        retriedAndLost state ∧
      state.database.requests.map PrivacyRequest.id = ["a"] ∧
      state.database.tasks.map RequestTask.attempt = [3] ∧
      TrailAccounting (history (step demoDeployment)
        (observeExecutions demoDeployment) State.initial retriedAndLost)
        state.database "a" := by
  have evaluated : (run (step demoDeployment) Uncancelled State.initial
      retriedAndLost).map (fun state =>
        (state.database.requests.map PrivacyRequest.id,
          state.database.tasks.map RequestTask.attempt)) =
      some (["a"], [3]) := by
    decide +kernel
  obtain ⟨state, ran, read⟩ := Option.map_eq_some_iff.mp evaluated
  obtain ⟨ids, attempts⟩ := Prod.mk.injEq _ _ _ _ ▸ read
  have execution := runs_of_run ran
  refine ⟨state, execution, ids, attempts, ?_⟩
  have listed : "a" ∈ state.database.requests.map PrivacyRequest.id := by
    rw [ids]
    exact List.mem_singleton.mpr rfl
  obtain ⟨request, member, isA⟩ := List.mem_map.mp listed
  rw [← isA]
  exact audit_trail_accounts_for_outcomes demoDeployment execution request
    member

end FleetPrivacy
