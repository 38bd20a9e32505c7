import FleetPrivacy.Tables

/-!
# Lease exclusivity and attempt accounting

An observer records every successful claim, every lease extension and every
committed outcome of a run.  The attempt column counts the claims, and a claim
that follows another one with no outcome in between found the lease expired.
-/

namespace FleetPrivacy

open Transition

inductive LeaseEvent where
  /-- A successful claim, with the row as the statement found it. -/
  | claimed (row : RequestTask) (workerId : String) (leaseUntil now : Time)
  | extended (taskId workerId : String) (leaseUntil : Time)
  /-- A committed `execute_task` outcome. -/
  | recorded (taskId : String)

namespace LeaseEvent

def taskId : LeaseEvent → String
  | .claimed row _ _ _ => row.id
  | .extended taskId _ _ => taskId
  | .recorded taskId => taskId

def claims (taskId : String) : LeaseEvent → Bool
  | .claimed row _ _ _ => decide (row.id = taskId)
  | _ => false

/-- How one event changes the lease of a task: its owner and expiry. -/
def track (taskId : String) (lease : Option (String × Time)) :
    LeaseEvent → Option (String × Time)
  | .claimed row workerId leaseUntil _ =>
      if row.id = taskId then some (workerId, leaseUntil) else lease
  | .extended extendedId workerId leaseUntil =>
      if extendedId = taskId then
        lease.map fun held =>
          if held.1 = workerId then (held.1, leaseUntil) else held
      else lease
  | .recorded recordedId => if recordedId = taskId then none else lease

/-- How one event moves the expiry of a lease that `owner` keeps. -/
def renew (taskId owner : String) (expiry : Time) : LeaseEvent → Time
  | .extended extendedId workerId leaseUntil =>
      if extendedId = taskId ∧ workerId = owner then leaseUntil else expiry
  | .claimed .. | .recorded _ => expiry

end LeaseEvent

/-- The lease that the last claim and its owner's extensions left, unless an
outcome was committed since. -/
def currentLease (taskId : String) (events : List LeaseEvent) :
    Option (String × Time) :=
  events.foldl (LeaseEvent.track taskId) none

/-- The expiry set by a claim of `owner`, or by its latest extension among
`events`. -/
def leaseSince (taskId owner : String) (leaseUntil : Time)
    (events : List LeaseEvent) : Time :=
  events.foldl (LeaseEvent.renew taskId owner) leaseUntil

def claimEvents (database : Database) (taskIds : List String)
    (workerId : String) (leaseUntil now : Time) : List LeaseEvent :=
  taskIds.filterMap fun taskId =>
    (database.task taskId).map fun row =>
      .claimed row workerId leaseUntil now

/-- What the observer records of one action. -/
def observeLeases (deployment : Deployment) (state : State) :
    Action → List LeaseEvent
  | .messageClaim index =>
      match state.calls[index]? with
      | some call =>
          match call.phase with
          | .claiming taskId now =>
              if state.database.tasks.any fun task =>
                  decide (task.id = taskId) && task.claimable now then
                claimEvents state.database [taskId] call.workerId
                  (now + deployment.settings.leaseSeconds) now
              else []
          | _ => []
      | none => []
  | .processOnce arguments =>
      claimEvents state.database
        (claimTasks deployment.settings deployment.dialect arguments
          state.database).2.2
        arguments.workerId (arguments.leaseUntil deployment.settings)
        arguments.now
  | .extendLease workerId taskId now =>
      if state.database.tasks.any fun task =>
          decide (task.id = taskId) && task.leasedBy workerId then
        [.extended taskId workerId (now + deployment.settings.leaseSeconds)]
      else []
  | .recordTask index _ =>
      match state.recording index with
      | some (_, taskId, _) => [.recorded taskId]
      | none => []
  | _ => []

theorem observeLeases_relayed {deployment : Deployment} {state : State}
    {action : Action} {relays : List Relay} {extra : List QueueMessage}
    {outbox : List OutboxEvent}
    (move : RelayMove deployment state action relays extra outbox) :
    observeLeases deployment state action = [] := by
  cases move with
  | _ => rfl

theorem observeLeases_moved (deployment : Deployment) {state : State}
    {index : Nat} {call after : Call} {action : Action}
    (found : state.calls[index]? = some call)
    (move : CallMove deployment state index call action after) :
    observeLeases deployment state action = [] := by
  cases move with
  | busy taskId now phase unclaimable =>
      have unmatched := Database.matches_eq_false unclaimable
      simp [observeLeases, found, phase, unmatched]
  | _ => rfl

theorem observeLeases_messageClaimed (deployment : Deployment) {state : State}
    {index : Nat} {call : Call} {taskId : String} {now : Time}
    (found : state.calls[index]? = some call)
    (phase : call.phase = .claiming taskId now)
    (claims : state.database.Claims now [taskId]) :
    observeLeases deployment state (.messageClaim index) =
      claimEvents state.database [taskId] call.workerId
        (now + deployment.settings.leaseSeconds) now := by
  obtain ⟨row, inTable, same, claimable⟩ :=
    claims.claimable taskId (List.mem_singleton_self taskId)
  have matched := Database.matches_iff.mpr ⟨row, inTable, same, claimable⟩
  simp only [observeLeases, found, phase, if_pos matched]

theorem observeLeases_recorded (deployment : Deployment) {state : State}
    {index : Nat} {call : Call} {taskId : String} {work : Work}
    (found : state.calls[index]? = some call)
    (phase : call.phase = .worked taskId work) (now : Time) :
    observeLeases deployment state (.recordTask index now) =
      [.recorded taskId] := by
  simp only [observeLeases, State.recording, found, phase]

/-! ## Tracking -/

theorem LeaseEvent.track_of_ne {taskId : String} {event : LeaseEvent}
    (foreign : event.taskId ≠ taskId) (lease : Option (String × Time)) :
    event.track taskId lease = lease := by
  cases event with
  | claimed row workerId leaseUntil now => exact if_neg foreign
  | extended extendedId workerId leaseUntil => exact if_neg foreign
  | recorded recordedId => exact if_neg foreign

theorem track_foreign {taskId : String} {events : List LeaseEvent}
    (foreign : ∀ event ∈ events, event.taskId ≠ taskId) :
    ∀ lease, events.foldl (LeaseEvent.track taskId) lease = lease := by
  induction events with
  | nil =>
      intro lease
      rfl
  | cons event events induction =>
      intro lease
      rw [List.foldl_cons,
        LeaseEvent.track_of_ne (foreign event List.mem_cons_self)]
      exact induction (fun other member =>
        foreign other (List.mem_cons_of_mem event member)) lease

theorem currentLease_append_foreign {taskId : String}
    {past events : List LeaseEvent}
    (foreign : ∀ event ∈ events, event.taskId ≠ taskId) :
    currentLease taskId (past ++ events) = currentLease taskId past := by
  unfold currentLease
  rw [List.foldl_append]
  exact track_foreign foreign _

/-- Between a claim and the next claim, with no outcome recorded, the current
lease is the claim's own or its owner's latest extension. -/
theorem track_since {taskId owner : String} {events : List LeaseEvent} :
    ∀ leaseUntil,
    (∀ event ∈ events, event.claims taskId = false) →
    LeaseEvent.recorded taskId ∉ events →
    events.foldl (LeaseEvent.track taskId) (some (owner, leaseUntil)) =
      some (owner, leaseSince taskId owner leaseUntil events) := by
  induction events with
  | nil =>
      intro leaseUntil _ _
      rfl
  | cons event events induction =>
      intro leaseUntil unclaimed unrecorded
      have laterUnclaimed : ∀ other ∈ events, other.claims taskId = false :=
        fun other member => unclaimed other (List.mem_cons_of_mem event member)
      have laterUnrecorded : LeaseEvent.recorded taskId ∉ events :=
        fun member => unrecorded (List.mem_cons_of_mem event member)
      unfold leaseSince
      rw [List.foldl_cons, List.foldl_cons]
      cases event with
      | claimed row workerId until_ now =>
          have foreign : row.id ≠ taskId :=
            of_decide_eq_false (unclaimed _ List.mem_cons_self)
          rw [LeaseEvent.track, if_neg foreign]
          exact induction leaseUntil laterUnclaimed laterUnrecorded
      | recorded recordedId =>
          have foreign : recordedId ≠ taskId := by
            rintro rfl
            exact unrecorded List.mem_cons_self
          rw [LeaseEvent.track, if_neg foreign]
          exact induction leaseUntil laterUnclaimed laterUnrecorded
      | extended extendedId workerId until_ =>
          by_cases own : extendedId = taskId
          · by_cases same : owner = workerId
            · have tracked : (LeaseEvent.extended extendedId workerId
                  until_).track taskId (some (owner, leaseUntil)) =
                  some (owner, until_) := by
                simp [LeaseEvent.track, own, same]
              rw [tracked, LeaseEvent.renew, if_pos ⟨own, same.symm⟩]
              exact induction until_ laterUnclaimed laterUnrecorded
            · have tracked : (LeaseEvent.extended extendedId workerId
                  until_).track taskId (some (owner, leaseUntil)) =
                  some (owner, leaseUntil) := by
                simp [LeaseEvent.track, own, same]
              rw [tracked, LeaseEvent.renew,
                if_neg (fun both => same both.2.symm)]
              exact induction leaseUntil laterUnclaimed laterUnrecorded
          · rw [LeaseEvent.track, if_neg own, LeaseEvent.renew,
              if_neg (fun both => own both.1)]
            exact induction leaseUntil laterUnclaimed laterUnrecorded

/-! ## The claims of one statement -/

section ClaimEvents

variable {database : Database} {taskIds : List String} {workerId : String}
  {leaseUntil now : Time}

theorem mem_claimEvents {event : LeaseEvent}
    (member : event ∈ claimEvents database taskIds workerId leaseUntil now) :
    ∃ row, database.task row.id = some row ∧ row.id ∈ taskIds ∧
      event = .claimed row workerId leaseUntil now := by
  obtain ⟨taskId, inIds, mapped⟩ := List.mem_filterMap.mp member
  obtain ⟨row, found, rfl⟩ := Option.map_eq_some_iff.mp mapped
  obtain ⟨_, same⟩ := Database.task_mem found
  subst same
  exact ⟨row, found, inIds, rfl⟩

/-- Every claimed id is observed once, in order. -/
theorem claimEvents_taskIds (formed : database.WellFormed)
    (claims : database.Claims now taskIds) :
    (claimEvents database taskIds workerId leaseUntil now).map
      LeaseEvent.taskId = taskIds := by
  have present : ∀ taskId ∈ taskIds, ∃ row, database.task taskId = some row ∧
      row.id = taskId := by
    intro taskId member
    obtain ⟨row, inTable, same, _⟩ := claims.claimable taskId member
    exact ⟨row, same ▸ formed.task_eq inTable, same⟩
  clear claims
  unfold claimEvents
  induction taskIds with
  | nil => rfl
  | cons taskId taskIds induction =>
      obtain ⟨row, found, same⟩ := present taskId List.mem_cons_self
      rw [List.filterMap_cons_some (by rw [found]; rfl), List.map_cons,
        induction fun other member =>
          present other (List.mem_cons_of_mem taskId member)]
      exact congrArg (· :: taskIds) same

theorem currentLease_claimEvents {taskId : String}
    {events : List LeaseEvent}
    (claimed : ∀ event ∈ events, ∃ row,
      event = .claimed row workerId leaseUntil now) :
    ∀ lease, events.foldl (LeaseEvent.track taskId) lease =
      if taskId ∈ events.map LeaseEvent.taskId then some (workerId, leaseUntil)
      else lease := by
  induction events with
  | nil =>
      intro lease
      rfl
  | cons event events induction =>
      intro lease
      obtain ⟨row, rfl⟩ := claimed event List.mem_cons_self
      have later := induction fun other member =>
        claimed other (List.mem_cons_of_mem _ member)
      rw [List.foldl_cons, later, List.map_cons]
      by_cases inRest : taskId ∈ events.map LeaseEvent.taskId
      · rw [if_pos inRest, if_pos (List.mem_cons_of_mem _ inRest)]
      · rw [if_neg inRest]
        by_cases own : row.id = taskId
        · rw [LeaseEvent.track, if_pos own,
            if_pos (by rw [← own]; exact List.mem_cons_self)]
        · rw [LeaseEvent.track, if_neg own, if_neg]
          rw [List.mem_cons]
          rintro (same | later)
          · exact own same.symm
          · exact inRest later

theorem countP_claimEvents (formed : database.WellFormed)
    (claims : database.Claims now taskIds) (taskId : String) :
    (claimEvents database taskIds workerId leaseUntil now).countP
      (LeaseEvent.claims taskId) = if taskId ∈ taskIds then 1 else 0 := by
  have counted : (claimEvents database taskIds workerId leaseUntil now).countP
      (LeaseEvent.claims taskId) =
      ((claimEvents database taskIds workerId leaseUntil now).map
        LeaseEvent.taskId).count taskId := by
    rw [List.count, List.countP_map]
    apply List.countP_congr
    intro event member
    obtain ⟨row, _, _, rfl⟩ := mem_claimEvents member
    simp [LeaseEvent.claims, LeaseEvent.taskId]
  rw [counted, claimEvents_taskIds formed claims]
  split
  next member => exact List.count_eq_one_of_mem claims.nodup member
  next absent => exact List.count_eq_zero.mpr absent

end ClaimEvents

/-! ## The ledger -/

theorem currentLease_eq_none {taskId : String} {events : List LeaseEvent}
    (unclaimed : ∀ event ∈ events, event.claims taskId = false) :
    currentLease taskId events = none := by
  unfold currentLease
  induction events with
  | nil => rfl
  | cons event events induction =>
      have untouched : event.track taskId none = none := by
        cases event with
        | claimed row workerId leaseUntil now =>
            exact if_neg (of_decide_eq_false
              (unclaimed _ List.mem_cons_self))
        | extended extendedId workerId leaseUntil =>
            simp [LeaseEvent.track]
        | recorded recordedId => simp [LeaseEvent.track]
      rw [List.foldl_cons, untouched]
      exact induction fun other member =>
        unclaimed other (List.mem_cons_of_mem event member)

/-- A claim in the record met an open task, and a lease that was still current
had expired. -/
def LawfulClaims (events : List LeaseEvent) : Prop :=
  ∀ before row workerId leaseUntil now after,
    events = before ++ .claimed row workerId leaseUntil now :: after →
    ¬ row.status.Terminal ∧
      ∀ owner expiry, currentLease row.id before = some (owner, expiry) →
        row.leaseExpiresAt = some expiry ∧ expiry < now

/-- What the record says about the committed task rows. -/
structure Ledger (past : List LeaseEvent) (state : State) : Prop where
  tidy : state.Tidy
  attempts : ∀ task ∈ state.database.tasks,
    task.attempt = past.countP (LeaseEvent.claims task.id)
  known : ∀ row workerId leaseUntil now,
    LeaseEvent.claimed row workerId leaseUntil now ∈ past →
    ∃ current, state.database.task row.id = some current
  held : ∀ task ∈ state.database.tasks, ∀ owner expiry,
    currentLease task.id past = some (owner, expiry) →
    task.status = .running ∧ task.leaseOwner = some owner ∧
      task.leaseExpiresAt = some expiry
  lawful : LawfulClaims past

theorem LawfulClaims.append {past events : List LeaseEvent}
    (lawful : LawfulClaims past)
    (later : ∀ before row workerId leaseUntil now after,
      events = before ++ .claimed row workerId leaseUntil now :: after →
      ¬ row.status.Terminal ∧
        ∀ owner expiry,
          currentLease row.id (past ++ before) = some (owner, expiry) →
          row.leaseExpiresAt = some expiry ∧ expiry < now) :
    LawfulClaims (past ++ events) := by
  intro before row workerId leaseUntil now after split
  rcases List.append_eq_append_iff.mp split with
    ⟨middle, shape, rest⟩ | ⟨middle, shape, rest⟩
  · rw [shape]
    exact later middle row workerId leaseUntil now after rest
  · cases middle with
    | nil =>
        rw [List.append_nil] at shape
        rw [← shape]
        have here := later [] row workerId leaseUntil now after
          (by rw [List.nil_append]; exact rest.symm)
        rwa [List.append_nil] at here
    | cons event middle =>
        rw [List.cons_append] at rest
        obtain ⟨same, _⟩ := List.cons.inj rest
        rw [← same] at shape
        exact lawful before row workerId leaseUntil now middle shape

namespace Ledger

variable {deployment : Deployment} {past : List LeaseEvent}
  {state next : State}

/-- Steps that leave the task table alone. -/
private theorem quiet (ledger : Ledger past state) (tidy : next.Tidy)
    (same : next.database.tasks = state.database.tasks) :
    Ledger (past ++ []) next := by
  rw [List.append_nil]
  have lookup : ∀ taskId, next.database.task taskId =
      state.database.task taskId := by
    intro taskId
    unfold Database.task
    rw [same]
  refine ⟨tidy, ?_, ?_, ?_, ledger.lawful⟩
  · rw [same]
    exact ledger.attempts
  · intro row workerId leaseUntil now member
    rw [lookup]
    exact ledger.known row workerId leaseUntil now member
  · rw [same]
    exact ledger.held

private theorem created (ledger : Ledger past state) {intake : Intake}
    {runtime : Runtime}
    (fresh : state.database.unused intake.drawnIds = true)
    (tidy : next.Tidy)
    (inserted : next.database = intake.insertRows runtime state.database) :
    Ledger (past ++ []) next := by
  rw [List.append_nil]
  obtain ⟨_, _, freshTasks, _⟩ := Database.unused_iff.mp fresh
  have unclaimed : ∀ task ∈ intake.tasks, ∀ event ∈ past,
      event.claims task.id = false := by
    intro task new event member
    cases event with
    | claimed row workerId leaseUntil now =>
        obtain ⟨current, found⟩ :=
          ledger.known row workerId leaseUntil now member
        obtain ⟨inTable, same⟩ := Database.task_mem found
        apply decide_eq_false
        intro equal
        apply freshTasks current inTable
        rw [same, equal]
        exact Intake.task_id_mem new
    | extended => rfl
    | recorded => rfl
  refine ⟨tidy, ?_, ?_, ?_, ledger.lawful⟩
  · intro task member
    rw [inserted] at member
    rcases List.mem_append.mp member with old | new
    · exact ledger.attempts task old
    · have zero : task.attempt = 0 := by
        obtain ⟨⟨source, position⟩, _, rfl⟩ := List.mem_map.mp new
        rfl
      rw [zero, eq_comm, List.countP_eq_zero]
      intro event inPast
      rw [unclaimed task new event inPast]
      exact Bool.false_ne_true
  · intro row workerId leaseUntil now member
    obtain ⟨current, found⟩ := ledger.known row workerId leaseUntil now member
    refine ⟨current, ?_⟩
    rw [inserted, Database.insertRows_task, found]
    rfl
  · intro task member owner expiry leased
    rw [inserted] at member
    rcases List.mem_append.mp member with old | new
    · exact ledger.held task old owner expiry leased
    · rw [currentLease_eq_none (unclaimed task new)] at leased
      cases leased

private theorem claimed (ledger : Ledger past state) {taskIds : List String}
    {workerId : String} {leaseUntil now : Time}
    (claims : state.database.Claims now taskIds) (tidy : next.Tidy)
    (marked : next.database =
      state.database.markClaimed taskIds workerId leaseUntil now) :
    Ledger (past ++ claimEvents state.database taskIds workerId leaseUntil now)
      next := by
  have formed := ledger.tidy.tables
  have observed : (claimEvents state.database taskIds workerId leaseUntil
      now).map LeaseEvent.taskId = taskIds :=
    claimEvents_taskIds formed claims
  have revises := Database.markClaimed_revises state.database taskIds workerId
    leaseUntil now
  rw [← marked] at revises
  have leased : ∀ taskId, currentLease taskId (past ++ claimEvents
      state.database taskIds workerId leaseUntil now) =
      if taskId ∈ taskIds then some (workerId, leaseUntil)
      else currentLease taskId past := by
    intro taskId
    unfold currentLease
    rw [List.foldl_append, currentLease_claimEvents, observed]
    intro event member
    obtain ⟨row, _, _, rfl⟩ := mem_claimEvents member
    exact ⟨row, rfl⟩
  refine ⟨tidy, ?_, ?_, ?_, ledger.lawful.append ?_⟩
  · intro task member
    rw [revises.tasks] at member
    obtain ⟨old, oldMember, rfl⟩ := List.mem_map.mp member
    rw [List.countP_append, countP_claimEvents formed claims,
      (revises.taskKey old).1, ← ledger.attempts old oldMember]
    unfold Database.claimRow
    by_cases hit : old.id ∈ taskIds
    · simp [hit, RequestTask.claim]
    · simp [hit]
  · intro row owner until_ at_ member
    rw [revises.task_eq]
    have present : ∃ current, state.database.task row.id = some current := by
      rcases List.mem_append.mp member with old | new
      · exact ledger.known row owner until_ at_ old
      · obtain ⟨other, found, _, same⟩ := mem_claimEvents new
        cases same
        exact ⟨row, found⟩
    obtain ⟨current, found⟩ := present
    exact ⟨_, by rw [found]; rfl⟩
  · intro task member owner expiry current
    rw [revises.tasks] at member
    obtain ⟨old, oldMember, rfl⟩ := List.mem_map.mp member
    rw [(revises.taskKey old).1, leased] at current
    unfold Database.claimRow
    by_cases hit : old.id ∈ taskIds
    · rw [if_pos hit] at current
      cases current
      simp [hit, RequestTask.claim]
    · rw [if_neg hit] at current
      simpa [hit] using ledger.held old oldMember owner expiry current
  · intro before row owner until_ at_ after split
    have member : LeaseEvent.claimed row owner until_ at_ ∈ claimEvents
        state.database taskIds workerId leaseUntil now := by
      rw [split]
      simp
    obtain ⟨other, found, inIds, same⟩ := mem_claimEvents member
    cases same
    obtain ⟨inTable, _⟩ := Database.task_mem found
    obtain ⟨candidate, candidateIn, sameId, claimable⟩ :=
      claims.claimable row.id inIds
    have isRow : candidate = row :=
      formed.taskIds.eq_of_mem candidateIn inTable sameId
    rw [isRow] at claimable
    refine ⟨RequestTask.not_terminal_of_claimable claimable, ?_⟩
    intro owner expiry current
    -- The ids of one statement are distinct, so none of its earlier claims
    -- touched this task.
    have foreign : ∀ event ∈ before, event.taskId ≠ row.id := by
      have distinct := claims.nodup
      rw [← observed, split, List.map_append, List.map_cons,
        List.nodup_append] at distinct
      intro event inBefore same
      exact distinct.2.2 event.taskId (List.mem_map_of_mem inBefore) row.id
        List.mem_cons_self same
    rw [currentLease_append_foreign foreign] at current
    obtain ⟨running, _, expires⟩ :=
      ledger.held row inTable owner expiry current
    refine ⟨expires, ?_⟩
    rcases RequestTask.claimable_iff.mp claimable with
      pending | ⟨_, other, otherExpires, earlier⟩
    · rw [running] at pending
      cases pending
    · rw [expires] at otherExpires
      cases otherExpires
      exact earlier

/-- A revision of the task rows that keeps the attempt counters. -/
private theorem revised (ledger : Ledger past state) (tidy : next.Tidy)
    {event : LeaseEvent} {task : RequestTask → RequestTask}
    {request : PrivacyRequest → PrivacyRequest}
    (revises : Database.Revises state.database next.database task request)
    (attempts : ∀ row, (task row).attempt = row.attempt)
    (unclaimed : ∀ taskId, event.claims taskId = false)
    (held : ∀ old ∈ state.database.tasks, ∀ owner expiry,
      event.track old.id (currentLease old.id past) = some (owner, expiry) →
      (task old).status = .running ∧ (task old).leaseOwner = some owner ∧
        (task old).leaseExpiresAt = some expiry) :
    Ledger (past ++ [event]) next := by
  refine ⟨tidy, ?_, ?_, ?_, ledger.lawful.append ?_⟩
  · intro row member
    rw [revises.tasks] at member
    obtain ⟨old, oldMember, rfl⟩ := List.mem_map.mp member
    rw [List.countP_append, attempts, (revises.taskKey old).1,
      List.countP_singleton, unclaimed]
    exact ledger.attempts old oldMember
  · intro row workerId leaseUntil now member
    rcases List.mem_append.mp member with old | new
    · obtain ⟨current, found⟩ := ledger.known row workerId leaseUntil now old
      exact ⟨_, by rw [revises.task_eq, found]; rfl⟩
    · have isClaim := unclaimed row.id
      rw [← List.mem_singleton.mp new] at isClaim
      simp [LeaseEvent.claims] at isClaim
  · intro row member owner expiry current
    rw [revises.tasks] at member
    obtain ⟨old, oldMember, rfl⟩ := List.mem_map.mp member
    apply held old oldMember owner expiry
    rw [(revises.taskKey old).1] at current
    unfold currentLease at current
    rwa [List.foldl_append] at current
  · intro before row workerId leaseUntil now after split
    have member : LeaseEvent.claimed row workerId leaseUntil now ∈ [event] := by
      rw [split]
      simp
    have isClaim := unclaimed row.id
    rw [← List.mem_singleton.mp member] at isClaim
    simp [LeaseEvent.claims] at isClaim

private theorem recorded (ledger : Ledger past state) (tidy : next.Tidy)
    {taskId : String} {executor : Bool} {work : Work} {task : RequestTask}
    {request : PrivacyRequest} {now : Time} (same : task.id = taskId)
    (written : next.database = recordOutcome deployment.runtime
      deployment.settings executor work task request now state.database) :
    Ledger (past ++ [.recorded taskId]) next := by
  have revises := Database.recordOutcome_revises deployment.runtime
    deployment.settings executor work task request now state.database
  rw [← written] at revises
  refine ledger.revised tidy revises ?_ (fun _ => rfl) ?_
  · intro row
    unfold Database.recordRow
    split
    next => simp [RequestTask.flush]
    next => rfl
  · intro old oldMember owner expiry current
    by_cases own : taskId = old.id
    · simp [LeaseEvent.track, own] at current
    · rw [LeaseEvent.track, if_neg own] at current
      have other : ¬ old.id = task.id := fun equal =>
        own (same.symm.trans equal.symm)
      simpa [Database.recordRow, other] using
        ledger.held old oldMember owner expiry current

private theorem extended (ledger : Ledger past state) (tidy : next.Tidy)
    {workerId taskId : String} {now : Time}
    (written : next.database = extendTaskLease deployment.settings workerId
      taskId now state.database) :
    Ledger (past ++ observeLeases deployment state
      (.extendLease workerId taskId now)) next := by
  have revises := Database.extendTaskLease_revises deployment.settings workerId
    taskId now state.database
  rw [← written] at revises
  by_cases matched : (state.database.tasks.any fun task =>
      decide (task.id = taskId) && task.leasedBy workerId) = true
  · simp only [observeLeases, if_pos matched]
    refine ledger.revised tidy revises ?_ (fun _ => rfl) ?_
    · intro row
      exact Database.extendRow_attempt _ _ _ row
    · intro old oldMember owner expiry current
      by_cases own : taskId = old.id
      · -- The matched row is this one, and its owner is the extending worker.
        obtain ⟨row, inTable, hit⟩ := Database.matches_iff.mp matched
        have isOld : row = old := ledger.tidy.tables.taskIds.eq_of_mem inTable
          oldMember (hit.1.trans own)
        rw [isOld] at hit
        obtain ⟨running, owned⟩ := RequestTask.leasedBy_iff.mp hit.2
        rw [LeaseEvent.track, if_pos own] at current
        obtain ⟨⟨holder, until_⟩, leased, renewed⟩ :=
          Option.map_eq_some_iff.mp current
        obtain ⟨_, holds, _⟩ := ledger.held old oldMember holder until_ leased
        have sameOwner : workerId = holder :=
          Option.some.inj (owned.symm.trans holds)
        rw [if_pos sameOwner.symm] at renewed
        cases renewed
        have extends_ : (decide (old.id = taskId) &&
            old.leasedBy workerId) = true := by
          simp [own, hit.2]
        rw [Database.extendRow, if_pos extends_]
        exact ⟨running, sameOwner ▸ owned, rfl⟩
      · rw [LeaseEvent.track, if_neg own] at current
        have other : ¬ old.id = taskId := fun equal => own equal.symm
        simpa [Database.extendRow, other] using
          ledger.held old oldMember owner expiry current
  · have unmatched : ∀ row ∈ state.database.tasks,
        (decide (row.id = taskId) && row.leasedBy workerId) = false := by
      intro row member
      exact Bool.eq_false_iff.mpr
        (List.any_eq_false.mp (Bool.eq_false_iff.mpr matched) row member)
    simp only [observeLeases, if_neg matched]
    apply ledger.quiet tidy
    rw [written]
    exact Table.updateWhere_eq_self unmatched

theorem step {action : Action} (ledger : Ledger past state)
    (stepped : FleetPrivacy.step deployment state action = some next) :
    Ledger (past ++ observeLeases deployment state action) next := by
  have tidy := ledger.tidy.step stepped
  cases effect_of_step ledger.tidy.tables.taskIds stepped with
  | created intake nodup fresh absent => exact ledger.created fresh tidy rfl
  | relayed action relays extra outbox move =>
      rw [observeLeases_relayed move]
      exact ledger.quiet tidy rfl
  | opened | locked | selected | acked => exact ledger.quiet tidy rfl
  | moved action index call after artifacts found move =>
      rw [observeLeases_moved deployment found move]
      exact ledger.quiet tidy rfl
  | messageClaimed index call taskId now found phase claims startable =>
      rw [observeLeases_messageClaimed deployment found phase claims]
      exact ledger.claimed claims tidy rfl
  | batchClaimed arguments session taskIds selected claims copies requests
      members startable =>
      simp only [observeLeases, selected]
      exact ledger.claimed claims tidy rfl
  | recorded index call taskId work task request now found phase held
      requestHeld free =>
      have same := ledger.tidy.keyed call (List.mem_of_getElem? found) taskId
        task held
      rw [observeLeases_recorded deployment found phase]
      exact ledger.recorded tidy same rfl
  | refreshed index call requestId own reference request noticeId now found
      phase held uploaded fresh =>
      exact ledger.quiet tidy (Database.commitRefresh_tasks ..)
  | extended workerId taskId now => exact ledger.extended tidy rfl

theorem initial : Ledger [] State.initial := by
  refine ⟨State.tidy_initial, ?_, ?_, ?_, ?_⟩
  · intro task member
    cases member
  · intro row workerId leaseUntil now member
    cases member
  · intro task member
    cases member
  · intro before row workerId leaseUntil now after split
    simp at split

end Ledger

/-- Lease exclusivity and attempt accounting, for the events of a run. -/
structure LeaseAccounting (events : List LeaseEvent) (state : State) :
    Prop where
  /-- The attempt column counts the successful claims. -/
  attempts : ∀ task ∈ state.database.tasks,
    task.attempt = events.countP (LeaseEvent.claims task.id)
  /-- No claim succeeds on a finished task. -/
  unfinished : ∀ row workerId leaseUntil now,
    LeaseEvent.claimed row workerId leaseUntil now ∈ events →
    ¬ row.status.Terminal
  /-- Between two successive claims an outcome was committed, or the lease that
  the second one found had expired. -/
  exclusive : ∀ before first owner leaseUntil start middle second workerId
      nextUntil now after,
    events = before ++ .claimed first owner leaseUntil start ::
      (middle ++ .claimed second workerId nextUntil now :: after) →
    first.id = second.id →
    (∀ event ∈ middle, event.claims second.id = false) →
    LeaseEvent.recorded second.id ∈ middle ∨
      second.leaseExpiresAt =
          some (leaseSince second.id owner leaseUntil middle) ∧
        leaseSince second.id owner leaseUntil middle < now

theorem Ledger.accounting {past : List LeaseEvent} {state : State}
    (ledger : Ledger past state) : LeaseAccounting past state := by
  refine ⟨ledger.attempts, ?_, ?_⟩
  · intro row workerId leaseUntil now member
    obtain ⟨before, after, split⟩ := List.append_of_mem member
    exact (ledger.lawful before row workerId leaseUntil now after split).1
  · intro before first owner leaseUntil start middle second workerId nextUntil
      now after split same successive
    by_cases outcome : LeaseEvent.recorded second.id ∈ middle
    · exact .inl outcome
    · right
      have tracked : currentLease second.id
          (before ++ .claimed first owner leaseUntil start :: middle) =
          some (owner, leaseSince second.id owner leaseUntil middle) := by
        unfold currentLease
        rw [List.foldl_append, List.foldl_cons, LeaseEvent.track, if_pos same]
        exact track_since leaseUntil successive outcome
      have shape : past = (before ++ .claimed first owner leaseUntil start ::
          middle) ++ .claimed second workerId nextUntil now :: after := by
        rw [split, List.append_assoc, List.cons_append]
      exact (ledger.lawful _ second workerId nextUntil now after shape).2 _ _
        tracked

/-- In every run, however workers crash, leases run out and messages are
delivered again, the leases of a task exclude each other and its attempt column
counts its claims. -/
theorem leases_exclude_and_attempts_count (deployment : Deployment)
    {actions : List Action} {state : State}
    (execution : Runs (step deployment) Always State.initial actions state) :
    LeaseAccounting (history (step deployment) (observeLeases deployment)
      State.initial actions) state := by
  have preserved : ∀ {past : List LeaseEvent} {before : State}
      {action : Action} {after : State}, Ledger past before →
      Always before action → step deployment before action = some after →
      Ledger (past ++ observeLeases deployment before action) after :=
    fun ledger _ stepped => ledger.step stepped
  have reached := execution.invariant_with_history preserved Ledger.initial
  exact reached.accounting

/-! A worker extends its lease and loses it; another one takes over. -/

private def takenOver : List Action :=
  [.create demoRequest, .processOnce (demoClaim "w1" 0),
    .extendLease "w1" "aa" 10, .processOnce (demoClaim "w2" 100)]

theorem taken_over_task_is_accounted :
    ∃ state, Runs (step demoDeployment) Always State.initial takenOver state ∧
      state.database.tasks.map RequestTask.attempt = [2] ∧
      LeaseAccounting (history (step demoDeployment)
        (observeLeases demoDeployment) State.initial takenOver) state := by
  have evaluated : (run (step demoDeployment) Always State.initial
      takenOver).map (fun state =>
        state.database.tasks.map RequestTask.attempt) = some [2] := by
    decide +kernel
  obtain ⟨state, result, attempts⟩ := Option.map_eq_some_iff.mp evaluated
  have execution := runs_of_run result
  exact ⟨state, execution, attempts,
    leases_exclude_and_attempts_count demoDeployment execution⟩

end FleetPrivacy
