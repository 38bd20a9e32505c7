import FleetPrivacy.Library.Transition
import FleetPrivacy.Requests

/-!
# Concurrent intake under one idempotency key

Any number of `create_privacy_request` calls, each split at its statements:
the lookup, the flush that meets the unique constraint on
`(tenant_id, idempotency_key)`, the commit, the second lookup after an
`IntegrityError`, and the return.  A call may be cut off anywhere.
-/

namespace FleetPrivacy

open Transition

inductive IntakePhase where
  /-- Before `_find_by_idempotency`. -/
  | started
  /-- The lookup found nothing; the flush is next. -/
  | absent
  /-- The rows are inserted and not yet committed. -/
  | flushed
  /-- `IntegrityError` was caught and the transaction rolled back. -/
  | violated
  /-- Committed; `get_privacy_request` is next. -/
  | committed
  | returned (requestId : String) (created : Bool)
  /-- `IdempotencyConflict`. -/
  | conflict
  /-- The `IntegrityError` was raised again. -/
  | raised
  | aborted (committed : Bool)
  deriving DecidableEq

structure IntakeCall where
  intake : Intake
  phase : IntakePhase

structure IntakeState where
  database : Database
  calls : List IntakeCall

def IntakeState.initial : IntakeState :=
  { database := .empty, calls := [] }

inductive IntakeStep where
  | call (intake : Intake)
  | lookup (index : Nat)
  | flush (index : Nat)
  | commit (index : Nat)
  | lookupAgain (index : Nat)
  | finish (index : Nat)
  | abort (index : Nat)

def Intake.sameKey (first second : Intake) : Bool :=
  decide (first.tenantId = second.tenantId ∧
    first.idempotencyKey = second.idempotencyKey)

def IntakeState.advance (state : IntakeState) (index : Nat) (call : IntakeCall)
    (phase : IntakePhase) : IntakeState :=
  { state with calls := state.calls.set index { call with phase } }

/-- The ids of a new call occur in no earlier one: `uuid4` never repeats. -/
def IntakeState.freshFor (state : IntakeState) (intake : Intake) : Bool :=
  decide intake.drawnIds.Nodup &&
    state.calls.all fun call =>
      call.intake.drawnIds.all fun id => !intake.drawnIds.contains id

/-- Another call has inserted the key and not yet ended its transaction. -/
def IntakeState.keyInFlight (state : IntakeState) (index : Nat)
    (intake : Intake) : Bool :=
  (List.range state.calls.length).any fun other =>
    decide (other ≠ index) &&
      match state.calls[other]? with
      | some call =>
          decide (call.phase = .flushed) && intake.sameKey call.intake
      | none => false

/-- What the call does with the row that a lookup returned. -/
def IntakeCall.replay (runtime : Runtime) (call : IntakeCall)
    (existing : PrivacyRequest) : IntakePhase :=
  if sameCommand runtime existing call.intake.command then
    .returned existing.id false
  else .conflict

def intakeStep (runtime : Runtime) (state : IntakeState) :
    IntakeStep → Option IntakeState
  | .call intake =>
      if state.freshFor intake then
        some { state with calls := state.calls ++ [⟨intake, .started⟩] }
      else none
  | .lookup index =>
      match state.calls[index]? with
      | some call =>
          if call.phase = .started then
            match findByIdempotency state.database call.intake.tenantId
                call.intake.idempotencyKey with
            | some existing =>
                some (state.advance index call (call.replay runtime existing))
            | none => some (state.advance index call .absent)
          else none
      | none => none
  | .flush index =>
      match state.calls[index]? with
      | some call =>
          if call.phase = .absent ∧
              state.keyInFlight index call.intake = false then
            match findByIdempotency state.database call.intake.tenantId
                call.intake.idempotencyKey with
            | some _ => some (state.advance index call .violated)
            | none => some (state.advance index call .flushed)
          else none
      | none => none
  | .commit index =>
      match state.calls[index]? with
      | some call =>
          if call.phase = .flushed then
            some { (state.advance index call .committed) with
              database := call.intake.insertRows runtime state.database }
          else none
      | none => none
  | .lookupAgain index =>
      match state.calls[index]? with
      | some call =>
          if call.phase = .violated then
            match findByIdempotency state.database call.intake.tenantId
                call.intake.idempotencyKey with
            | some existing =>
                some (state.advance index call (call.replay runtime existing))
            | none => some (state.advance index call .raised)
          else none
      | none => none
  | .finish index =>
      match state.calls[index]? with
      | some call =>
          if call.phase = .committed then
            some (state.advance index call
              (.returned (call.intake.fresh.ids 0) true))
          else none
      | none => none
  | .abort index =>
      match state.calls[index]? with
      | some call =>
          match call.phase with
          | .started | .absent | .flushed | .violated =>
              some (state.advance index call (.aborted false))
          | .committed => some (state.advance index call (.aborted true))
          | _ => none
      | none => none

/-! ## What a step can do -/

/-- The call has committed its rows. -/
def IntakePhase.HasCommitted : IntakePhase → Prop
  | .committed | .returned _ true | .aborted true => True
  | _ => False

/-- The effect of one step on the call table and the database. -/
inductive IntakeEffect (runtime : Runtime) (state : IntakeState) :
    IntakeState → Prop where
  | opened (intake : Intake) :
      state.freshFor intake = true →
      IntakeEffect runtime state
        { state with calls := state.calls ++ [⟨intake, .started⟩] }
  | moved (index : Nat) (call : IntakeCall) (phase : IntakePhase) :
      state.calls[index]? = some call →
      (phase.HasCommitted ↔ call.phase.HasCommitted) →
      (phase = .flushed →
        findByIdempotency state.database call.intake.tenantId
            call.intake.idempotencyKey = none ∧
          state.keyInFlight index call.intake = false) →
      (phase = .violated →
        (findByIdempotency state.database call.intake.tenantId
          call.intake.idempotencyKey).isSome) →
      (phase = .raised → call.phase = .violated ∧
        findByIdempotency state.database call.intake.tenantId
          call.intake.idempotencyKey = none) →
      (∀ requestId, phase = .returned requestId true →
        requestId = call.intake.fresh.ids 0) →
      (∀ requestId, phase = .returned requestId false →
        ∃ existing, findByIdempotency state.database call.intake.tenantId
            call.intake.idempotencyKey = some existing ∧
          existing.id = requestId ∧
          sameCommand runtime existing call.intake.command = true) →
      IntakeEffect runtime state (state.advance index call phase)
  | committed (index : Nat) (call : IntakeCall) :
      state.calls[index]? = some call →
      call.phase = .flushed →
      IntakeEffect runtime state { (state.advance index call .committed) with
        database := call.intake.insertRows runtime state.database }

private theorem replay_ne_flushed (runtime : Runtime) (call : IntakeCall)
    (existing : PrivacyRequest) :
    call.replay runtime existing = .returned existing.id false ∧
        sameCommand runtime existing call.intake.command = true ∨
      call.replay runtime existing = .conflict := by
  unfold IntakeCall.replay
  split
  next same => exact .inl ⟨rfl, same⟩
  next => exact .inr rfl

/-- A lookup that finds a row either returns it or raises the conflict. -/
private theorem effect_of_replay {runtime : Runtime} {state : IntakeState}
    {index : Nat} {call : IntakeCall} {existing : PrivacyRequest}
    (found : state.calls[index]? = some call)
    (pending : ¬ call.phase.HasCommitted)
    (located : findByIdempotency state.database call.intake.tenantId
      call.intake.idempotencyKey = some existing) :
    IntakeEffect runtime state
      (state.advance index call (call.replay runtime existing)) := by
  rcases replay_ne_flushed runtime call existing with ⟨returned, same⟩ | conflict
  · rw [returned]
    refine .moved index call _ found ?_ (by simp) (by simp) (by simp)
      (by simp) ?_
    · exact iff_of_false id pending
    · intro requestId equality
      cases equality
      exact ⟨existing, located, rfl, same⟩
  · rw [conflict]
    refine .moved index call _ found ?_ (by simp) (by simp) (by simp)
      (by simp) (by simp)
    exact iff_of_false id pending

theorem intakeEffect_of_step {runtime : Runtime} {state next : IntakeState}
    {action : IntakeStep}
    (stepped : intakeStep runtime state action = some next) :
    IntakeEffect runtime state next := by
  cases action with
  | call intake =>
      simp only [intakeStep] at stepped
      split at stepped
      next fresh => cases stepped; exact .opened intake fresh
      next => cases stepped
  | lookup index =>
      simp only [intakeStep] at stepped
      split at stepped
      next call found =>
        split at stepped
        next phase =>
          have pending : ¬ call.phase.HasCommitted := by
            simp [phase, IntakePhase.HasCommitted]
          split at stepped
          next existing located =>
            cases stepped
            exact effect_of_replay found pending located
          next =>
            cases stepped
            refine .moved index call _ found ?_ (by simp) (by simp) (by simp)
              (by simp) (by simp)
            exact iff_of_false id pending
        next => cases stepped
      next => cases stepped
  | flush index =>
      simp only [intakeStep] at stepped
      split at stepped
      next call found =>
        split at stepped
        next guards =>
          have pending : ¬ call.phase.HasCommitted := by
            simp [guards.1, IntakePhase.HasCommitted]
          split at stepped
          next existing located =>
            cases stepped
            refine .moved index call _ found ?_ (by simp) ?_ (by simp)
              (by simp) (by simp)
            · exact iff_of_false id pending
            · intro _
              simp [located]
          next missing =>
            cases stepped
            refine .moved index call _ found ?_ ?_ (by simp) (by simp)
              (by simp) (by simp)
            · exact iff_of_false id pending
            · intro _
              exact ⟨missing, guards.2⟩
        next => cases stepped
      next => cases stepped
  | commit index =>
      simp only [intakeStep] at stepped
      split at stepped
      next call found =>
        split at stepped
        next phase => cases stepped; exact .committed index call found phase
        next => cases stepped
      next => cases stepped
  | lookupAgain index =>
      simp only [intakeStep] at stepped
      split at stepped
      next call found =>
        split at stepped
        next phase =>
          have pending : ¬ call.phase.HasCommitted := by
            simp [phase, IntakePhase.HasCommitted]
          split at stepped
          next existing located =>
            cases stepped
            exact effect_of_replay found pending located
          next missing =>
            cases stepped
            refine .moved index call _ found ?_ (by simp) (by simp) ?_
              (by simp) (by simp)
            · exact iff_of_false id pending
            · intro _
              exact ⟨phase, missing⟩
        next => cases stepped
      next => cases stepped
  | finish index =>
      simp only [intakeStep] at stepped
      split at stepped
      next call found =>
        split at stepped
        next phase =>
          cases stepped
          refine .moved index call _ found ?_ (by simp) (by simp) (by simp) ?_
            (by simp)
          · simp [IntakePhase.HasCommitted, phase]
          · intro requestId equality
            cases equality
            rfl
        next => cases stepped
      next => cases stepped
  | abort index =>
      simp only [intakeStep] at stepped
      split at stepped
      next call found =>
        split at stepped
        all_goals
          first
          | (cases stepped
             refine .moved index call _ found ?_ (by simp) (by simp) (by simp)
               (by simp) (by simp)
             simp [IntakePhase.HasCommitted, *])
          | cases stepped
      next => cases stepped

/-! ## The committed tables as a sequence of intakes -/

/-- Two committed intakes share no id and no idempotency key. -/
def Intake.Separate (first second : Intake) : Prop :=
  (∀ id ∈ first.drawnIds, id ∉ second.drawnIds) ∧
    first.sameKey second = false

/-- The committed tables are the rows of `order`, one intake after another. -/
structure Database.Comprises (runtime : Runtime) (database : Database)
    (order : List Intake) : Prop where
  requests : database.requests = order.map (Intake.request runtime)
  tasks : database.tasks = order.flatMap Intake.tasks
  outbox : database.outbox = order.flatMap Intake.events
  audit : database.audit.map (fun event => (event.requestId, event.action)) =
    order.map fun intake =>
      (intake.fresh.ids 0, AuditAction.requestCreated.value)

/-- The invariant of all interleavings, for the intakes committed so far. -/
structure IntakeState.Sound (runtime : Runtime) (state : IntakeState)
    (order : List Intake) : Prop where
  comprises : state.database.Comprises runtime order
  separate : order.Pairwise Intake.Separate
  nodup : ∀ (index : Nat) (call : IntakeCall),
    state.calls[index]? = some call → call.intake.drawnIds.Nodup
  distinct : ∀ (first second : Nat) (left right : IntakeCall),
    state.calls[first]? = some left → state.calls[second]? = some right →
    first ≠ second →
    ∀ id ∈ left.intake.drawnIds, id ∉ right.intake.drawnIds
  recorded : ∀ (index : Nat) (call : IntakeCall),
    state.calls[index]? = some call → call.phase.HasCommitted →
    call.intake ∈ order
  origin : ∀ intake ∈ order, ∃ (index : Nat) (call : IntakeCall),
    state.calls[index]? = some call ∧ call.intake = intake ∧
      call.phase.HasCommitted
  flushedNew : ∀ (index : Nat) (call : IntakeCall),
    state.calls[index]? = some call → call.phase = .flushed →
    ∀ other ∈ order, call.intake.sameKey other = false
  flushedAlone : ∀ (first second : Nat) (left right : IntakeCall),
    state.calls[first]? = some left → state.calls[second]? = some right →
    first ≠ second → left.phase = .flushed → right.phase = .flushed →
    left.intake.sameKey right.intake = false
  violatedKnown : ∀ (index : Nat) (call : IntakeCall),
    state.calls[index]? = some call → call.phase = .violated →
    ∃ other ∈ order, call.intake.sameKey other = true
  notRaised : ∀ (index : Nat) (call : IntakeCall),
    state.calls[index]? = some call → call.phase ≠ .raised
  returnedOwn : ∀ (index : Nat) (call : IntakeCall) (requestId : String),
    state.calls[index]? = some call →
    call.phase = .returned requestId true →
    requestId = call.intake.fresh.ids 0
  returnedKnown : ∀ (index : Nat) (call : IntakeCall) (requestId : String),
    state.calls[index]? = some call →
    call.phase = .returned requestId false →
    ∃ other ∈ order, call.intake.sameKey other = true ∧
      other.fresh.ids 0 = requestId ∧
      sameCommand runtime (other.request runtime) call.intake.command = true

theorem Intake.sameKey_comm (first second : Intake) :
    first.sameKey second = second.sameKey first := by
  simp [Intake.sameKey, eq_comm]

theorem Intake.sameKey_self (intake : Intake) :
    intake.sameKey intake = true := by
  simp [Intake.sameKey]

/-- The lookup sees exactly the committed intakes with the call's key. -/
theorem Database.Comprises.findByIdempotency_eq_some {runtime : Runtime}
    {database : Database} {order : List Intake}
    (comprises : database.Comprises runtime order) {intake : Intake}
    {existing : PrivacyRequest}
    (located : findByIdempotency database intake.tenantId
      intake.idempotencyKey = some existing) :
    ∃ other ∈ order, intake.sameKey other = true ∧
      existing = other.request runtime := by
  have member := List.mem_of_find?_eq_some located
  have matching : existing.tenantId = intake.tenantId ∧
      existing.idempotencyKey = intake.idempotencyKey := by
    simpa using List.find?_some located
  rw [comprises.requests] at member
  obtain ⟨other, otherMember, rfl⟩ := List.mem_map.mp member
  refine ⟨other, otherMember, ?_, rfl⟩
  exact decide_eq_true ⟨matching.1.symm, matching.2.symm⟩

theorem Database.Comprises.findByIdempotency_eq_none {runtime : Runtime}
    {database : Database} {order : List Intake}
    (comprises : database.Comprises runtime order) {intake : Intake}
    (missing : findByIdempotency database intake.tenantId
      intake.idempotencyKey = none) :
    ∀ other ∈ order, intake.sameKey other = false := by
  intro other member
  have row : other.request runtime ∈ database.requests := by
    rw [comprises.requests]
    exact List.mem_map_of_mem member
  have mismatch := List.find?_eq_none.mp missing _ row
  apply decide_eq_false
  rintro ⟨tenants, keys⟩
  exact mismatch (decide_eq_true ⟨tenants.symm, keys.symm⟩)

theorem IntakeState.keyInFlight_eq_false {state : IntakeState} {index : Nat}
    {intake : Intake} (free : state.keyInFlight index intake = false)
    {other : Nat} {call : IntakeCall} (different : other ≠ index)
    (found : state.calls[other]? = some call)
    (flushed : call.phase = .flushed) :
    intake.sameKey call.intake = false := by
  have bound : other < state.calls.length := by
    by_contra outside
    rw [List.getElem?_eq_none (Nat.le_of_not_lt outside)] at found
    cases found
  have silent := List.any_eq_false.mp free other (List.mem_range.mpr bound)
  simpa [different, found, flushed] using silent

theorem Database.Comprises.insertRows {runtime : Runtime}
    {database : Database} {order : List Intake}
    (comprises : database.Comprises runtime order) (intake : Intake) :
    (intake.insertRows runtime database).Comprises runtime
      (order ++ [intake]) := by
  constructor
  · simp [Intake.insertRows, comprises.requests]
  · simp [Intake.insertRows, comprises.tasks]
  · simp [Intake.insertRows, comprises.outbox]
  · simp [Intake.insertRows, appendAudit, auditRow, comprises.audit]

/-- What the invariant says of a single call. -/
structure IntakeCall.Sound (runtime : Runtime) (order : List Intake)
    (call : IntakeCall) : Prop where
  nodup : call.intake.drawnIds.Nodup
  recorded : call.phase.HasCommitted → call.intake ∈ order
  flushedNew : call.phase = .flushed →
    ∀ other ∈ order, call.intake.sameKey other = false
  violatedKnown : call.phase = .violated →
    ∃ other ∈ order, call.intake.sameKey other = true
  notRaised : call.phase ≠ .raised
  returnedOwn : ∀ requestId, call.phase = .returned requestId true →
    requestId = call.intake.fresh.ids 0
  returnedKnown : ∀ requestId, call.phase = .returned requestId false →
    ∃ other ∈ order, call.intake.sameKey other = true ∧
      other.fresh.ids 0 = requestId ∧
      sameCommand runtime (other.request runtime) call.intake.command = true

/-- Another intake commits; a flushed call has another key. -/
theorem IntakeCall.Sound.append {runtime : Runtime} {order : List Intake}
    {call : IntakeCall} (sound : call.Sound runtime order) {intake : Intake}
    (apart : call.phase = .flushed → call.intake.sameKey intake = false) :
    call.Sound runtime (order ++ [intake]) := by
  refine ⟨sound.nodup, ?_, ?_, ?_, sound.notRaised, sound.returnedOwn, ?_⟩
  · intro committed
    exact List.mem_append_left _ (sound.recorded committed)
  · intro flushed other member
    rcases List.mem_append.mp member with earlier | isLast
    · exact sound.flushedNew flushed other earlier
    · rw [List.mem_singleton.mp isLast]
      exact apart flushed
  · intro violated
    obtain ⟨known, member, key⟩ := sound.violatedKnown violated
    exact ⟨known, List.mem_append_left _ member, key⟩
  · intro requestId returned
    obtain ⟨known, member, rest⟩ := sound.returnedKnown requestId returned
    exact ⟨known, List.mem_append_left _ member, rest⟩

theorem IntakeCall.sound_started {intake : Intake}
    (nodup : intake.drawnIds.Nodup) (runtime : Runtime)
    (order : List Intake) :
    IntakeCall.Sound runtime order ⟨intake, .started⟩ := by
  refine ⟨nodup, False.elim, ?_, ?_, ?_, ?_, ?_⟩
  · intro flushed
    cases flushed
  · intro violated
    cases violated
  · intro raised
    cases raised
  · intro requestId returned
    cases returned
  · intro requestId returned
    cases returned

namespace IntakeState.Sound

variable {runtime : Runtime} {state : IntakeState} {order : List Intake}

theorem call (sound : state.Sound runtime order) {index : Nat}
    {call : IntakeCall} (found : state.calls[index]? = some call) :
    call.Sound runtime order :=
  ⟨sound.nodup index call found, sound.recorded index call found,
    sound.flushedNew index call found, sound.violatedKnown index call found,
    sound.notRaised index call found,
    fun requestId => sound.returnedOwn index call requestId found,
    fun requestId => sound.returnedKnown index call requestId found⟩

theorem of_calls (comprises : state.database.Comprises runtime order)
    (separate : order.Pairwise Intake.Separate)
    (distinct : ∀ (first second : Nat) (left right : IntakeCall),
      state.calls[first]? = some left → state.calls[second]? = some right →
      first ≠ second →
      ∀ id ∈ left.intake.drawnIds, id ∉ right.intake.drawnIds)
    (origin : ∀ intake ∈ order, ∃ (index : Nat) (call : IntakeCall),
      state.calls[index]? = some call ∧ call.intake = intake ∧
        call.phase.HasCommitted)
    (alone : ∀ (first second : Nat) (left right : IntakeCall),
      state.calls[first]? = some left → state.calls[second]? = some right →
      first ≠ second → left.phase = .flushed → right.phase = .flushed →
      left.intake.sameKey right.intake = false)
    (calls : ∀ (index : Nat) (call : IntakeCall),
      state.calls[index]? = some call → call.Sound runtime order) :
    state.Sound runtime order where
  comprises := comprises
  separate := separate
  nodup index call found := (calls index call found).nodup
  distinct := distinct
  recorded index call found := (calls index call found).recorded
  origin := origin
  flushedNew index call found := (calls index call found).flushedNew
  flushedAlone := alone
  violatedKnown index call found := (calls index call found).violatedKnown
  notRaised index call found := (calls index call found).notRaised
  returnedOwn index call requestId found :=
    (calls index call found).returnedOwn requestId
  returnedKnown index call requestId found :=
    (calls index call found).returnedKnown requestId

theorem opened (sound : state.Sound runtime order) {intake : Intake}
    (fresh : state.freshFor intake = true) :
    IntakeState.Sound runtime
      { state with calls := state.calls ++ [⟨intake, .started⟩] } order := by
  simp only [IntakeState.freshFor, Bool.and_eq_true, decide_eq_true_eq,
    List.all_eq_true, Bool.not_eq_true', List.contains_eq_mem,
    decide_eq_false_iff_not] at fresh
  obtain ⟨nodup, apart⟩ := fresh
  have lookup : ∀ other, (state.calls ++ [⟨intake, .started⟩])[other]? =
      if other = state.calls.length then some ⟨intake, .started⟩
      else state.calls[other]? :=
    fun other => getElem?_append_slot _ _ other
  have old : ∀ (other : Nat) (call : IntakeCall),
      (state.calls ++ [⟨intake, .started⟩])[other]? = some call →
      call = ⟨intake, .started⟩ ∨ state.calls[other]? = some call := by
    intro other call found
    rw [lookup] at found
    split at found
    next => exact .inl (Option.some.inj found).symm
    next => exact .inr found
  refine .of_calls sound.comprises sound.separate ?_ ?_ ?_ ?_
  · intro first second left right leftFound rightFound different id member
    simp only [lookup] at leftFound rightFound
    split at leftFound
    next firstNew =>
      cases leftFound
      split at rightFound
      next secondNew => exact absurd (firstNew.trans secondNew.symm) different
      next =>
        intro shared
        exact apart right (List.mem_of_getElem? rightFound) id shared member
    next =>
      split at rightFound
      next =>
        cases rightFound
        exact apart left (List.mem_of_getElem? leftFound) id member
      next =>
        exact sound.distinct first second left right leftFound rightFound
          different id member
  · intro other member
    obtain ⟨index, call, found, same, committed⟩ := sound.origin other member
    refine ⟨index, call, ?_, same, committed⟩
    have bound := (List.getElem?_eq_some_iff.mp found).1
    rw [lookup, if_neg (Nat.ne_of_lt bound)]
    exact found
  · intro first second left right leftFound rightFound different leftFlushed
      rightFlushed
    rcases old first left leftFound with new | leftBefore
    · rw [new] at leftFlushed
      cases leftFlushed
    rcases old second right rightFound with new | rightBefore
    · rw [new] at rightFlushed
      cases rightFlushed
    exact sound.flushedAlone first second left right leftBefore rightBefore
      different leftFlushed rightFlushed
  · intro index call found
    rcases old index call found with new | before
    · rw [new]
      exact IntakeCall.sound_started nodup runtime order
    · exact sound.call before

private theorem advance_calls {index : Nat} {call : IntakeCall}
    (found : state.calls[index]? = some call) (phase : IntakePhase)
    (other : Nat) :
    (state.advance index call phase).calls[other]? =
      if other = index then some { call with phase } else state.calls[other]? :=
  getElem?_set_slot found _ other

/-- Only the moved call has another phase. -/
private theorem advance_cases {index : Nat} {call : IntakeCall}
    (found : state.calls[index]? = some call) {phase : IntakePhase}
    {other : Nat} {current : IntakeCall}
    (after : (state.advance index call phase).calls[other]? = some current) :
    other = index ∧ current = { call with phase } ∨
      other ≠ index ∧ state.calls[other]? = some current := by
  rw [advance_calls found] at after
  split at after
  next same => exact .inl ⟨same, (Option.some.inj after).symm⟩
  next different => exact .inr ⟨different, after⟩

/-- Calls keep their drawn ids. -/
private theorem advance_distinct (sound : state.Sound runtime order)
    {index : Nat} {call : IntakeCall}
    (found : state.calls[index]? = some call) (phase : IntakePhase)
    (first second : Nat) (left right : IntakeCall)
    (leftAfter : (state.advance index call phase).calls[first]? = some left)
    (rightAfter : (state.advance index call phase).calls[second]? = some right)
    (different : first ≠ second) :
    ∀ id ∈ left.intake.drawnIds, id ∉ right.intake.drawnIds := by
  have before : ∀ {slot : Nat} {current : IntakeCall},
      (state.advance index call phase).calls[slot]? = some current →
      ∃ old, state.calls[slot]? = some old ∧ current.intake = old.intake := by
    intro slot current after
    rcases advance_cases found after with ⟨here, new⟩ | ⟨_, kept⟩
    · rw [here, new]
      exact ⟨call, found, rfl⟩
    · exact ⟨current, kept, rfl⟩
  obtain ⟨leftOld, leftFound, leftSame⟩ := before leftAfter
  obtain ⟨rightOld, rightFound, rightSame⟩ := before rightAfter
  rw [leftSame, rightSame]
  exact sound.distinct first second leftOld rightOld leftFound rightFound
    different

/-- The moved call in its new phase. -/
private theorem moved_call (sound : state.Sound runtime order) {index : Nat}
    {call : IntakeCall} {phase : IntakePhase}
    (found : state.calls[index]? = some call)
    (committed : phase.HasCommitted ↔ call.phase.HasCommitted)
    (flushed : phase = .flushed →
      findByIdempotency state.database call.intake.tenantId
        call.intake.idempotencyKey = none)
    (violated : phase = .violated →
      (findByIdempotency state.database call.intake.tenantId
        call.intake.idempotencyKey).isSome)
    (raised : phase = .raised → call.phase = .violated ∧
      findByIdempotency state.database call.intake.tenantId
        call.intake.idempotencyKey = none)
    (returnedOwn : ∀ requestId, phase = .returned requestId true →
      requestId = call.intake.fresh.ids 0)
    (returnedKnown : ∀ requestId, phase = .returned requestId false →
      ∃ existing, findByIdempotency state.database call.intake.tenantId
          call.intake.idempotencyKey = some existing ∧
        existing.id = requestId ∧
        sameCommand runtime existing call.intake.command = true) :
    IntakeCall.Sound runtime order { call with phase } := by
  have own := sound.call found
  refine ⟨own.nodup, ?_, ?_, ?_, ?_, returnedOwn, ?_⟩
  · intro hasCommitted
    exact own.recorded (committed.mp hasCommitted)
  · intro isFlushed
    exact sound.comprises.findByIdempotency_eq_none (flushed isFlushed)
  · intro isViolated
    obtain ⟨existing, located⟩ :=
      Option.isSome_iff_exists.mp (violated isViolated)
    obtain ⟨known, member, key, _⟩ :=
      sound.comprises.findByIdempotency_eq_some located
    exact ⟨known, member, key⟩
  · intro isRaised
    obtain ⟨wasViolated, missing⟩ := raised isRaised
    obtain ⟨known, member, key⟩ := own.violatedKnown wasViolated
    have unknown := sound.comprises.findByIdempotency_eq_none missing known
      member
    rw [key] at unknown
    cases unknown
  · intro requestId isReturned
    obtain ⟨existing, located, identified, sameAsCommand⟩ :=
      returnedKnown requestId isReturned
    obtain ⟨known, member, key, shape⟩ :=
      sound.comprises.findByIdempotency_eq_some located
    rw [shape] at identified sameAsCommand
    exact ⟨known, member, key, identified, sameAsCommand⟩

theorem moved (sound : state.Sound runtime order) {index : Nat}
    {call : IntakeCall} {phase : IntakePhase}
    (found : state.calls[index]? = some call)
    (committed : phase.HasCommitted ↔ call.phase.HasCommitted)
    (flushed : phase = .flushed →
      findByIdempotency state.database call.intake.tenantId
          call.intake.idempotencyKey = none ∧
        state.keyInFlight index call.intake = false)
    (violated : phase = .violated →
      (findByIdempotency state.database call.intake.tenantId
        call.intake.idempotencyKey).isSome)
    (raised : phase = .raised → call.phase = .violated ∧
      findByIdempotency state.database call.intake.tenantId
        call.intake.idempotencyKey = none)
    (returnedOwn : ∀ requestId, phase = .returned requestId true →
      requestId = call.intake.fresh.ids 0)
    (returnedKnown : ∀ requestId, phase = .returned requestId false →
      ∃ existing, findByIdempotency state.database call.intake.tenantId
          call.intake.idempotencyKey = some existing ∧
        existing.id = requestId ∧
        sameCommand runtime existing call.intake.command = true) :
    (state.advance index call phase).Sound runtime order := by
  refine .of_calls sound.comprises sound.separate
    (advance_distinct sound found phase) ?_ ?_ ?_
  · intro intake member
    obtain ⟨other, before, beforeFound, same, hasCommitted⟩ :=
      sound.origin intake member
    by_cases here : other = index
    · subst here
      have isCall : before = call :=
        Option.some.inj (beforeFound.symm.trans found)
      subst isCall
      refine ⟨other, { before with phase }, ?_, same,
        committed.mpr hasCommitted⟩
      rw [advance_calls found, if_pos rfl]
    · refine ⟨other, before, ?_, same, hasCommitted⟩
      rw [advance_calls found, if_neg here]
      exact beforeFound
  · intro first second left right leftAfter rightAfter different leftFlushed
      rightFlushed
    -- The moved call may be either of the two; the guard covers both.
    rcases advance_cases found leftAfter with ⟨here, isCall⟩ | ⟨away, leftOld⟩
    · rcases advance_cases found rightAfter with
        ⟨alsoHere, _⟩ | ⟨rightAway, rightOld⟩
      · exact absurd (here.trans alsoHere.symm) different
      · rw [isCall] at leftFlushed ⊢
        exact IntakeState.keyInFlight_eq_false (flushed leftFlushed).2
          rightAway rightOld rightFlushed
    · rcases advance_cases found rightAfter with ⟨_, isCall⟩ | ⟨_, rightOld⟩
      · rw [isCall] at rightFlushed ⊢
        rw [Intake.sameKey_comm]
        exact IntakeState.keyInFlight_eq_false (flushed rightFlushed).2 away
          leftOld leftFlushed
      · exact sound.flushedAlone first second left right leftOld rightOld
          different leftFlushed rightFlushed
  · intro other current after
    rcases advance_cases found after with ⟨_, new⟩ | ⟨_, old⟩
    · rw [new]
      exact moved_call sound found committed (fun isFlushed =>
        (flushed isFlushed).1) violated raised returnedOwn returnedKnown
    · exact sound.call old

theorem committed (sound : state.Sound runtime order) {index : Nat}
    {call : IntakeCall} (found : state.calls[index]? = some call)
    (flushed : call.phase = .flushed) :
    IntakeState.Sound runtime { (state.advance index call .committed) with
      database := call.intake.insertRows runtime state.database }
      (order ++ [call.intake]) := by
  have own := sound.call found
  -- A committed intake comes from another slot, so it shares no id.
  have away : ∀ {slot : Nat} {before : IntakeCall},
      state.calls[slot]? = some before → before.phase.HasCommitted →
      slot ≠ index := by
    rintro slot before beforeFound hasCommitted rfl
    rw [found] at beforeFound
    cases beforeFound
    rw [flushed] at hasCommitted
    exact hasCommitted
  refine .of_calls (sound.comprises.insertRows call.intake) ?_
    (advance_distinct sound found .committed) ?_ ?_ ?_
  · rw [List.pairwise_append]
    refine ⟨sound.separate, List.pairwise_singleton _ _, ?_⟩
    intro other member last isLast
    rw [List.mem_singleton.mp isLast]
    obtain ⟨slot, before, beforeFound, same, hasCommitted⟩ :=
      sound.origin other member
    refine ⟨?_, ?_⟩
    · rw [← same]
      exact sound.distinct slot index before call beforeFound found
        (away beforeFound hasCommitted)
    · rw [Intake.sameKey_comm]
      exact own.flushedNew flushed other member
  · intro intake member
    rcases List.mem_append.mp member with earlier | isLast
    · obtain ⟨slot, before, beforeFound, same, hasCommitted⟩ :=
        sound.origin intake earlier
      refine ⟨slot, before, ?_, same, hasCommitted⟩
      exact (advance_calls found .committed slot).trans
        ((if_neg (away beforeFound hasCommitted)).trans beforeFound)
    · refine ⟨index, { call with phase := .committed }, ?_, ?_, trivial⟩
      · exact (advance_calls found .committed index).trans (if_pos rfl)
      · exact (List.mem_singleton.mp isLast).symm
  · intro first second left right leftAfter rightAfter different leftFlushed
      rightFlushed
    rcases advance_cases found leftAfter with ⟨_, new⟩ | ⟨_, leftOld⟩
    · rw [new] at leftFlushed
      cases leftFlushed
    rcases advance_cases found rightAfter with ⟨_, new⟩ | ⟨_, rightOld⟩
    · rw [new] at rightFlushed
      cases rightFlushed
    exact sound.flushedAlone first second left right leftOld rightOld different
      leftFlushed rightFlushed
  · intro other current after
    rcases advance_cases found after with ⟨_, new⟩ | ⟨different, old⟩
    · rw [new]
      refine ⟨own.nodup, ?_, ?_, ?_, ?_, ?_, ?_⟩
      · intro _
        exact List.mem_append_right _ (List.mem_singleton_self _)
      · intro isFlushed
        cases isFlushed
      · intro isViolated
        cases isViolated
      · intro isRaised
        cases isRaised
      · intro requestId isReturned
        cases isReturned
      · intro requestId isReturned
        cases isReturned
    · apply (sound.call old).append
      intro isFlushed
      exact sound.flushedAlone other index current call old found different
        isFlushed flushed

theorem step (sound : state.Sound runtime order) {action : IntakeStep}
    {next : IntakeState}
    (stepped : intakeStep runtime state action = some next) :
    ∃ order', next.Sound runtime order' := by
  cases intakeEffect_of_step stepped with
  | opened intake fresh => exact ⟨order, sound.opened fresh⟩
  | moved index call phase found committed flushed violated raised returnedOwn
      returnedKnown =>
      exact ⟨order, sound.moved found committed flushed violated raised
        returnedOwn returnedKnown⟩
  | committed index call found flushed =>
      exact ⟨order ++ [call.intake], sound.committed found flushed⟩

end IntakeState.Sound

theorem IntakeState.sound_initial (runtime : Runtime) :
    IntakeState.initial.Sound runtime [] := by
  constructor <;> simp [IntakeState.initial]
  constructor <;> rfl

/-! ## Completeness of a committed request -/

/-- An outbox row that wakes a worker for the task. -/
def OutboxEvent.readyFor (taskId : String) (event : OutboxEvent) : Bool :=
  decide (event.eventType = EventType.taskReady.value) &&
    decide (payloadTaskId event.payload = taskId)

def OutboxEvent.announces (requestId : String) (event : OutboxEvent) : Bool :=
  decide (event.eventType = EventType.requestCreated.value) &&
    decide (event.aggregateId = requestId)

def AuditEvent.records (requestId : String) (action : AuditAction)
    (event : AuditEvent) : Bool :=
  decide (event.requestId = requestId) && decide (event.action = action.value)

/-- Everything that belongs to a committed request, each exactly once. -/
structure Database.Complete (database : Database)
    (request : PrivacyRequest) : Prop where
  distinctSources : request.requestedSources.Nodup
  tasks : (database.tasksOf request.id).map RequestTask.source =
    request.requestedSources
  ready : ∀ task ∈ database.tasksOf request.id,
    database.outbox.countP (OutboxEvent.readyFor task.id) = 1
  created : database.outbox.countP (OutboxEvent.announces request.id) = 1
  audited : database.audit.countP
    (AuditEvent.records request.id .requestCreated) = 1

/-- No row carries one of the given ids. -/
def Database.CarriesNone (database : Database) (ids : List String) : Prop :=
  (∀ request ∈ database.requests, request.id ∉ ids) ∧
    (∀ task ∈ database.tasks, task.id ∉ ids) ∧
    (∀ event ∈ database.outbox, event.id ∉ ids) ∧
    (∀ event ∈ database.audit, event.requestId ∉ ids)

private theorem taskReady_ne_requestCreated :
    EventType.taskReady.value ≠ EventType.requestCreated.value := by
  decide

namespace Database.Comprises

variable {runtime : Runtime} {database : Database} {order : List Intake}

/-- The intakes around a committed one share no id with it. -/
private theorem separate_around {before after : List Intake}
    {intake : Intake}
    (separate : (before ++ intake :: after).Pairwise Intake.Separate) :
    ∀ other ∈ before ++ after, ∀ id ∈ intake.drawnIds, id ∉ other.drawnIds := by
  rw [List.pairwise_append, List.pairwise_cons] at separate
  obtain ⟨_, ⟨later, _⟩, across⟩ := separate
  intro other member id own foreign
  rcases List.mem_append.mp member with earlier | afterwards
  · exact (across other earlier intake (by simp)).1 id foreign own
  · exact (later other afterwards).1 id own foreign

/-- The tasks of a committed request are the ones of its intake. -/
theorem tasksOf_eq (comprises : database.Comprises runtime order)
    (separate : order.Pairwise Intake.Separate) {intake : Intake}
    (member : intake ∈ order) :
    database.tasksOf (intake.request runtime).id = intake.tasks := by
  obtain ⟨before, after, shape⟩ := List.append_of_mem member
  have around := separate_around (shape ▸ separate)
  rw [Database.tasksOf, comprises.tasks, shape,
    Table.filter_flatMap_block Intake.tasks]
  · rw [List.filter_eq_self]
    intro task inBlock
    obtain ⟨_, _, _, owner⟩ := Intake.mem_tasks inBlock
    exact decide_eq_true owner
  · intro other otherMember task inBlock
    obtain ⟨_, _, _, owner⟩ := Intake.mem_tasks inBlock
    apply decide_eq_false
    intro same
    have shared : other.fresh.ids 0 = intake.fresh.ids 0 := owner.symm.trans same
    exact around other otherMember _ intake.mem_drawnIds_zero
      (shared ▸ other.mem_drawnIds_zero)

/-- The outbox rows of one kind that an intake alone has. -/
theorem outbox_countP (comprises : database.Comprises runtime order)
    {intake : Intake} {before after : List Intake}
    (shape : order = before ++ intake :: after) {test : OutboxEvent → Bool}
    (foreign : ∀ other ∈ before ++ after, ∀ event ∈ other.events,
      test event = false) :
    database.outbox.countP test = intake.events.countP test := by
  rw [List.countP_eq_length_filter, comprises.outbox, shape,
    Table.filter_flatMap_block Intake.events _ foreign,
    ← List.countP_eq_length_filter]

theorem ready_countP (comprises : database.Comprises runtime order)
    (separate : order.Pairwise Intake.Separate) {intake : Intake}
    (nodup : intake.drawnIds.Nodup) (member : intake ∈ order)
    {task : RequestTask} (taskMember : task ∈ intake.tasks) :
    database.outbox.countP (OutboxEvent.readyFor task.id) = 1 := by
  obtain ⟨before, after, shape⟩ := List.append_of_mem member
  have around := separate_around (shape ▸ separate)
  have owned := Intake.task_id_mem taskMember
  rw [comprises.outbox_countP shape]
  · -- Among the intake's own rows, ready events and tasks correspond.
    have created : OutboxEvent.readyFor task.id intake.createdEvent = false := by
      simp [OutboxEvent.readyFor, Intake.createdEvent,
        taskReady_ne_requestCreated.symm]
    have counted : intake.events.countP (OutboxEvent.readyFor task.id) =
        ((List.range intake.command.sources.length).map
          intake.taskId).count task.id := by
      rw [Intake.events, List.countP_cons_of_neg (by simp [created]),
        List.countP_map, List.range_eq_range',
        ← List.zipIdx_map_snd 0 intake.command.sources, List.map_map,
        List.count, List.countP_map]
      apply List.countP_congr
      intro pair _
      simp [OutboxEvent.readyFor, Intake.readyEvent]
    rw [counted]
    apply List.count_eq_one_of_mem (Intake.nodup_taskIds nodup)
    rw [← Intake.tasks_map_id]
    exact List.mem_map_of_mem taskMember
  · intro other otherMember event inBlock
    rcases Intake.mem_events inBlock with rfl | ⟨source, position, bound, rfl⟩
    · simp [OutboxEvent.readyFor, Intake.createdEvent,
        taskReady_ne_requestCreated.symm]
    · have apart : other.taskId position ≠ task.id := by
        intro same
        exact around other otherMember task.id owned
          (same ▸ Intake.mem_drawnIds (by omega))
      simp [OutboxEvent.readyFor, Intake.readyEvent, apart]

theorem created_countP (comprises : database.Comprises runtime order)
    (separate : order.Pairwise Intake.Separate) {intake : Intake}
    (member : intake ∈ order) :
    database.outbox.countP
      (OutboxEvent.announces (intake.request runtime).id) = 1 := by
  obtain ⟨before, after, shape⟩ := List.append_of_mem member
  have around := separate_around (shape ▸ separate)
  rw [comprises.outbox_countP shape]
  · have ready : (intake.command.sources.zipIdx.map fun entry =>
        intake.readyEvent entry.1 entry.2).countP
          (OutboxEvent.announces (intake.request runtime).id) = 0 := by
      rw [List.countP_eq_zero]
      intro event inReady
      obtain ⟨entry, _, rfl⟩ := List.mem_map.mp inReady
      simp [OutboxEvent.announces, Intake.readyEvent,
        taskReady_ne_requestCreated]
    rw [Intake.events, List.countP_cons_of_pos (by
      simp [OutboxEvent.announces, Intake.createdEvent, Intake.request]), ready]
  · intro other otherMember event inBlock
    rcases Intake.mem_events inBlock with rfl | ⟨source, position, bound, rfl⟩
    · have apart : other.fresh.ids 0 ≠ intake.fresh.ids 0 := by
        intro same
        exact around other otherMember _ intake.mem_drawnIds_zero
          (same ▸ other.mem_drawnIds_zero)
      simp [OutboxEvent.announces, Intake.createdEvent, Intake.request, apart]
    · simp [OutboxEvent.announces, Intake.readyEvent,
        taskReady_ne_requestCreated]

theorem audited_countP (comprises : database.Comprises runtime order)
    (separate : order.Pairwise Intake.Separate) {intake : Intake}
    (member : intake ∈ order) :
    database.audit.countP
      (AuditEvent.records (intake.request runtime).id .requestCreated) = 1 := by
  have counted : database.audit.countP
      (AuditEvent.records (intake.request runtime).id .requestCreated) =
      (order.map fun other => (other.fresh.ids 0,
        AuditAction.requestCreated.value)).count
          (intake.fresh.ids 0, AuditAction.requestCreated.value) := by
    rw [← comprises.audit, List.count, List.countP_map]
    apply List.countP_congr
    intro event _
    simp only [AuditEvent.records, Intake.request, Function.comp_apply,
      Bool.and_eq_true, beq_iff_eq, Prod.mk.injEq]
    exact and_congr decide_eq_true_iff decide_eq_true_iff
  rw [counted]
  apply List.count_eq_one_of_mem
  · rw [List.Nodup, List.pairwise_map]
    apply separate.imp
    intro first second apart same
    have shared : first.fresh.ids 0 = second.fresh.ids 0 :=
      congrArg Prod.fst same
    apply apart.1 _ first.mem_drawnIds_zero
    rw [shared]
    exact second.mem_drawnIds_zero
  · exact List.mem_map.mpr ⟨intake, member, rfl⟩

theorem complete (comprises : database.Comprises runtime order)
    (separate : order.Pairwise Intake.Separate)
    (nodup : ∀ intake ∈ order, intake.drawnIds.Nodup) {intake : Intake}
    (member : intake ∈ order) :
    database.Complete (intake.request runtime) := by
  have tasks := comprises.tasksOf_eq separate member
  constructor
  · exact intake.command.sourcesNodup
  · rw [tasks, Intake.tasks_map_source]
    rfl
  · rw [tasks]
    intro task taskMember
    exact comprises.ready_countP separate (nodup intake member) member
      taskMember
  · exact comprises.created_countP separate member
  · exact comprises.audited_countP separate member

theorem carriesNone (comprises : database.Comprises runtime order)
    {ids : List String}
    (apart : ∀ intake ∈ order, ∀ id ∈ intake.drawnIds, id ∉ ids) :
    database.CarriesNone ids := by
  refine ⟨?_, ?_, ?_, ?_⟩
  · intro request member
    rw [comprises.requests] at member
    obtain ⟨intake, inOrder, rfl⟩ := List.mem_map.mp member
    exact apart intake inOrder _ intake.mem_drawnIds_zero
  · intro task member
    rw [comprises.tasks] at member
    obtain ⟨intake, inOrder, inBlock⟩ := List.mem_flatMap.mp member
    exact apart intake inOrder _ (Intake.task_id_mem inBlock)
  · intro event member
    rw [comprises.outbox] at member
    obtain ⟨intake, inOrder, inBlock⟩ := List.mem_flatMap.mp member
    exact apart intake inOrder _ (Intake.event_id_mem inBlock)
  · intro event member
    have mapped : (event.requestId, event.action) ∈
        database.audit.map fun event => (event.requestId, event.action) :=
      List.mem_map_of_mem (f := fun event : AuditEvent =>
        (event.requestId, event.action)) member
    rw [comprises.audit] at mapped
    obtain ⟨intake, inOrder, same⟩ := List.mem_map.mp mapped
    have identified : intake.fresh.ids 0 = event.requestId :=
      congrArg Prod.fst same
    rw [← identified]
    exact apart intake inOrder _ intake.mem_drawnIds_zero

end Database.Comprises

/-! ## Every call can run to its end -/

/-- Own steps that a call has left, at most. -/
def IntakePhase.remaining : IntakePhase → Nat
  | .started => 4
  | .absent => 3
  | .flushed | .violated => 2
  | .committed => 1
  | .returned _ _ | .conflict | .raised | .aborted _ => 0

def IntakePhase.Ended (phase : IntakePhase) : Prop :=
  phase.remaining = 0

/-- No new call arrives and none is cut off. -/
def Proceeds (_ : IntakeState) : IntakeStep → Prop
  | .call _ | .abort _ => False
  | _ => True

def IntakeState.remaining (state : IntakeState) : Nat :=
  (state.calls.map fun call => call.phase.remaining).sum

theorem IntakeState.remaining_advance_lt {state : IntakeState} {index : Nat}
    {call : IntakeCall} {phase : IntakePhase}
    (found : state.calls[index]? = some call)
    (fewer : phase.remaining < call.phase.remaining) :
    (state.advance index call phase).remaining < state.remaining := by
  obtain ⟨bound, identified⟩ := List.getElem?_eq_some_iff.mp found
  have shape : state.calls =
      state.calls.take index ++ call :: state.calls.drop (index + 1) := by
    rw [← identified, List.getElem_cons_drop, List.take_append_drop]
  have moved : (state.advance index call phase).calls =
      state.calls.take index ++ { call with phase } ::
        state.calls.drop (index + 1) :=
    List.set_eq_take_append_cons_drop.trans (if_pos bound)
  have before := congrArg
    (fun calls => (calls.map fun call => call.phase.remaining).sum) shape
  have after := congrArg
    (fun calls => (calls.map fun call => call.phase.remaining).sum) moved
  simp only [List.map_append, List.map_cons, List.sum_append,
    List.sum_cons] at before after
  unfold IntakeState.remaining
  omega

theorem IntakeCall.remaining_replay (runtime : Runtime) (call : IntakeCall)
    (existing : PrivacyRequest) :
    (call.replay runtime existing).remaining = 0 := by
  rcases replay_ne_flushed runtime call existing with ⟨returned, _⟩ | conflict
  · rw [returned]
    rfl
  · rw [conflict]
    rfl

/-- An unfinished call can take its next step, or waits for a transaction that
holds its key and can commit. -/
theorem IntakeState.exists_proceeding_step (runtime : Runtime)
    {state : IntakeState} {index : Nat} {call : IntakeCall}
    (found : state.calls[index]? = some call) (unfinished : ¬ call.phase.Ended) :
    ∃ action next, Proceeds state action ∧
      intakeStep runtime state action = some next ∧
      next.remaining < state.remaining := by
  have commits : ∀ (other : Nat) (holder : IntakeCall),
      state.calls[other]? = some holder → holder.phase = .flushed →
      ∃ action next, Proceeds state action ∧
        intakeStep runtime state action = some next ∧
        next.remaining < state.remaining := by
    intro other holder holderFound flushed
    refine ⟨.commit other, { (state.advance other holder .committed) with
        database := holder.intake.insertRows runtime state.database },
      trivial, ?_, ?_⟩
    · simp [intakeStep, holderFound, flushed]
    · exact remaining_advance_lt holderFound
        (by simp [flushed, IntakePhase.remaining])
  cases phase : call.phase with
  | started =>
      cases located : findByIdempotency state.database call.intake.tenantId
          call.intake.idempotencyKey with
      | none =>
          refine ⟨.lookup index, state.advance index call .absent, trivial,
            ?_, ?_⟩
          · simp [intakeStep, found, phase, located]
          · exact remaining_advance_lt found
              (by simp [phase, IntakePhase.remaining])
      | some existing =>
          refine ⟨.lookup index,
            state.advance index call (call.replay runtime existing), trivial,
            ?_, ?_⟩
          · simp [intakeStep, found, phase, located]
          · apply remaining_advance_lt found
            rw [IntakeCall.remaining_replay, phase]
            decide
  | absent =>
      by_cases blocked : state.keyInFlight index call.intake = true
      · obtain ⟨other, _, holds⟩ := List.any_eq_true.mp blocked
        cases holderFound : state.calls[other]? with
        | none => simp [holderFound] at holds
        | some holder =>
            have flushed : holder.phase = .flushed := by
              simp only [holderFound, Bool.and_eq_true] at holds
              exact of_decide_eq_true holds.2.1
            exact commits other holder holderFound flushed
      · have free : state.keyInFlight index call.intake = false := by
          simpa using blocked
        cases located : findByIdempotency state.database call.intake.tenantId
            call.intake.idempotencyKey with
        | none =>
            refine ⟨.flush index, state.advance index call .flushed, trivial,
              ?_, ?_⟩
            · simp [intakeStep, found, phase, free, located]
            · exact remaining_advance_lt found
                (by simp [phase, IntakePhase.remaining])
        | some existing =>
            refine ⟨.flush index, state.advance index call .violated, trivial,
              ?_, ?_⟩
            · simp [intakeStep, found, phase, free, located]
            · exact remaining_advance_lt found
                (by simp [phase, IntakePhase.remaining])
  | flushed => exact commits index call found phase
  | violated =>
      cases located : findByIdempotency state.database call.intake.tenantId
          call.intake.idempotencyKey with
      | none =>
          refine ⟨.lookupAgain index, state.advance index call .raised, trivial,
            ?_, ?_⟩
          · simp [intakeStep, found, phase, located]
          · exact remaining_advance_lt found
              (by simp [phase, IntakePhase.remaining])
      | some existing =>
          refine ⟨.lookupAgain index,
            state.advance index call (call.replay runtime existing), trivial,
            ?_, ?_⟩
          · simp [intakeStep, found, phase, located]
          · apply remaining_advance_lt found
            rw [IntakeCall.remaining_replay, phase]
            decide
  | committed =>
      refine ⟨.finish index, state.advance index call
        (.returned (call.intake.fresh.ids 0) true), trivial, ?_, ?_⟩
      · simp [intakeStep, found, phase]
      · exact remaining_advance_lt found
          (by simp [phase, IntakePhase.remaining])
  | returned | conflict | raised | aborted =>
      exact absurd (by simp [IntakePhase.Ended, phase, IntakePhase.remaining])
        unfinished

/-- Left to themselves, the calls in flight all end. -/
theorem IntakeState.exists_quiescent_run (runtime : Runtime) :
    ∀ (budget : Nat) (state : IntakeState), state.remaining ≤ budget →
      ∃ actions finish, Runs (intakeStep runtime) Proceeds state actions finish ∧
        ∀ call ∈ finish.calls, call.phase.Ended := by
  intro budget
  induction budget with
  | zero =>
      intro state exhausted
      refine ⟨[], state, .nil state, ?_⟩
      intro call member
      by_contra unfinished
      have positive : 0 < state.remaining :=
        List.sum_pos_iff_exists_pos_nat.mpr ⟨call.phase.remaining,
          List.mem_map_of_mem member, Nat.pos_of_ne_zero unfinished⟩
      omega
  | succ budget induction =>
      intro state bounded
      by_cases ended : ∀ call ∈ state.calls, call.phase.Ended
      · exact ⟨[], state, .nil state, ended⟩
      · push Not at ended
        obtain ⟨call, member, unfinished⟩ := ended
        obtain ⟨index, found⟩ := List.getElem?_of_mem member
        obtain ⟨action, next, proceeds, stepped, fewer⟩ :=
          exists_proceeding_step runtime found unfinished
        obtain ⟨actions, finish, execution, quiescent⟩ :=
          induction next (by omega)
        exact ⟨action :: actions, finish, .cons proceeds stepped execution,
          quiescent⟩

/-! ## Convergence -/

def IntakeCall.hasKey (call : IntakeCall) (tenantId idempotencyKey : String) :
    Prop :=
  call.intake.tenantId = tenantId ∧
    call.intake.idempotencyKey = idempotencyKey

/-- What holds of one idempotency key of one tenant. -/
structure IntakeState.Converged (runtime : Runtime) (state : IntakeState)
    (tenantId idempotencyKey : String) : Prop where
  /-- At most one row has the key. -/
  once : state.database.requests.countP (fun request =>
    decide (request.tenantId = tenantId ∧
      request.idempotencyKey = idempotencyKey)) ≤ 1
  /-- Every returned request is that row. -/
  returned : ∀ call ∈ state.calls, call.hasKey tenantId idempotencyKey →
    ∀ requestId created, call.phase = .returned requestId created →
    ∃ request, findByIdempotency state.database tenantId idempotencyKey =
      some request ∧ request.id = requestId
  /-- At most one call reports `created=True`. -/
  createdOnce : ∀ (first second : Nat) (left right : IntakeCall),
    state.calls[first]? = some left → state.calls[second]? = some right →
    left.hasKey tenantId idempotencyKey → right.hasKey tenantId idempotencyKey →
    (∃ requestId, left.phase = .returned requestId true) →
    (∃ requestId, right.phase = .returned requestId true) → first = second
  /-- One call does, when every call that committed has returned. -/
  createdSome :
    (∀ call ∈ state.calls, call.hasKey tenantId idempotencyKey →
      call.phase ≠ .committed ∧ call.phase ≠ .aborted true) →
    (∃ call ∈ state.calls, call.hasKey tenantId idempotencyKey ∧
      ∃ requestId created, call.phase = .returned requestId created) →
    ∃ call ∈ state.calls, call.hasKey tenantId idempotencyKey ∧
      ∃ requestId, call.phase = .returned requestId true
  /-- A finished call with another command raised and wrote nothing. -/
  conflicts : ∀ call ∈ state.calls, call.hasKey tenantId idempotencyKey →
    call.phase.Ended → (∀ committed, call.phase ≠ .aborted committed) →
    ∀ stored, findByIdempotency state.database tenantId idempotencyKey =
      some stored →
    sameCommand runtime stored call.intake.command = false →
    call.phase = .conflict ∧
      state.database.CarriesNone call.intake.drawnIds
  /-- The stored row was committed by one of the calls, with its tasks, outbox
  rows and audit event. -/
  complete : ∀ stored, findByIdempotency state.database tenantId
      idempotencyKey = some stored →
    state.database.Complete stored ∧
      ∃ call ∈ state.calls, call.hasKey tenantId idempotencyKey ∧
        call.phase.HasCommitted ∧ stored = call.intake.request runtime
  /-- Every call in flight can still be run to its end. -/
  quiesces : ∃ actions finish,
    Runs (intakeStep runtime) Proceeds state actions finish ∧
      ∀ call ∈ finish.calls, call.phase.Ended

theorem sameCommand_request (runtime : Runtime) (intake : Intake) :
    sameCommand runtime (intake.request runtime) intake.command = true := by
  simp [sameCommand, Intake.request]

theorem IntakeCall.sameKey_of_hasKey {call : IntakeCall} {intake : Intake}
    {tenantId idempotencyKey : String}
    (keyed : call.hasKey tenantId idempotencyKey) :
    call.intake.sameKey intake = true ↔
      intake.tenantId = tenantId ∧ intake.idempotencyKey = idempotencyKey := by
  obtain ⟨rfl, rfl⟩ := keyed
  rw [Intake.sameKey, decide_eq_true_iff, eq_comm, and_congr_right_iff]
  exact fun _ => eq_comm

namespace IntakeState.Sound

variable {runtime : Runtime} {state : IntakeState} {order : List Intake}

/-- One intake per key has been committed. -/
theorem eq_of_sameKey (sound : state.Sound runtime order)
    {first second : Intake} (left : first ∈ order) (right : second ∈ order)
    (same : first.sameKey second = true) : first = second := by
  obtain ⟨before, after, rfl⟩ := List.append_of_mem left
  have separate := sound.separate
  rw [List.pairwise_append, List.pairwise_cons] at separate
  obtain ⟨_, ⟨later, _⟩, across⟩ := separate
  rcases List.mem_append.mp right with earlier | here
  · have apart := (across second earlier first (by simp)).2
    rw [Intake.sameKey_comm, same] at apart
    cases apart
  · rcases List.mem_cons.mp here with equal | afterwards
    · exact equal.symm
    · have apart := (later second afterwards).2
      rw [same] at apart
      cases apart

theorem find_of_mem (sound : state.Sound runtime order) {intake : Intake}
    (member : intake ∈ order) :
    findByIdempotency state.database intake.tenantId intake.idempotencyKey =
      some (intake.request runtime) := by
  cases located : findByIdempotency state.database intake.tenantId
      intake.idempotencyKey with
  | none =>
      have unknown := sound.comprises.findByIdempotency_eq_none located intake
        member
      rw [Intake.sameKey_self] at unknown
      cases unknown
  | some existing =>
      obtain ⟨other, otherMember, same, rfl⟩ :=
        sound.comprises.findByIdempotency_eq_some located
      rw [sound.eq_of_sameKey member otherMember same]

/-- The stored row of a key is the request of a committed intake. -/
theorem mem_of_find (sound : state.Sound runtime order)
    {tenantId idempotencyKey : String} {stored : PrivacyRequest}
    (located : findByIdempotency state.database tenantId idempotencyKey =
      some stored) :
    ∃ intake ∈ order, intake.tenantId = tenantId ∧
      intake.idempotencyKey = idempotencyKey ∧
      stored = intake.request runtime := by
  have member := List.mem_of_find?_eq_some located
  have matching : stored.tenantId = tenantId ∧
      stored.idempotencyKey = idempotencyKey := by
    simpa using List.find?_some located
  rw [sound.comprises.requests] at member
  obtain ⟨intake, inOrder, rfl⟩ := List.mem_map.mp member
  exact ⟨intake, inOrder, matching.1, matching.2, rfl⟩

theorem nodup_of_mem (sound : state.Sound runtime order) {intake : Intake}
    (member : intake ∈ order) : intake.drawnIds.Nodup := by
  obtain ⟨index, call, found, same, _⟩ := sound.origin intake member
  rw [← same]
  exact sound.nodup index call found

theorem row_once (sound : state.Sound runtime order)
    (tenantId idempotencyKey : String) :
    state.database.requests.countP (fun request =>
      decide (request.tenantId = tenantId ∧
        request.idempotencyKey = idempotencyKey)) ≤ 1 := by
  rw [sound.comprises.requests, List.countP_map,
    List.countP_eq_length_filter]
  have apart := sound.separate.sublist (List.filter_sublist
    (p := (fun request : PrivacyRequest =>
      decide (request.tenantId = tenantId ∧
        request.idempotencyKey = idempotencyKey)) ∘ Intake.request runtime))
  have keyed : ∀ intake ∈ order.filter ((fun request : PrivacyRequest =>
      decide (request.tenantId = tenantId ∧
        request.idempotencyKey = idempotencyKey)) ∘ Intake.request runtime),
      intake.tenantId = tenantId ∧
        intake.idempotencyKey = idempotencyKey := by
    intro intake member
    exact of_decide_eq_true (List.mem_filter.mp member).2
  -- Two committed intakes with one key contradict their separation.
  generalize order.filter _ = chosen at apart keyed
  match chosen, apart, keyed with
  | [], _, _ => exact Nat.zero_le _
  | [_], _, _ => exact Nat.le_refl _
  | first :: second :: _, apart, keyed =>
      have different := (List.rel_of_pairwise_cons apart
        (List.mem_cons_self)).2
      obtain ⟨firstTenant, firstKey⟩ := keyed first (by simp)
      obtain ⟨secondTenant, secondKey⟩ := keyed second (by simp)
      have same : first.sameKey second = true :=
        decide_eq_true ⟨firstTenant.trans secondTenant.symm,
          firstKey.trans secondKey.symm⟩
      rw [same] at different
      cases different

theorem committed_of_returned (sound : state.Sound runtime order)
    {tenantId idempotencyKey : String} {call : IntakeCall}
    (member : call ∈ state.calls) (keyed : call.hasKey tenantId idempotencyKey)
    {requestId : String} {created : Bool}
    (returned : call.phase = .returned requestId created) :
    ∃ intake ∈ order, intake.tenantId = tenantId ∧
      intake.idempotencyKey = idempotencyKey ∧
      intake.fresh.ids 0 = requestId ∧
      sameCommand runtime (intake.request runtime) call.intake.command =
        true := by
  obtain ⟨index, found⟩ := List.getElem?_of_mem member
  cases created with
  | true =>
      have own := sound.returnedOwn index call requestId found returned
      refine ⟨call.intake, ?_, keyed.1, keyed.2, own.symm,
        sameCommand_request runtime call.intake⟩
      apply sound.recorded index call found
      rw [returned]
      trivial
  | false =>
      obtain ⟨other, inOrder, same, identified, sameAsCommand⟩ :=
        sound.returnedKnown index call requestId found returned
      obtain ⟨tenants, keys⟩ := (IntakeCall.sameKey_of_hasKey keyed).mp same
      exact ⟨other, inOrder, tenants, keys, identified, sameAsCommand⟩

theorem converged (sound : state.Sound runtime order)
    (tenantId idempotencyKey : String) :
    state.Converged runtime tenantId idempotencyKey := by
  constructor
  · exact sound.row_once tenantId idempotencyKey
  · intro call member keyed requestId created returned
    obtain ⟨intake, inOrder, rfl, rfl, identified, _⟩ :=
      sound.committed_of_returned member keyed returned
    exact ⟨intake.request runtime, sound.find_of_mem inOrder, identified⟩
  · intro first second left right leftFound rightFound leftKeyed rightKeyed
      leftReturned rightReturned
    obtain ⟨leftId, leftPhase⟩ := leftReturned
    obtain ⟨rightId, rightPhase⟩ := rightReturned
    by_contra different
    have leftIn := sound.recorded first left leftFound (by
      rw [leftPhase]
      trivial)
    have rightIn := sound.recorded second right rightFound (by
      rw [rightPhase]
      trivial)
    have same : left.intake = right.intake :=
      sound.eq_of_sameKey leftIn rightIn
        ((IntakeCall.sameKey_of_hasKey leftKeyed).mpr rightKeyed)
    apply sound.distinct first second left right leftFound rightFound different
      _ left.intake.mem_drawnIds_zero
    rw [same]
    exact right.intake.mem_drawnIds_zero
  · intro uncut returned
    obtain ⟨call, member, keyed, requestId, created, phase⟩ := returned
    obtain ⟨intake, inOrder, tenants, keys, _⟩ :=
      sound.committed_of_returned member keyed phase
    obtain ⟨index, creator, found, rfl, hasCommitted⟩ :=
      sound.origin intake inOrder
    have creatorMember := List.mem_of_getElem? found
    refine ⟨creator, creatorMember, ⟨tenants, keys⟩, ?_⟩
    obtain ⟨notCommitted, notCut⟩ := uncut creator creatorMember ⟨tenants, keys⟩
    cases creatorPhase : creator.phase with
    | committed => exact absurd creatorPhase notCommitted
    | returned requestId created =>
        cases created with
        | true => exact ⟨requestId, rfl⟩
        | false =>
            rw [creatorPhase] at hasCommitted
            exact hasCommitted.elim
    | aborted wasCommitted =>
        cases wasCommitted with
        | true => exact absurd creatorPhase notCut
        | false =>
            rw [creatorPhase] at hasCommitted
            exact hasCommitted.elim
    | started | absent | flushed | violated | conflict | raised =>
        rw [creatorPhase] at hasCommitted
        exact hasCommitted.elim
  · intro call member keyed ended uncut stored located differs
    obtain ⟨intake, inOrder, tenants, keys, rfl⟩ := sound.mem_of_find located
    obtain ⟨index, found⟩ := List.getElem?_of_mem member
    have conflict : call.phase = .conflict := by
      cases phase : call.phase with
      | conflict => rfl
      | returned requestId created =>
          obtain ⟨other, otherIn, otherTenant, otherKey, _, same⟩ :=
            sound.committed_of_returned member keyed phase
          have equal : other = intake :=
            sound.eq_of_sameKey otherIn inOrder
              (decide_eq_true ⟨otherTenant.trans tenants.symm,
                otherKey.trans keys.symm⟩)
          rw [equal, differs] at same
          cases same
      | raised => exact absurd phase (sound.notRaised index call found)
      | aborted committed => exact absurd phase (uncut committed)
      | started | absent | flushed | violated | committed =>
          rw [phase] at ended
          cases ended
    refine ⟨conflict, sound.comprises.carriesNone ?_⟩
    intro other otherIn id foreign own
    obtain ⟨slot, creator, creatorFound, rfl, hasCommitted⟩ :=
      sound.origin other otherIn
    have away : slot ≠ index := by
      intro here
      subst here
      have isCall : creator = call :=
        Option.some.inj (creatorFound.symm.trans found)
      rw [isCall, conflict] at hasCommitted
      exact hasCommitted
    exact sound.distinct slot index creator call creatorFound found away id
      foreign own
  · intro stored located
    obtain ⟨intake, inOrder, tenants, keys, rfl⟩ := sound.mem_of_find located
    refine ⟨sound.comprises.complete sound.separate
      (fun _ member => sound.nodup_of_mem member) inOrder, ?_⟩
    obtain ⟨index, creator, found, rfl, hasCommitted⟩ :=
      sound.origin intake inOrder
    exact ⟨creator, List.mem_of_getElem? found, ⟨tenants, keys⟩, hasCommitted,
      rfl⟩
  · exact IntakeState.exists_quiescent_run runtime _ state (Nat.le_refl _)

end IntakeState.Sound

/-- Whatever the order of the steps of any number of calls, each idempotency
key of each tenant converges on one complete request. -/
theorem idempotent_intake_converges (runtime : Runtime)
    {actions : List IntakeStep} {state : IntakeState}
    (execution : Runs (intakeStep runtime) Always IntakeState.initial actions
      state)
    (tenantId idempotencyKey : String) :
    state.Converged runtime tenantId idempotencyKey := by
  have preserved : ∀ {before : IntakeState} {action : IntakeStep}
      {after : IntakeState}, (∃ order, before.Sound runtime order) →
      Always before action → intakeStep runtime before action = some after →
      ∃ order, after.Sound runtime order := by
    intro before action after holds _ stepped
    obtain ⟨order, sound⟩ := holds
    exact sound.step stepped
  obtain ⟨order, sound⟩ := execution.invariant preserved
    ⟨[], IntakeState.sound_initial runtime⟩
  exact sound.converged tenantId idempotencyKey

/-! Two calls race for one key with different commands. -/

private def racingCalls : List IntakeStep :=
  [.call (demoIntake 'a' .access ["jobs", "profile"] demoSources_nodup
      demoSources_allowed),
    .call (demoIntake 'b' .delete ["jobs", "profile"] demoSources_nodup
      demoSources_allowed),
    .lookup 0, .lookup 1, .flush 0, .commit 0, .flush 1, .lookupAgain 1,
    .finish 0]

theorem racing_calls_converge :
    ∃ state, Runs (intakeStep demoRuntime) Always IntakeState.initial
        racingCalls state ∧
      state.calls.map IntakeCall.phase = [.returned "a" true, .conflict] ∧
      state.Converged demoRuntime "t" "k" := by
  have evaluated : (run (intakeStep demoRuntime) Always IntakeState.initial
      racingCalls).map (fun state => state.calls.map IntakeCall.phase) =
      some [.returned "a" true, .conflict] := by
    decide +kernel
  obtain ⟨state, result, phases⟩ := Option.map_eq_some_iff.mp evaluated
  have execution := runs_of_run result
  exact ⟨state, execution, phases,
    idempotent_intake_converges demoRuntime execution "t" "k"⟩

end FleetPrivacy
