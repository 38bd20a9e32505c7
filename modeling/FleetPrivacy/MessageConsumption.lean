import FleetPrivacy.Library.Transition
import Mathlib.Algebra.Order.Field.Rat

/-!
# Consuming a message with a heartbeat

`consume_with_heartbeat` of `queue.py`: the coroutine that awaits the handler
and acknowledges the message, and the task that extends the visibility at every
tick, with the stop event between them.  With a positive interval the message
keeps its fate if and only if no tick raises: the exception of a tick ends the
heartbeat task, and `await heartbeat_task` raises it in the place of the
handler's outcome.
-/

namespace FleetPrivacy

open Transition

/-- The arguments of `consume_with_heartbeat`. -/
structure Consumption where
  receiptHandle : String
  heartbeatSeconds : Rat
  visibilitySeconds : Int
  hasHook : Bool
  deriving DecidableEq

/-- An exception with the call that raised it. -/
inductive ConsumerError where
  | handler (message : String)
  | ack (message : String)
  | heartbeat (message : String)
  | hook (message : String)
  deriving DecidableEq

/-- A returned value or an exception. -/
abbrev ConsumerOutcome :=
  Except ConsumerError Bool

inductive ConsumerPhase where
  | handling
  | acking
  /-- In the `finally` block, with what the `try` block left. -/
  | leaving (outcome : ConsumerOutcome)
  | ended (outcome : ConsumerOutcome)
  deriving DecidableEq

/-- `maintain_visibility`. -/
inductive HeartbeatPhase where
  | created
  /-- In `wait_for(stop.wait())`; `armed` when it can time out, because the
  event was not set before or the timeout is not positive. -/
  | waiting (armed : Bool)
  | extending
  | hooking
  | returned
  | raised (error : ConsumerError)
  deriving DecidableEq

structure ConsumerState where
  consumer : ConsumerPhase
  heartbeat : HeartbeatPhase
  stop : Bool
  clock : Rat
  /-- The next tick: `heartbeat_seconds` after the start of the heartbeat task
  or after the end of the tick before, however that ended. -/
  due : Option Rat
  deriving DecidableEq

inductive ConsumerAction where
  /-- The handler ends. -/
  | handled (outcome : Except String Bool)
  | acked (outcome : Except String Unit)
  /-- `await heartbeat_task` is over. -/
  | finish
  /-- The heartbeat task starts. -/
  | begin
  | tick
  /-- `queue.heartbeat` ends. -/
  | extended (outcome : Except String Unit)
  | hooked (outcome : Except String Unit)
  /-- The heartbeat task sees the stop event. -/
  | stopped
  | elapse (seconds : Rat)

/-- The calls and how they end. -/
inductive ConsumerEvent where
  | handled (outcome : Except String Bool)
  | ackCalled (receiptHandle : String)
  | acked (outcome : Except String Unit)
  | heartbeatCalled (receiptHandle : String) (visibilitySeconds : Int)
  | heartbeatEnded (outcome : Except String Unit)
  | hookCalled
  | hookEnded (outcome : Except String Unit)
  deriving DecidableEq

namespace ConsumerState

def initial (clock : Rat) : ConsumerState :=
  { consumer := .handling, heartbeat := .created, stop := false, clock
    due := none }

/-- The `try` block is left, and `stop.set()` runs. -/
def leave (state : ConsumerState) (outcome : ConsumerOutcome) :
    ConsumerState :=
  { state with consumer := .leaving outcome, stop := true }

/-- The heartbeat task waits for the event again. -/
def await (state : ConsumerState) (heartbeatSeconds : Rat) : ConsumerState :=
  { state with
    heartbeat := .waiting (!state.stop || decide (heartbeatSeconds ≤ 0))
    due := some (state.clock + heartbeatSeconds) }

/-- The heartbeat task raises. -/
def die (state : ConsumerState) (heartbeatSeconds : Rat)
    (error : ConsumerError) : ConsumerState :=
  { state with
    heartbeat := .raised error
    due := some (state.clock + heartbeatSeconds) }

end ConsumerState

section Step

variable (consumption : Consumption)

def consumerStep (state : ConsumerState) :
    ConsumerAction → Option ConsumerState
  | .handled outcome =>
      match state.consumer, outcome with
      | .handling, .ok true => some { state with consumer := .acking }
      | .handling, .ok false => some (state.leave (.ok false))
      | .handling, .error message =>
          some (state.leave (.error (.handler message)))
      | _, _ => none
  | .acked outcome =>
      match state.consumer, outcome with
      | .acking, .ok () => some (state.leave (.ok true))
      | .acking, .error message => some (state.leave (.error (.ack message)))
      | _, _ => none
  | .finish =>
      match state.consumer, state.heartbeat with
      | .leaving outcome, .returned =>
          some { state with consumer := .ended outcome }
      | .leaving _, .raised error =>
          some { state with consumer := .ended (.error error) }
      | _, _ => none
  | .begin =>
      match state.heartbeat with
      | .created => some (state.await consumption.heartbeatSeconds)
      | _ => none
  | .tick =>
      match state.heartbeat, state.due with
      | .waiting true, some due =>
          if due ≤ state.clock then
            some { state with heartbeat := .extending, due := none }
          else none
      | _, _ => none
  | .extended outcome =>
      match state.heartbeat, outcome with
      | .extending, .ok () =>
          if consumption.hasHook then some { state with heartbeat := .hooking }
          else some (state.await consumption.heartbeatSeconds)
      | .extending, .error message =>
          some (state.die consumption.heartbeatSeconds (.heartbeat message))
      | _, _ => none
  | .hooked outcome =>
      match state.heartbeat, outcome with
      | .hooking, .ok () => some (state.await consumption.heartbeatSeconds)
      | .hooking, .error message =>
          some (state.die consumption.heartbeatSeconds (.hook message))
      | _, _ => none
  | .stopped =>
      -- With a timeout that is not positive, `wait_for` does not look.
      match state.heartbeat, state.stop with
      | .waiting _, true =>
          if 0 < consumption.heartbeatSeconds then
            some { state with heartbeat := .returned }
          else none
      | _, _ => none
  | .elapse seconds =>
      if 0 ≤ seconds then some { state with clock := state.clock + seconds }
      else none

def consumerEvents (_state : ConsumerState) :
    ConsumerAction → List ConsumerEvent
  | .handled (.ok true) =>
      [.handled (.ok true), .ackCalled consumption.receiptHandle]
  | .handled outcome => [.handled outcome]
  | .acked outcome => [.acked outcome]
  | .tick =>
      [.heartbeatCalled consumption.receiptHandle
        consumption.visibilitySeconds]
  | .extended (.ok ()) =>
      .heartbeatEnded (.ok ()) ::
        (if consumption.hasHook then [.hookCalled] else [])
  | .extended outcome => [.heartbeatEnded outcome]
  | .hooked outcome => [.hookEnded outcome]
  | .finish | .begin | .stopped | .elapse _ => []

/-- What each step can do. -/
inductive ConsumerMove (state : ConsumerState) :
    ConsumerAction → ConsumerState → Prop where
  | succeed (handling : state.consumer = .handling) :
      ConsumerMove state (.handled (.ok true)) { state with consumer := .acking }
  | refuse (handling : state.consumer = .handling) :
      ConsumerMove state (.handled (.ok false)) (state.leave (.ok false))
  | fail {message : String} (handling : state.consumer = .handling) :
      ConsumerMove state (.handled (.error message))
        (state.leave (.error (.handler message)))
  | acknowledge (acking : state.consumer = .acking) :
      ConsumerMove state (.acked (.ok ())) (state.leave (.ok true))
  | failAck {message : String} (acking : state.consumer = .acking) :
      ConsumerMove state (.acked (.error message))
        (state.leave (.error (.ack message)))
  | finish {outcome : ConsumerOutcome}
      (leaving : state.consumer = .leaving outcome)
      (returned : state.heartbeat = .returned) :
      ConsumerMove state .finish { state with consumer := .ended outcome }
  | finishRaised {outcome : ConsumerOutcome} {error : ConsumerError}
      (leaving : state.consumer = .leaving outcome)
      (raised : state.heartbeat = .raised error) :
      ConsumerMove state .finish { state with consumer := .ended (.error error) }
  | begin (created : state.heartbeat = .created) :
      ConsumerMove state .begin (state.await consumption.heartbeatSeconds)
  | tick {due : Rat} (waiting : state.heartbeat = .waiting true)
      (isDue : state.due = some due) (reached : due ≤ state.clock) :
      ConsumerMove state .tick
        { state with heartbeat := .extending, due := none }
  | callHook (extending : state.heartbeat = .extending)
      (hooked : consumption.hasHook = true) :
      ConsumerMove state (.extended (.ok ())) { state with heartbeat := .hooking }
  | extended (extending : state.heartbeat = .extending)
      (unhooked : consumption.hasHook = false) :
      ConsumerMove state (.extended (.ok ()))
        (state.await consumption.heartbeatSeconds)
  | failHeartbeat {message : String} (extending : state.heartbeat = .extending) :
      ConsumerMove state (.extended (.error message))
        (state.die consumption.heartbeatSeconds (.heartbeat message))
  | hooked (hooking : state.heartbeat = .hooking) :
      ConsumerMove state (.hooked (.ok ()))
        (state.await consumption.heartbeatSeconds)
  | failHook {message : String} (hooking : state.heartbeat = .hooking) :
      ConsumerMove state (.hooked (.error message))
        (state.die consumption.heartbeatSeconds (.hook message))
  | stopped {armed : Bool} (waiting : state.heartbeat = .waiting armed)
      (isSet : state.stop = true)
      (positive : 0 < consumption.heartbeatSeconds) :
      ConsumerMove state .stopped { state with heartbeat := .returned }
  | elapse {seconds : Rat} (forward : 0 ≤ seconds) :
      ConsumerMove state (.elapse seconds)
        { state with clock := state.clock + seconds }

end Step

theorem consumerStep_moves {consumption : Consumption}
    {state next : ConsumerState} {action : ConsumerAction}
    (stepped : consumerStep consumption state action = some next) :
    ConsumerMove consumption state action next := by
  cases action with
  | handled outcome =>
      simp only [consumerStep] at stepped
      split at stepped
      next handling =>
        cases stepped
        exact .succeed handling
      next handling =>
        cases stepped
        exact .refuse handling
      next handling =>
        cases stepped
        exact .fail handling
      next => cases stepped
  | acked outcome =>
      simp only [consumerStep] at stepped
      split at stepped
      next acking =>
        cases stepped
        exact .acknowledge acking
      next acking =>
        cases stepped
        exact .failAck acking
      next => cases stepped
  | finish =>
      simp only [consumerStep] at stepped
      split at stepped
      next leaving returned =>
        cases stepped
        exact .finish leaving returned
      next leaving raised =>
        cases stepped
        exact .finishRaised leaving raised
      next => cases stepped
  | begin =>
      simp only [consumerStep] at stepped
      split at stepped
      next created =>
        cases stepped
        exact .begin created
      next => cases stepped
  | tick =>
      simp only [consumerStep] at stepped
      split at stepped
      next waiting isDue =>
        split at stepped
        next reached =>
          cases stepped
          exact .tick waiting isDue reached
        next => cases stepped
      next => cases stepped
  | extended outcome =>
      simp only [consumerStep] at stepped
      split at stepped
      next extending =>
        split at stepped
        next hooked =>
          cases stepped
          exact .callHook extending hooked
        next unhooked =>
          cases stepped
          exact .extended extending (Bool.eq_false_iff.mpr unhooked)
      next extending =>
        cases stepped
        exact .failHeartbeat extending
      next => cases stepped
  | hooked outcome =>
      simp only [consumerStep] at stepped
      split at stepped
      next hooking =>
        cases stepped
        exact .hooked hooking
      next hooking =>
        cases stepped
        exact .failHook hooking
      next => cases stepped
  | stopped =>
      simp only [consumerStep] at stepped
      split at stepped
      next waiting isSet =>
        split at stepped
        next positive =>
          cases stepped
          exact .stopped waiting isSet positive
        next => cases stepped
      next => cases stepped
  | elapse seconds =>
      simp only [consumerStep] at stepped
      split at stepped
      next forward =>
        cases stepped
        exact .elapse forward
      next => cases stepped

/-! ## The fate of the message -/

/-- `ack` is called once if the handler returned `True`, and never
otherwise. -/
def AckRule (events : List ConsumerEvent) : Prop :=
  (events.countP fun event => event matches .ackCalled _) =
    if .handled (.ok true) ∈ events then 1 else 0

/-- The outcome is the handler's, or the exception of `ack`. -/
def OwnOutcome (events : List ConsumerEvent) : ConsumerOutcome → Prop
  | .ok true => .handled (.ok true) ∈ events ∧ .acked (.ok ()) ∈ events
  | .ok false => .handled (.ok false) ∈ events
  | .error (.handler message) => .handled (.error message) ∈ events
  | .error (.ack message) =>
      .handled (.ok true) ∈ events ∧ .acked (.error message) ∈ events
  | .error (.heartbeat _) | .error (.hook _) => False

/-- While the handler runs, a tick that is due can start. -/
def TicksContinue (consumption : Consumption) (state : ConsumerState) : Prop :=
  match state.consumer, state.due with
  | .handling, some due =>
      due ≤ state.clock → (consumerStep consumption state .tick).isSome = true
  | _, _ => True

/-- A call of the heartbeat task has raised. -/
def TickRaised (events : List ConsumerEvent) : Prop :=
  ∃ message, .heartbeatEnded (.error message) ∈ events ∨
    .hookEnded (.error message) ∈ events

/-- What `consume_with_heartbeat` is to do in a run. -/
structure FateKept (consumption : Consumption) (start : ConsumerState)
    (actions : List ConsumerAction) (state : ConsumerState) : Prop where
  acks : AckRule (history (consumerStep consumption)
    (consumerEvents consumption) start actions)
  outcome : ∀ outcome, state.consumer = .ended outcome →
    OwnOutcome (history (consumerStep consumption)
      (consumerEvents consumption) start actions) outcome
  ticks : ∀ before after middle, before ++ after = actions →
    Runs (consumerStep consumption) Always start before middle →
    TicksContinue consumption middle
  silent : ∀ outcome, state.consumer = .ended outcome →
    ∀ more later, Runs (consumerStep consumption) Always state more later →
      history (consumerStep consumption) (consumerEvents consumption) state
        more = []

/-! ## The invariant -/

/-- Where the coroutine stands, after what it has called. -/
def ConsumerAgrees (events : List ConsumerEvent) (state : ConsumerState) :
    Prop :=
  match state.consumer with
  | .handling => (∀ outcome, .handled outcome ∉ events) ∧ state.stop = false
  | .acking => .handled (.ok true) ∈ events ∧ state.stop = false
  | .leaving outcome => state.stop = true ∧ OwnOutcome events outcome
  | .ended outcome =>
      state.heartbeat = .returned ∧ OwnOutcome events outcome ∨
        ∃ error, state.heartbeat = .raised error ∧ outcome = .error error

/-- Where the heartbeat task stands. -/
def HeartbeatAgrees (events : List ConsumerEvent) (state : ConsumerState) :
    Prop :=
  match state.heartbeat with
  | .created | .extending | .hooking => state.due = none ∧ ¬ TickRaised events
  | .waiting armed =>
      state.due.isSome = true ∧ (state.stop = false → armed = true) ∧
        ¬ TickRaised events
  | .returned => state.stop = true ∧ ¬ TickRaised events
  | .raised error =>
      TickRaised events ∧
        ∃ message, error = .heartbeat message ∨ error = .hook message

structure Consumed (events : List ConsumerEvent) (state : ConsumerState) :
    Prop where
  acks : AckRule events
  consumer : ConsumerAgrees events state
  heartbeat : HeartbeatAgrees events state

/-- An event that has no part in the acknowledgement. -/
def ConsumerEvent.undecisive : ConsumerEvent → Bool
  | .handled (.ok true) | .ackCalled _ => false
  | _ => true

/-- An event that is not the failure of a tick. -/
def ConsumerEvent.steady : ConsumerEvent → Bool
  | .heartbeatEnded (.error _) | .hookEnded (.error _) => false
  | _ => true

theorem AckRule.append {events more : List ConsumerEvent}
    (rule : AckRule events)
    (undecisive : ∀ event ∈ more, event.undecisive = true) :
    AckRule (events ++ more) := by
  have silent : (more.countP fun event => event matches .ackCalled _) = 0 := by
    rw [List.countP_eq_zero]
    intro event member
    have kind := undecisive event member
    cases event with
    | ackCalled => cases kind
    | _ => simp
  have unhandled : (.handled (.ok true) ∈ events ++ more) ↔
      .handled (.ok true) ∈ events := by
    rw [List.mem_append]
    constructor
    · intro inside
      rcases inside with old | new
      · exact old
      · cases undecisive _ new
    · exact .inl
  unfold AckRule at rule ⊢
  rw [List.countP_append, silent, Nat.add_zero, rule]
  simp only [unhandled]

theorem not_tickRaised_of_steady {events : List ConsumerEvent}
    (steady : ∀ event ∈ events, event.steady = true) :
    ¬ TickRaised events := by
  intro ⟨message, raised⟩
  rcases raised with extended | hooked
  · cases steady _ extended
  · cases steady _ hooked

theorem not_tickRaised_append {events more : List ConsumerEvent}
    (calm : ¬ TickRaised events)
    (steady : ∀ event ∈ more, event.steady = true) :
    ¬ TickRaised (events ++ more) := by
  have calmMore := not_tickRaised_of_steady steady
  intro ⟨message, raised⟩
  simp only [List.mem_append] at raised
  rcases raised with (old | new) | (old | new)
  · exact calm ⟨message, .inl old⟩
  · exact calmMore ⟨message, .inl new⟩
  · exact calm ⟨message, .inr old⟩
  · exact calmMore ⟨message, .inr new⟩

theorem TickRaised.append {events : List ConsumerEvent}
    (raised : TickRaised events) (more : List ConsumerEvent) :
    TickRaised (events ++ more) := by
  obtain ⟨message, inside⟩ := raised
  refine ⟨message, ?_⟩
  rcases inside with extended | hooked
  · exact .inl (List.mem_append_left more extended)
  · exact .inr (List.mem_append_left more hooked)

theorem OwnOutcome.append {events : List ConsumerEvent}
    {outcome : ConsumerOutcome} (own : OwnOutcome events outcome)
    (more : List ConsumerEvent) : OwnOutcome (events ++ more) outcome := by
  cases outcome with
  | ok succeeded =>
      cases succeeded with
      | true =>
          exact ⟨List.mem_append_left more own.1,
            List.mem_append_left more own.2⟩
      | false => exact List.mem_append_left more own
  | error error =>
      cases error with
      | handler message => exact List.mem_append_left more own
      | ack message =>
          exact ⟨List.mem_append_left more own.1,
            List.mem_append_left more own.2⟩
      | heartbeat | hook => exact own

/-- The handler succeeds, and `ack` is called. -/
theorem AckRule.succeed {events : List ConsumerEvent} (rule : AckRule events)
    (unhandled : ∀ outcome, .handled outcome ∉ events)
    (receiptHandle : String) :
    AckRule (events ++ [.handled (.ok true), .ackCalled receiptHandle]) := by
  unfold AckRule at rule ⊢
  rw [if_neg (unhandled _)] at rule
  rw [List.countP_append, rule, if_pos]
  · rfl
  · exact List.mem_append_right events List.mem_cons_self

section Step

variable {consumption : Consumption} {events : List ConsumerEvent}
  {state : ConsumerState}

/-- A step of the heartbeat task. -/
theorem ConsumerAgrees.heartbeatStep (agrees : ConsumerAgrees events state)
    (next : ConsumerState)
    (running : state.heartbeat ≠ .returned ∧
      ∀ error, state.heartbeat ≠ .raised error)
    (sameConsumer : next.consumer = state.consumer)
    (sameStop : next.stop = state.stop) {more : List ConsumerEvent}
    (unhandled : ∀ outcome, .handled outcome ∉ more) :
    ConsumerAgrees (events ++ more) next := by
  unfold ConsumerAgrees at agrees ⊢
  rw [sameConsumer, sameStop]
  cases standing : state.consumer with
  | handling =>
      rw [standing] at agrees
      refine ⟨?_, agrees.2⟩
      intro outcome inside
      rcases List.mem_append.mp inside with old | new
      · exact agrees.1 outcome old
      · exact unhandled outcome new
  | acking =>
      rw [standing] at agrees
      exact ⟨List.mem_append_left more agrees.1, agrees.2⟩
  | leaving outcome =>
      rw [standing] at agrees
      exact ⟨agrees.1, agrees.2.append more⟩
  | ended outcome =>
      rw [standing] at agrees
      rcases agrees with ⟨returned, _⟩ | ⟨error, raised, _⟩
      · exact absurd returned running.1
      · exact absurd raised (running.2 error)

/-- A step of the coroutine itself. -/
theorem HeartbeatAgrees.consumerStep (agrees : HeartbeatAgrees events state)
    (next : ConsumerState)
    (sameHeartbeat : next.heartbeat = state.heartbeat)
    (sameDue : next.due = state.due)
    (stopStays : state.stop = true → next.stop = true)
    {more : List ConsumerEvent}
    (steady : ∀ event ∈ more, event.steady = true) :
    HeartbeatAgrees (events ++ more) next := by
  unfold HeartbeatAgrees at agrees ⊢
  rw [sameHeartbeat, sameDue]
  cases standing : state.heartbeat with
  | created | extending | hooking =>
      rw [standing] at agrees
      exact ⟨agrees.1, not_tickRaised_append agrees.2 steady⟩
  | waiting armed =>
      rw [standing] at agrees
      obtain ⟨isDue, isArmed, calm⟩ := agrees
      refine ⟨isDue, ?_, not_tickRaised_append calm steady⟩
      intro unset
      apply isArmed
      cases isSet : state.stop with
      | false => rfl
      | true => exact absurd (stopStays isSet) (by rw [unset]; decide)
  | returned =>
      rw [standing] at agrees
      exact ⟨stopStays agrees.1, not_tickRaised_append agrees.2 steady⟩
  | raised error =>
      rw [standing] at agrees
      exact ⟨agrees.1.append more, agrees.2⟩

namespace Consumed

/-- The `try` block is left. -/
theorem leave (consumed : Consumed events state) {outcome : ConsumerOutcome}
    {more : List ConsumerEvent} (own : OwnOutcome (events ++ more) outcome)
    (undecisive : ∀ event ∈ more, event.undecisive = true)
    (steady : ∀ event ∈ more, event.steady = true) :
    Consumed (events ++ more) (state.leave outcome) :=
  ⟨consumed.acks.append undecisive, ⟨rfl, own⟩,
    consumed.heartbeat.consumerStep (state.leave outcome) rfl rfl
      (fun _ => rfl) steady⟩

/-- The heartbeat task waits again. -/
theorem await (consumed : Consumed events state)
    (running : state.heartbeat ≠ .returned ∧
      ∀ error, state.heartbeat ≠ .raised error)
    (calm : ¬ TickRaised events) (heartbeatSeconds : Rat)
    {more : List ConsumerEvent}
    (unhandled : ∀ outcome, .handled outcome ∉ more)
    (undecisive : ∀ event ∈ more, event.undecisive = true)
    (steady : ∀ event ∈ more, event.steady = true) :
    Consumed (events ++ more) (state.await heartbeatSeconds) := by
  refine ⟨consumed.acks.append undecisive,
    consumed.consumer.heartbeatStep (state.await heartbeatSeconds) running rfl
      rfl unhandled, rfl, ?_, not_tickRaised_append calm steady⟩
  intro unset
  have isUnset : state.stop = false := unset
  simp [isUnset]

/-- A call of a tick raises. -/
theorem die (consumed : Consumed events state)
    (running : state.heartbeat ≠ .returned ∧
      ∀ error, state.heartbeat ≠ .raised error)
    (heartbeatSeconds : Rat) {error : ConsumerError}
    {event : ConsumerEvent} {message : String}
    (failed : event = .heartbeatEnded (.error message) ∧
        error = .heartbeat message ∨
      event = .hookEnded (.error message) ∧ error = .hook message) :
    Consumed (events ++ [event]) (state.die heartbeatSeconds error) := by
  rcases failed with ⟨rfl, rfl⟩ | ⟨rfl, rfl⟩
  · refine ⟨consumed.acks.append (by simp [ConsumerEvent.undecisive]),
      consumed.consumer.heartbeatStep (state.die heartbeatSeconds _) running
        rfl rfl (by simp), ?_, message, .inl rfl⟩
    exact ⟨message,
      .inl (List.mem_append_right events (List.mem_singleton_self _))⟩
  · refine ⟨consumed.acks.append (by simp [ConsumerEvent.undecisive]),
      consumed.consumer.heartbeatStep (state.die heartbeatSeconds _) running
        rfl rfl (by simp), ?_, message, .inr rfl⟩
    exact ⟨message,
      .inr (List.mem_append_right events (List.mem_singleton_self _))⟩

theorem initial (clock : Rat) : Consumed [] (.initial clock) := by
  refine ⟨rfl, ⟨?_, rfl⟩, rfl, ?_⟩
  · intro outcome inside
    cases inside
  · intro ⟨message, raised⟩
    rcases raised with inside | inside
    · cases inside
    · cases inside

/-- The heartbeat task moves, without a failure. -/
theorem move (consumed : Consumed events state) (next : ConsumerState)
    (running : state.heartbeat ≠ .returned ∧
      ∀ error, state.heartbeat ≠ .raised error)
    (sameConsumer : next.consumer = state.consumer)
    (sameStop : next.stop = state.stop) {more : List ConsumerEvent}
    (unhandled : ∀ outcome, .handled outcome ∉ more)
    (undecisive : ∀ event ∈ more, event.undecisive = true)
    (agrees : HeartbeatAgrees (events ++ more) next) :
    Consumed (events ++ more) next :=
  ⟨consumed.acks.append undecisive,
    consumed.consumer.heartbeatStep next running sameConsumer sameStop
      unhandled, agrees⟩

theorem step {next : ConsumerState} {action : ConsumerAction}
    (consumed : Consumed events state)
    (stepped : consumerStep consumption state action = some next) :
    Consumed (events ++ consumerEvents consumption state action) next := by
  have consumer := consumed.consumer
  have heartbeat := consumed.heartbeat
  unfold ConsumerAgrees at consumer
  unfold HeartbeatAgrees at heartbeat
  cases consumerStep_moves stepped with
  | succeed handling =>
      rw [handling] at consumer
      refine ⟨consumed.acks.succeed consumer.1 _, ⟨?_, consumer.2⟩, ?_⟩
      · exact List.mem_append_right events List.mem_cons_self
      · apply consumed.heartbeat.consumerStep _ rfl rfl id
        simp [consumerEvents, ConsumerEvent.steady]
  | refuse handling =>
      apply consumed.leave
      · exact List.mem_append_right events (List.mem_singleton_self _)
      · simp [consumerEvents, ConsumerEvent.undecisive]
      · simp [consumerEvents, ConsumerEvent.steady]
  | fail handling =>
      apply consumed.leave
      · exact List.mem_append_right events (List.mem_singleton_self _)
      · simp [consumerEvents, ConsumerEvent.undecisive]
      · simp [consumerEvents, ConsumerEvent.steady]
  | acknowledge acking =>
      rw [acking] at consumer
      apply consumed.leave
      · exact ⟨List.mem_append_left _ consumer.1,
          List.mem_append_right events (List.mem_singleton_self _)⟩
      · simp [consumerEvents, ConsumerEvent.undecisive]
      · simp [consumerEvents, ConsumerEvent.steady]
  | failAck acking =>
      rw [acking] at consumer
      apply consumed.leave
      · exact ⟨List.mem_append_left _ consumer.1,
          List.mem_append_right events (List.mem_singleton_self _)⟩
      · simp [consumerEvents, ConsumerEvent.undecisive]
      · simp [consumerEvents, ConsumerEvent.steady]
  | finish leaving returned =>
      rw [leaving] at consumer
      rw [consumerEvents, List.append_nil]
      exact ⟨consumed.acks, .inl ⟨returned, consumer.2⟩, consumed.heartbeat⟩
  | finishRaised leaving raised =>
      rw [consumerEvents, List.append_nil]
      exact ⟨consumed.acks, .inr ⟨_, raised, rfl⟩, consumed.heartbeat⟩
  | begin created =>
      rw [created] at heartbeat
      apply consumed.await (by simp [created]) heartbeat.2
      · simp [consumerEvents]
      · simp [consumerEvents]
      · simp [consumerEvents]
  | tick waiting isDue reached =>
      rw [waiting] at heartbeat
      refine consumed.move _ (by simp [waiting]) ?_ ?_ ?_ ?_ ?_
      · rfl
      · rfl
      · simp [consumerEvents]
      · simp [consumerEvents, ConsumerEvent.undecisive]
      · refine ⟨rfl, not_tickRaised_append heartbeat.2.2 ?_⟩
        simp [consumerEvents, ConsumerEvent.steady]
  | callHook extending hooked =>
      rw [extending] at heartbeat
      refine consumed.move _ (by simp [extending]) ?_ ?_ ?_ ?_ ?_
      · rfl
      · rfl
      · simp [consumerEvents, hooked]
      · simp [consumerEvents, hooked, ConsumerEvent.undecisive]
      · refine ⟨heartbeat.1, not_tickRaised_append heartbeat.2 ?_⟩
        simp [consumerEvents, hooked, ConsumerEvent.steady]
  | extended extending unhooked =>
      rw [extending] at heartbeat
      apply consumed.await (by simp [extending]) heartbeat.2
      · simp [consumerEvents, unhooked]
      · simp [consumerEvents, unhooked, ConsumerEvent.undecisive]
      · simp [consumerEvents, unhooked, ConsumerEvent.steady]
  | failHeartbeat extending =>
      exact consumed.die (by simp [extending]) _ (.inl ⟨rfl, rfl⟩)
  | hooked hooking =>
      rw [hooking] at heartbeat
      apply consumed.await (by simp [hooking]) heartbeat.2
      · simp [consumerEvents]
      · simp [consumerEvents, ConsumerEvent.undecisive]
      · simp [consumerEvents, ConsumerEvent.steady]
  | failHook hooking =>
      exact consumed.die (by simp [hooking]) _ (.inr ⟨rfl, rfl⟩)
  | stopped waiting isSet =>
      rw [waiting] at heartbeat
      rw [consumerEvents]
      refine consumed.move _ (by simp [waiting]) ?_ ?_ ?_ ?_ ?_
      · rfl
      · rfl
      · simp
      · simp
      · exact ⟨isSet, not_tickRaised_append heartbeat.2.2 (by simp)⟩
  | elapse forward =>
      rw [consumerEvents, List.append_nil]
      exact ⟨consumed.acks, consumed.consumer, consumed.heartbeat⟩

theorem run {clock : Rat} {actions : List ConsumerAction}
    (execution : Runs (consumerStep consumption) Always (.initial clock)
      actions state) :
    Consumed (history (consumerStep consumption) (consumerEvents consumption)
      (.initial clock) actions) state :=
  execution.invariant_with_history
    (fun consumed _ stepped => Consumed.step consumed stepped) (initial clock)

/-- As long as no tick has raised, the next one can start when it is due. -/
theorem ticksContinue (consumed : Consumed events state)
    (calm : ¬ TickRaised events) : TicksContinue consumption state := by
  have consumer := consumed.consumer
  have heartbeat := consumed.heartbeat
  unfold ConsumerAgrees at consumer
  unfold HeartbeatAgrees at heartbeat
  unfold TicksContinue
  split
  next due handling isDue =>
    intro reached
    rw [handling] at consumer
    cases standing : state.heartbeat with
    | created | extending | hooking =>
        rw [standing, isDue] at heartbeat
        cases heartbeat.1
    | waiting armed =>
        rw [standing] at heartbeat
        have isArmed := heartbeat.2.1 consumer.2
        simp [consumerStep, standing, isArmed, isDue, reached]
    | returned =>
        rw [standing, consumer.2] at heartbeat
        cases heartbeat.1
    | raised error =>
        rw [standing] at heartbeat
        exact absurd heartbeat.1 calm
  next => trivial

end Consumed

/-! ## The end of a call -/

/-- The call can end with this outcome. -/
def CanEnd (consumption : Consumption) (state : ConsumerState)
    (outcome : ConsumerOutcome) : Prop :=
  ∃ more later, Runs (consumerStep consumption) Always state more later ∧
    later.consumer = .ended outcome

theorem CanEnd.of_step {next : ConsumerState} {action : ConsumerAction}
    {outcome : ConsumerOutcome}
    (stepped : consumerStep consumption state action = some next)
    (ends : CanEnd consumption next outcome) :
    CanEnd consumption state outcome := by
  obtain ⟨more, later, execution, ended⟩ := ends
  exact ⟨action :: more, later, .cons trivial stepped execution, ended⟩

theorem canEnd_of_returned {outcome : ConsumerOutcome}
    (leaving : state.consumer = .leaving outcome)
    (returned : state.heartbeat = .returned) :
    CanEnd consumption state outcome := by
  have finished : consumerStep consumption state .finish =
      some { state with consumer := .ended outcome } := by
    simp [consumerStep, leaving, returned]
  exact ⟨[.finish], _, .cons trivial finished (.nil _), rfl⟩

/-- The heartbeat task sees the stop event. -/
theorem canEnd_of_waiting (positive : 0 < consumption.heartbeatSeconds)
    {outcome : ConsumerOutcome} (leaving : state.consumer = .leaving outcome)
    (isSet : state.stop = true) {armed : Bool}
    (waiting : state.heartbeat = .waiting armed) :
    CanEnd consumption state outcome := by
  have stopped : consumerStep consumption state .stopped =
      some { state with heartbeat := .returned } := by
    simp [consumerStep, waiting, isSet, positive]
  exact .of_step stopped (canEnd_of_returned leaving rfl)

theorem canEnd_of_hooking (positive : 0 < consumption.heartbeatSeconds)
    {outcome : ConsumerOutcome} (leaving : state.consumer = .leaving outcome)
    (isSet : state.stop = true) (hooking : state.heartbeat = .hooking) :
    CanEnd consumption state outcome := by
  have hooked : consumerStep consumption state (.hooked (.ok ())) =
      some (state.await consumption.heartbeatSeconds) := by
    simp [consumerStep, hooking]
  exact .of_step hooked (canEnd_of_waiting positive leaving isSet rfl)

theorem canEnd_of_extending (positive : 0 < consumption.heartbeatSeconds)
    {outcome : ConsumerOutcome} (leaving : state.consumer = .leaving outcome)
    (isSet : state.stop = true) (extending : state.heartbeat = .extending) :
    CanEnd consumption state outcome := by
  by_cases hooks : consumption.hasHook = true
  · have extended : consumerStep consumption state (.extended (.ok ())) =
        some { state with heartbeat := .hooking } := by
      simp [consumerStep, extending, hooks]
    exact .of_step extended (canEnd_of_hooking positive leaving isSet rfl)
  · have extended : consumerStep consumption state (.extended (.ok ())) =
        some (state.await consumption.heartbeatSeconds) := by
      simp [consumerStep, extending, hooks]
    exact .of_step extended (canEnd_of_waiting positive leaving isSet rfl)

/-- Whatever the heartbeat task does when the `try` block is left, the call can
end with what the block left. -/
theorem Consumed.canEnd (consumed : Consumed events state)
    (positive : 0 < consumption.heartbeatSeconds) (calm : ¬ TickRaised events)
    {outcome : ConsumerOutcome} (leaving : state.consumer = .leaving outcome) :
    CanEnd consumption state outcome := by
  have consumer := consumed.consumer
  have heartbeat := consumed.heartbeat
  unfold ConsumerAgrees at consumer
  unfold HeartbeatAgrees at heartbeat
  rw [leaving] at consumer
  have isSet := consumer.1
  cases standing : state.heartbeat with
  | created =>
      have begun : consumerStep consumption state .begin =
          some (state.await consumption.heartbeatSeconds) := by
        simp [consumerStep, standing]
      exact .of_step begun (canEnd_of_waiting positive leaving isSet rfl)
  | waiting armed => exact canEnd_of_waiting positive leaving isSet standing
  | extending => exact canEnd_of_extending positive leaving isSet standing
  | hooking => exact canEnd_of_hooking positive leaving isSet standing
  | returned => exact canEnd_of_returned leaving standing
  | raised error =>
      rw [standing] at heartbeat
      exact absurd heartbeat.1 calm

/-- `consume_with_heartbeat` has returned, and nothing was called since. -/
structure Over (since : List ConsumerEvent) (state : ConsumerState) : Prop where
  consumer : ∃ outcome, state.consumer = .ended outcome
  heartbeat : state.heartbeat = .returned ∨ ∃ error, state.heartbeat = .raised error
  nothing : since = []

theorem Over.step {next : ConsumerState} {action : ConsumerAction}
    (passed : Over events state)
    (stepped : consumerStep consumption state action = some next) :
    Over (events ++ consumerEvents consumption state action) next := by
  obtain ⟨outcome, ended⟩ := passed.consumer
  have idle : ∀ phase, state.heartbeat = phase →
      phase = .returned ∨ ∃ error, phase = .raised error := by
    intro phase same
    rw [← same]
    exact passed.heartbeat
  cases consumerStep_moves stepped with
  | succeed standing | refuse standing | fail standing | acknowledge standing
  | failAck standing | finish standing | finishRaised standing =>
      cases ended.symm.trans standing
  | begin standing | tick standing | callHook standing | extended standing
  | failHeartbeat standing | hooked standing | failHook standing
  | stopped standing =>
      rcases idle _ standing with same | ⟨error, same⟩
      · cases same
      · cases same
  | elapse forward =>
      rw [consumerEvents, List.append_nil]
      exact ⟨passed.consumer, passed.heartbeat, passed.nothing⟩

/-- A call that has returned calls nothing more. -/
theorem Consumed.silent (consumed : Consumed events state)
    {outcome : ConsumerOutcome} (ended : state.consumer = .ended outcome)
    {more : List ConsumerAction} {later : ConsumerState}
    (execution : Runs (consumerStep consumption) Always state more later) :
    history (consumerStep consumption) (consumerEvents consumption) state
      more = [] := by
  have idle : state.heartbeat = .returned ∨
      ∃ error, state.heartbeat = .raised error := by
    have consumer := consumed.consumer
    unfold ConsumerAgrees at consumer
    rw [ended] at consumer
    rcases consumer with ⟨returned, _⟩ | ⟨error, raised, _⟩
    · exact .inl returned
    · exact .inr ⟨error, raised⟩
  have passed : Over (history (consumerStep consumption)
      (consumerEvents consumption) state more) later :=
    execution.invariant_with_history
      (fun passed _ stepped => Over.step passed stepped)
      (Over.mk ⟨outcome, ended⟩ idle rfl)
  exact passed.nothing

/-- The outcome is the coroutine's own one, unless the exception of a tick has
taken its place. -/
theorem Consumed.own_iff (consumed : Consumed events state)
    {outcome : ConsumerOutcome} (ended : state.consumer = .ended outcome) :
    OwnOutcome events outcome ↔ ¬ TickRaised events := by
  have consumer := consumed.consumer
  have heartbeat := consumed.heartbeat
  unfold ConsumerAgrees at consumer
  unfold HeartbeatAgrees at heartbeat
  rw [ended] at consumer
  rcases consumer with ⟨returned, own⟩ | ⟨error, isRaised, rfl⟩
  · rw [returned] at heartbeat
    exact iff_of_true own heartbeat.2
  · rw [isRaised] at heartbeat
    obtain ⟨raised, message, rfl | rfl⟩ := heartbeat
    · exact iff_of_false id (not_not_intro raised)
    · exact iff_of_false id (not_not_intro raised)

end Step

/-- With a positive interval, a run in which no tick raises keeps the fate of
the message, whether it has ended or not, and can end with what the `try` block
left; and a run that has ended keeps it only if no tick has raised. -/
theorem fate_kept_iff_no_tick_raised (consumption : Consumption)
    (positive : 0 < consumption.heartbeatSeconds) (clock : Rat)
    {actions : List ConsumerAction} {state : ConsumerState}
    (execution : Runs (consumerStep consumption) Always (.initial clock)
      actions state) :
    (¬ TickRaised (history (consumerStep consumption)
        (consumerEvents consumption) (.initial clock) actions) →
      FateKept consumption (.initial clock) actions state ∧
        ∀ outcome, state.consumer = .leaving outcome →
          CanEnd consumption state outcome) ∧
    ∀ outcome, state.consumer = .ended outcome →
      (FateKept consumption (.initial clock) actions state ↔
        ¬ TickRaised (history (consumerStep consumption)
          (consumerEvents consumption) (.initial clock) actions)) := by
  have consumed := Consumed.run execution
  have kept : ¬ TickRaised (history (consumerStep consumption)
      (consumerEvents consumption) (.initial clock) actions) →
      FateKept consumption (.initial clock) actions state := by
    intro calm
    refine ⟨consumed.acks, ?_, ?_, ?_⟩
    · intro outcome ended
      exact (consumed.own_iff ended).mpr calm
    · intro before after middle split first
      apply (Consumed.run first).ticksContinue
      intro raised
      apply calm
      rw [← split, first.history_append]
      exact raised.append _
    · intro outcome ended more later continued
      exact consumed.silent ended continued
  refine ⟨?_, ?_⟩
  · intro calm
    exact ⟨kept calm, fun outcome leaving =>
      consumed.canEnd positive calm leaving⟩
  · intro outcome ended
    constructor
    · intro fate
      exact (consumed.own_iff ended).mp (fate.outcome outcome ended)
    · exact kept

/-! The visibility is extended twice, and the message is acknowledged. -/

private def demoConsumption : Consumption :=
  { receiptHandle := "receipt", heartbeatSeconds := 60
    visibilitySeconds := 300, hasHook := true }

private def steadyTicks : List ConsumerAction :=
  [.begin, .elapse 60, .tick, .extended (.ok ()), .hooked (.ok ()), .elapse 75,
    .tick, .extended (.ok ()), .handled (.ok true), .hooked (.ok ()),
    .acked (.ok ()), .stopped, .finish]

theorem steady_ticks_keep_fate :
    ∃ state, Runs (consumerStep demoConsumption) Always (.initial 0)
        steadyTicks state ∧
      FateKept demoConsumption (.initial 0) steadyTicks state := by
  have evaluated : ((Transition.run (consumerStep demoConsumption) Always
      (.initial 0) steadyTicks).isSome &&
        (history (consumerStep demoConsumption)
          (consumerEvents demoConsumption) (.initial 0) steadyTicks).all
            ConsumerEvent.steady) = true := by
    decide +kernel
  rw [Bool.and_eq_true, List.all_eq_true] at evaluated
  obtain ⟨state, result⟩ := Option.isSome_iff_exists.mp evaluated.1
  have execution := runs_of_run result
  have calm := not_tickRaised_of_steady evaluated.2
  exact ⟨state, execution,
    ((fate_kept_iff_no_tick_raised demoConsumption (by decide) 0
      execution).1 calm).1⟩

/-! SQS throttles the first tick. -/

private def throttledTick : List ConsumerAction :=
  [.begin, .elapse 60, .tick, .extended (.error "ThrottlingException"),
    .elapse 60, .elapse 60]

private def successAfterwards : List ConsumerAction :=
  [.handled (.ok true), .acked (.ok ()), .finish]

private def unextended : ConsumerState :=
  { consumer := .handling
    heartbeat := .raised (.heartbeat "ThrottlingException"), stop := false
    clock := 180, due := some 120 }

private def acknowledgedAndRaised : ConsumerState :=
  { unextended with
    consumer := .ended (.error (.heartbeat "ThrottlingException"))
    stop := true }

/-- A failed tick stops the heartbeat under the running handler, and its
exception is raised for a message that was handled and acknowledged. -/
theorem throttled_tick_changes_fate :
    Runs (consumerStep demoConsumption) Always (.initial 0) throttledTick
        unextended ∧
      ¬ TicksContinue demoConsumption unextended ∧
      Runs (consumerStep demoConsumption) Always unextended successAfterwards
        acknowledgedAndRaised ∧
      .acked (.ok ()) ∈ history (consumerStep demoConsumption)
        (consumerEvents demoConsumption) unextended successAfterwards ∧
      acknowledgedAndRaised.consumer =
        .ended (.error (.heartbeat "ThrottlingException")) ∧
      ¬ FateKept demoConsumption (.initial 0)
        (throttledTick ++ successAfterwards) acknowledgedAndRaised := by
  have first : Runs (consumerStep demoConsumption) Always (.initial 0)
      throttledTick unextended := runs_of_run (by decide +kernel)
  have stopped : ¬ TicksContinue demoConsumption unextended := by
    intro continues
    have enabled := continues (by decide +kernel)
    cases enabled
  refine ⟨first, stopped, runs_of_run (by decide +kernel), by decide +kernel,
    rfl, ?_⟩
  intro fate
  exact stopped (fate.ticks throttledTick successAfterwards unextended rfl first)

end FleetPrivacy
