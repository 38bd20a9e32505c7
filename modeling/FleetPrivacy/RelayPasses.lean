import FleetPrivacy.Library.Table
import FleetPrivacy.Library.Transition
import FleetPrivacy.Outbox

/-!
# Concurrent relay passes

`relay_outbox_once` on PostgreSQL, one row at a time: the select takes a
snapshot, skips rows that another pass has locked and checks its predicate
again on the latest version of each row it locks.  A publish is a call in
flight; the queue may accept its message at any time until the call returns,
and after it if the call raised or its pass was lost.
-/

namespace FleetPrivacy

open Transition

/-- How `queue.publish` ended.  A call that is cut off stays in flight. -/
inductive PublishOutcome where
  | sending
  | returned (publishedAt : Time)
  | raised
  deriving DecidableEq, Repr

structure PublishCall where
  event : OutboxEvent
  accepted : Bool
  outcome : PublishOutcome
  deriving DecidableEq, Repr

/-- The returned dictionary. -/
structure RelayResult where
  claimed : Int
  published : Int
  failed : Int
  deriving DecidableEq, Repr

inductive PassStage where
  | running
  | committed (result : RelayResult)
  | aborted
  deriving DecidableEq, Repr

/-- A call of `relay_outbox_once` and its transaction. -/
structure RelayPass where
  batchSize : Nat
  /-- Rows of the select's snapshot that it has not reached. -/
  candidates : List OutboxEvent
  events : List OutboxEvent
  published : Nat
  calls : List PublishCall
  stage : PassStage
  deriving DecidableEq, Repr

namespace RelayPass

/-- The snapshot of the select. -/
def select (batchSize : Nat) (outbox : List OutboxEvent) : RelayPass :=
  { batchSize
    candidates :=
      (outbox.filter fun event =>
        decide (event.publishedAt = none)).insertionSort
          fun first second => first.createdAt ≤ second.createdAt
    events := []
    published := 0
    calls := []
    stage := .running }

/-- The select has not reached its limit nor the end of its snapshot. -/
def selecting (pass : RelayPass) : Bool :=
  decide (pass.candidates ≠ []) && decide (pass.events.length < pass.batchSize)

/-- `FOR UPDATE SKIP LOCKED` at the next row of the snapshot. -/
def lock (outbox : List OutboxEvent) (locked : List String)
    (pass : RelayPass) : RelayPass :=
  match pass.candidates with
  | [] => pass
  | candidate :: candidates =>
      match Table.get OutboxEvent.id candidate.id outbox with
      | some row =>
          if row.publishedAt = none ∧ row.id ∉ locked then
            { pass with candidates, events := pass.events ++ [row] }
          else { pass with candidates }
      | none => { pass with candidates }

def sending (pass : RelayPass) : Bool :=
  pass.calls.any fun call => decide (call.outcome = .sending)

/-- The publish in flight ends. -/
def finish (pass : RelayPass) (call : PublishCall)
    (outcome : PublishOutcome) : RelayPass :=
  { pass with calls := pass.calls.dropLast ++ [{ call with outcome }] }

/-- The rows whose `published_at` the session has set. -/
def confirmed (pass : RelayPass) : List (String × Time) :=
  pass.calls.filterMap fun call =>
    match call.outcome with
    | .returned publishedAt => some (call.event.id, publishedAt)
    | _ => none

def result (pass : RelayPass) : RelayResult :=
  { claimed := pass.events.length
    published := pass.published
    failed := pass.events.length - pass.published }

/-- The loop is at its end. -/
def finished (pass : RelayPass) : Bool :=
  !pass.selecting && !pass.sending &&
    decide (pass.calls.length = pass.events.length)

end RelayPass

structure RelayState where
  outbox : List OutboxEvent
  /-- Every message that the queue accepted. -/
  queue : List Envelope
  passes : List RelayPass
  deriving DecidableEq, Repr

namespace RelayState

def initial : RelayState :=
  { outbox := [], queue := [], passes := [] }

def put (state : RelayState) (index : Nat) (pass : RelayPass) : RelayState :=
  { state with passes := state.passes.set index pass }

def running (state : RelayState) (index : Nat) : Option RelayPass :=
  state.passes[index]?.filter fun pass => decide (pass.stage = .running)

/-- Rows that the other running passes have locked. -/
def lockedRows (state : RelayState) (index : Nat) : List String :=
  (List.range state.passes.length).flatMap fun other =>
    match state.running other with
    | some pass =>
        if other = index then [] else pass.events.map OutboxEvent.id
    | none => []

end RelayState

inductive RelayAction where
  /-- Another transaction commits a row of `enqueue_outbox`. -/
  | enqueue (event : OutboxEvent)
  | select (batchSize : Nat)
  | lock (pass : Nat)
  | publish (pass : Nat)
  | accept (pass call : Nat)
  | confirm (pass : Nat) (now : Time)
  | raise (pass : Nat)
  | commit (pass : Nat)
  /-- An abort, a failed commit or the loss of the process. -/
  | abort (pass : Nat)
  deriving DecidableEq, Repr

def relayStep (state : RelayState) : RelayAction → Option RelayState
  | .enqueue event =>
      if event.id ∉ state.outbox.map OutboxEvent.id ∧
          event.publishedAt = none then
        some { state with outbox := state.outbox ++ [event] }
      else none
  | .select batchSize =>
      some { state with
        passes := state.passes ++ [.select batchSize state.outbox] }
  | .lock index => do
      let pass ← state.running index
      if pass.selecting then
        some (state.put index
          (pass.lock state.outbox (state.lockedRows index)))
      else none
  | .publish index => do
      let pass ← state.running index
      if pass.selecting || pass.sending then none
      else
        let event ← pass.events[pass.calls.length]?
        some (state.put index { pass with
          calls := pass.calls ++ [⟨event, false, .sending⟩] })
  | .accept index slot => do
      let pass ← state.passes[index]?
      let call ← pass.calls[slot]?
      if call.accepted then none
      else
        some { (state.put index { pass with
            calls := pass.calls.set slot { call with accepted := true } }) with
          queue := state.queue ++ [eventEnvelope call.event] }
  | .confirm index now => do
      let pass ← state.running index
      let call ← pass.calls.getLast?
      if call.outcome = .sending ∧ call.accepted then
        some (state.put index { (pass.finish call (.returned now)) with
          published := pass.published + 1 })
      else none
  | .raise index => do
      let pass ← state.running index
      let call ← pass.calls.getLast?
      if call.outcome = .sending then
        some (state.put index (pass.finish call .raised))
      else none
  | .commit index => do
      let pass ← state.running index
      if pass.finished then
        some { (state.put index { pass with
            stage := .committed pass.result }) with
          outbox := markPublished pass.confirmed state.outbox }
      else none
  | .abort index => do
      let pass ← state.running index
      some (state.put index { pass with stage := .aborted })

/-! ## What is counted -/

namespace PublishCall

def sends (call : PublishCall) (eventId : String) : Bool :=
  decide (call.event.id = eventId) && call.accepted

def fails (call : PublishCall) (eventId : String) : Bool :=
  decide (call.event.id = eventId) && decide (call.outcome = .raised)

def returns (call : PublishCall) : Bool :=
  match call.outcome with
  | .returned _ => true
  | _ => false

end PublishCall

namespace RelayPass

def sent (eventId : String) (pass : RelayPass) : Nat :=
  pass.calls.countP fun call => call.sends eventId

def raised (eventId : String) (pass : RelayPass) : Nat :=
  pass.calls.countP fun call => call.fails eventId

/-- The transaction sent the event and did not commit. -/
def lost (eventId : String) (pass : RelayPass) : Bool :=
  decide (pass.stage = .aborted) &&
    pass.calls.any fun call => call.sends eventId

/-- A running pass has the row locked, or a committed one has not failed to
publish it. -/
def owns (eventId : String) (pass : RelayPass) : Bool :=
  match pass.stage with
  | .running => pass.events.any fun event => decide (event.id = eventId)
  | .committed _ =>
      pass.calls.any fun call =>
        decide (call.event.id = eventId) && !decide (call.outcome = .raised)
  | .aborted => false

end RelayPass

namespace RelayState

/-- How often the queue accepted the event. -/
def acceptances (state : RelayState) (eventId : String) : Nat :=
  state.queue.countP fun body => decide (body.eventId = eventId)

def raisedPublishes (state : RelayState) (eventId : String) : Nat :=
  (state.passes.map (RelayPass.raised eventId)).sum

def lostTransactions (state : RelayState) (eventId : String) : Nat :=
  state.passes.countP (RelayPass.lost eventId)

end RelayState

/-- The rows that a transaction marks as published. -/
def rowsMarked (before after : List OutboxEvent) : Nat :=
  before.countP fun row =>
    decide (row.publishedAt = none) &&
      ((Table.get OutboxEvent.id row.id after).any fun marked =>
        marked.publishedAt.isSome)

/-! ## One pass -/

/-- What holds of a pass by itself. -/
structure RelayPass.Sound (pass : RelayPass) : Prop where
  /-- The loop publishes the selected rows in order. -/
  inOrder : pass.calls.map PublishCall.event =
    pass.events.take pass.calls.length
  distinct : Table.KeyUnique OutboxEvent.id (pass.events ++ pass.candidates)
  idle : pass.selecting = true → pass.calls = []
  confirmed : ∀ call ∈ pass.calls, call.returns = true → call.accepted = true
  counted : pass.published = pass.calls.countP PublishCall.returns

namespace RelayPass

variable {pass : RelayPass}

theorem select_sound (batchSize : Nat) {outbox : List OutboxEvent}
    (unique : Table.KeyUnique OutboxEvent.id outbox) :
    (select batchSize outbox).Sound := by
  refine ⟨rfl, ?_, fun _ => rfl, ?_, rfl⟩
  · have sorted := ((List.perm_insertionSort
      (fun first second : OutboxEvent => first.createdAt ≤ second.createdAt)
      (outbox.filter fun event => decide (event.publishedAt = none))).map
        OutboxEvent.id).nodup_iff
    exact sorted.mpr (unique.filter _)
  · intro call member
    cases member

/-- The next candidate is passed over, or its latest version is locked. -/
theorem lock_cases (outbox : List OutboxEvent) (locked : List String)
    (selecting : pass.selecting = true) :
    ∃ candidate candidates, pass.candidates = candidate :: candidates ∧
      (pass.lock outbox locked = { pass with candidates } ∨
        ∃ row ∈ outbox, row.id = candidate.id ∧ row.publishedAt = none ∧
          row.id ∉ locked ∧
          pass.lock outbox locked =
            { pass with candidates, events := pass.events ++ [row] }) := by
  cases shape : pass.candidates with
  | nil => simp [RelayPass.selecting, shape] at selecting
  | cons candidate candidates =>
      refine ⟨candidate, candidates, rfl, ?_⟩
      simp only [lock, shape]
      cases found : Table.get OutboxEvent.id candidate.id outbox with
      | none => exact .inl rfl
      | some row =>
          obtain ⟨member, key⟩ := Table.get_mem found
          by_cases free : row.publishedAt = none ∧ row.id ∉ locked
          · refine .inr ⟨row, member, key, free.1, free.2, ?_⟩
            exact if_pos free
          · exact .inl (if_neg free)

theorem Sound.lock (sound : pass.Sound) {outbox : List OutboxEvent}
    {locked : List String} (selecting : pass.selecting = true) :
    (pass.lock outbox locked).Sound := by
  have idle := sound.idle selecting
  obtain ⟨candidate, candidates, shape, passed | locks⟩ :=
    lock_cases outbox locked selecting
  · rw [passed]
    refine ⟨sound.inOrder, ?_, fun _ => idle, sound.confirmed, sound.counted⟩
    have shorter : (pass.events ++ candidates).Sublist
        (pass.events ++ candidate :: candidates) :=
      (List.sublist_cons_self candidate candidates).append_left pass.events
    rw [← shape] at shorter
    exact List.Nodup.sublist (shorter.map OutboxEvent.id) sound.distinct
  · obtain ⟨row, _, same, _, _, taken⟩ := locks
    rw [taken]
    refine ⟨?_, ?_, fun _ => idle, sound.confirmed, sound.counted⟩
    · simp [idle]
    · have distinct := sound.distinct
      rw [shape] at distinct
      unfold Table.KeyUnique at distinct ⊢
      simpa [same] using distinct

theorem Sound.publish (sound : pass.Sound) {event : OutboxEvent}
    (ready : pass.selecting = false)
    (located : pass.events[pass.calls.length]? = some event) :
    RelayPass.Sound { pass with
      calls := pass.calls ++ [⟨event, false, .sending⟩] } := by
  refine ⟨?_, sound.distinct, ?_, ?_, ?_⟩
  · simp [List.take_add_one, located, sound.inOrder]
  · intro selecting
    have same : pass.selecting = true := selecting
    rw [ready] at same
    cases same
  · intro call member returns
    rcases List.mem_append.mp member with old | new
    · exact sound.confirmed call old returns
    · rw [List.mem_singleton.mp new] at returns
      cases returns
  · rw [List.countP_append, ← sound.counted]
    rfl

theorem Sound.accept (sound : pass.Sound) {slot : Nat} {call : PublishCall}
    (located : pass.calls[slot]? = some call) :
    RelayPass.Sound { pass with
      calls := pass.calls.set slot { call with accepted := true } } := by
  have events : (pass.calls.set slot { call with accepted := true }).map
      PublishCall.event = pass.calls.map PublishCall.event :=
    map_set_slot located PublishCall.event rfl
  refine ⟨?_, sound.distinct, ?_, ?_, ?_⟩
  · rw [List.length_set]
    exact events.trans sound.inOrder
  · intro selecting
    have empty := sound.idle selecting
    rw [empty] at located
    cases located
  · intro other member returns
    rcases List.mem_or_eq_of_mem_set member with old | rfl
    · exact sound.confirmed other old returns
    · rfl
  · have change := countP_set_slot located { call with accepted := true }
      PublishCall.returns
    exact sound.counted.trans (Nat.add_right_cancel change).symm

theorem calls_eq_of_getLast {call : PublishCall}
    (last : pass.calls.getLast? = some call) :
    pass.calls = pass.calls.dropLast ++ [call] := by
  obtain ⟨front, shape⟩ := List.getLast?_eq_some_iff.mp last
  rw [shape, List.dropLast_concat]

/-- The call in flight ends, by returning or by raising. -/
theorem Sound.finish (sound : pass.Sound) {call : PublishCall}
    {outcome : PublishOutcome} (last : pass.calls.getLast? = some call)
    (sending : call.outcome = .sending) {published : Nat}
    (counted : published = pass.published +
      if PublishCall.returns { call with outcome } then 1 else 0)
    (confirmed : PublishCall.returns { call with outcome } = true →
      call.accepted = true) :
    RelayPass.Sound { (pass.finish call outcome) with published } := by
  have shape := calls_eq_of_getLast last
  have quiet : call.returns = false := by simp [PublishCall.returns, sending]
  refine ⟨?_, sound.distinct, ?_, ?_, ?_⟩
  · have order := sound.inOrder
    rw [shape] at order
    simpa [RelayPass.finish] using order
  · intro selecting
    have empty := sound.idle selecting
    rw [empty] at last
    cases last
  · intro other member returns
    rcases List.mem_append.mp member with old | new
    · apply sound.confirmed other ?_ returns
      rw [shape]
      exact List.mem_append_left _ old
    · rw [List.mem_singleton.mp new] at returns ⊢
      exact confirmed returns
  · have before := sound.counted
    rw [shape, List.countP_append] at before
    simp only [List.countP_singleton, quiet] at before
    simp only [RelayPass.finish, List.countP_append, List.countP_singleton]
    simp only [counted, before]
    rfl

theorem mem_confirmed {eventId : String} :
    eventId ∈ pass.confirmed.map Prod.fst ↔
      ∃ call ∈ pass.calls, call.returns = true ∧ call.event.id = eventId := by
  unfold confirmed
  rw [List.mem_map]
  constructor
  · rintro ⟨entry, inList, same⟩
    obtain ⟨call, member, read⟩ := List.mem_filterMap.mp inList
    refine ⟨call, member, ?_⟩
    cases ended : call.outcome with
    | returned publishedAt =>
        rw [ended] at read
        cases read
        exact ⟨by simp [PublishCall.returns, ended], same⟩
    | sending | raised =>
        rw [ended] at read
        cases read
  · rintro ⟨call, member, returns, same⟩
    cases ended : call.outcome with
    | returned publishedAt =>
        refine ⟨(call.event.id, publishedAt), ?_, same⟩
        apply List.mem_filterMap.mpr
        exact ⟨call, member, by rw [ended]⟩
    | sending | raised => simp [PublishCall.returns, ended] at returns

theorem Sound.event_mem (sound : pass.Sound) {call : PublishCall}
    (member : call ∈ pass.calls) : call.event ∈ pass.events := by
  have image : call.event ∈ pass.calls.map PublishCall.event :=
    List.mem_map_of_mem member
  rw [sound.inOrder] at image
  exact List.mem_of_mem_take image

theorem Sound.calls_distinct (sound : pass.Sound) :
    Table.KeyUnique (OutboxEvent.id ∘ PublishCall.event) pass.calls := by
  unfold Table.KeyUnique
  rw [← List.map_map, sound.inOrder]
  have shorter : (pass.events.take pass.calls.length).Sublist
      (pass.events ++ pass.candidates) :=
    (List.take_sublist _ _).trans (List.sublist_append_left _ _)
  exact List.Nodup.sublist (shorter.map OutboxEvent.id) sound.distinct

/-- A call that a finished pass did not see raise has returned. -/
theorem returns_of_finished (finished : pass.finished = true)
    {call : PublishCall} (member : call ∈ pass.calls)
    (unraised : call.outcome ≠ .raised) : call.returns = true := by
  have quiet : pass.sending = false := by
    simp only [RelayPass.finished, Bool.and_eq_true,
      Bool.not_eq_true'] at finished
    exact finished.1.2
  have settled : call.outcome ≠ .sending := by
    have none := List.any_eq_false.mp quiet call member
    simpa using none
  cases ended : call.outcome with
  | returned publishedAt => simp [PublishCall.returns, ended]
  | sending => exact absurd ended settled
  | raised => exact absurd ended unraised

theorem Sound.sent_le_one (sound : pass.Sound) (eventId : String) :
    pass.sent eventId ≤ 1 := by
  have once : (pass.calls.map (OutboxEvent.id ∘ PublishCall.event)).count
      eventId ≤ 1 :=
    List.nodup_iff_count_le_one.mp sound.calls_distinct eventId
  rw [List.count_eq_countP, List.countP_map] at once
  refine Nat.le_trans (List.countP_mono_left ?_) once
  intro call _ sends
  rw [PublishCall.sends, Bool.and_eq_true, decide_eq_true_iff] at sends
  exact beq_iff_eq.mpr sends.1

/-- Unless the call raised or the pass was aborted, the pass has the row to
itself. -/
theorem Sound.sent_le (sound : pass.Sound) (eventId : String) :
    pass.sent eventId ≤ pass.raised eventId +
      (if pass.lost eventId then 1 else 0) +
      (if pass.owns eventId then 1 else 0) := by
  have once := sound.sent_le_one eventId
  rcases Nat.eq_zero_or_pos (pass.sent eventId) with none | positive
  · omega
  · obtain ⟨call, member, sends⟩ := List.countP_pos_iff.mp positive
    have named : call.event.id = eventId := by
      rw [PublishCall.sends, Bool.and_eq_true, decide_eq_true_iff] at sends
      exact sends.1
    by_cases unraised : call.outcome = .raised
    · have raised : 0 < pass.raised eventId := by
        apply List.countP_pos_iff.mpr
        exact ⟨call, member, by simp [PublishCall.fails, named, unraised]⟩
      omega
    · cases stage : pass.stage with
      | aborted =>
          have lost : pass.lost eventId = true := by
            rw [RelayPass.lost, stage, decide_eq_true rfl, Bool.true_and]
            exact List.any_eq_true.mpr ⟨call, member, sends⟩
          rw [if_pos lost]
          omega
      | running =>
          have owned : pass.owns eventId = true := by
            rw [RelayPass.owns, stage]
            exact List.any_eq_true.mpr
              ⟨call.event, sound.event_mem member, decide_eq_true named⟩
          rw [if_pos owned]
          omega
      | committed result =>
          have owned : pass.owns eventId = true := by
            rw [RelayPass.owns, stage]
            exact List.any_eq_true.mpr
              ⟨call, member, by simp [named, unraised]⟩
          rw [if_pos owned]
          omega

end RelayPass

/-! ## All passes -/

/-- What holds of the table, the queue and the passes together. -/
structure RelayState.Sound (state : RelayState) : Prop where
  unique : Table.KeyUnique OutboxEvent.id state.outbox
  passes : ∀ pass ∈ state.passes, pass.Sound
  single : ∀ (eventId : String) (first second : Nat) (left right : RelayPass),
    state.passes[first]? = some left → state.passes[second]? = some right →
    left.owns eventId = true → right.owns eventId = true → first = second
  held : ∀ pass ∈ state.passes, pass.stage = .running →
    ∀ event ∈ pass.events, event ∈ state.outbox ∧ event.publishedAt = none
  marked : ∀ pass ∈ state.passes, ∀ result, pass.stage = .committed result →
    ∀ eventId, pass.owns eventId = true →
      ∃ row ∈ state.outbox, row.id = eventId ∧ row.publishedAt ≠ none
  sent : ∀ row ∈ state.outbox, row.publishedAt ≠ none →
    eventEnvelope row ∈ state.queue
  delivered : ∀ pass ∈ state.passes, ∀ call ∈ pass.calls,
    call.accepted = true → eventEnvelope call.event ∈ state.queue
  counted : ∀ eventId, state.acceptances eventId =
    (state.passes.map (RelayPass.sent eventId)).sum

namespace RelayState

variable {state next : RelayState} {index : Nat} {pass : RelayPass}

theorem running_iff : state.running index = some pass ↔
    state.passes[index]? = some pass ∧ pass.stage = .running := by
  unfold running
  rw [Option.filter_eq_some_iff, decide_eq_true_iff]

theorem mem_lockedRows {eventId : String} :
    eventId ∈ state.lockedRows index ↔
      ∃ other holder, other ≠ index ∧ state.running other = some holder ∧
        ∃ event ∈ holder.events, event.id = eventId := by
  unfold lockedRows
  rw [List.mem_flatMap]
  constructor
  · rintro ⟨other, _, listed⟩
    split at listed
    next holder running =>
      split at listed
      next => cases listed
      next differs =>
        exact ⟨other, holder, differs, running, List.mem_map.mp listed⟩
    next => cases listed
  · rintro ⟨other, holder, differs, running, locked⟩
    refine ⟨other, ?_, ?_⟩
    · obtain ⟨bound, _⟩ :=
        List.getElem?_eq_some_iff.mp (running_iff.mp running).1
      exact List.mem_range.mpr bound
    · rw [running]
      dsimp only
      rw [if_neg differs]
      exact List.mem_map.mpr locked

theorem put_cases {old new : RelayPass}
    (found : state.passes[index]? = some old) {slot : Nat}
    (located : (state.passes.set index new)[slot]? = some pass) :
    (slot = index ∧ pass = new) ∨
      (slot ≠ index ∧ state.passes[slot]? = some pass) := by
  rw [getElem?_set_slot found] at located
  split at located
  next same => exact .inl ⟨same, (Option.some.inj located).symm⟩
  next differs => exact .inr ⟨differs, located⟩

theorem mem_set_cases {old new : RelayPass}
    (found : state.passes[index]? = some old)
    (member : pass ∈ state.passes.set index new) :
    pass = new ∨ pass ∈ state.passes := by
  obtain ⟨slot, located⟩ := List.getElem?_of_mem member
  rcases put_cases found located with ⟨_, same⟩ | ⟨_, kept⟩
  · exact .inl same
  · exact .inr (List.mem_of_getElem? kept)

theorem Sound.initial : RelayState.initial.Sound where
  unique := List.nodup_nil
  passes := fun _ member => nomatch member
  single := fun _ first _ _ _ located => by
    rw [RelayState.initial, List.getElem?_nil] at located
    cases located
  held := fun _ member => nomatch member
  marked := fun _ member => nomatch member
  sent := fun _ member => nomatch member
  delivered := fun _ member => nomatch member
  counted := fun _ => rfl

/-- One pass changes and perhaps a message is accepted; the table stays. -/
theorem Sound.replace (sound : state.Sound) {old new : RelayPass}
    (found : state.passes[index]? = some old) {queue : List Envelope}
    (whole : new.Sound)
    (alone : ∀ eventId slot other, slot ≠ index →
      state.passes[slot]? = some other → new.owns eventId = true →
      other.owns eventId = false)
    (held : new.stage = .running → ∀ event ∈ new.events,
      event ∈ state.outbox ∧ event.publishedAt = none)
    (marked : ∀ result, new.stage = .committed result →
      ∀ eventId, new.owns eventId = true →
        ∃ row ∈ state.outbox, row.id = eventId ∧ row.publishedAt ≠ none)
    (grown : ∀ body ∈ state.queue, body ∈ queue)
    (delivered : ∀ call ∈ new.calls, call.accepted = true →
      eventEnvelope call.event ∈ queue)
    (counted : ∀ eventId,
      (queue.countP fun body => decide (body.eventId = eventId)) +
          old.sent eventId =
        state.acceptances eventId + new.sent eventId) :
    RelayState.Sound { (state.put index new) with queue } where
  unique := sound.unique
  passes := by
    intro pass member
    rcases mem_set_cases found member with rfl | kept
    · exact whole
    · exact sound.passes pass kept
  single := by
    intro eventId first second left right atFirst atSecond leftOwns rightOwns
    rcases put_cases found atFirst with ⟨rfl, rfl⟩ | ⟨firstDiffers, keptFirst⟩
    · rcases put_cases found atSecond with ⟨rfl, rfl⟩ | ⟨differs, atSecond⟩
      · rfl
      · rw [alone eventId second right differs atSecond leftOwns] at rightOwns
        cases rightOwns
    · rcases put_cases found atSecond with ⟨rfl, rfl⟩ | ⟨_, atSecond⟩
      · have none := alone eventId first left firstDiffers keptFirst rightOwns
        rw [none] at leftOwns
        cases leftOwns
      · exact sound.single eventId first second left right keptFirst atSecond
          leftOwns rightOwns
  held := by
    intro pass member
    rcases mem_set_cases found member with rfl | kept
    · exact held
    · exact sound.held pass kept
  marked := by
    intro pass member
    rcases mem_set_cases found member with rfl | kept
    · exact marked
    · exact sound.marked pass kept
  sent := fun row member published =>
    grown _ (sound.sent row member published)
  delivered := by
    intro pass member
    rcases mem_set_cases found member with rfl | kept
    · exact delivered
    · exact fun call inCalls accepted =>
        grown _ (sound.delivered pass kept call inCalls accepted)
  counted := by
    intro eventId
    have change := sum_map_set_slot found new (RelayPass.sent eventId)
    have before := sound.counted eventId
    have after := counted eventId
    have goal : (queue.countP fun body => decide (body.eventId = eventId)) =
        ((state.passes.set index new).map (RelayPass.sent eventId)).sum := by
      omega
    exact goal

/-- A step that keeps the rows a pass has to itself. -/
theorem Sound.advance (sound : state.Sound) {old new : RelayPass}
    (found : state.passes[index]? = some old) {queue : List Envelope}
    (whole : new.Sound) (stage : new.stage = old.stage)
    (events : new.events = old.events)
    (owns : ∀ eventId, new.owns eventId = old.owns eventId)
    (grown : ∀ body ∈ state.queue, body ∈ queue)
    (delivered : ∀ call ∈ new.calls, call.accepted = true →
      eventEnvelope call.event ∈ queue)
    (counted : ∀ eventId,
      (queue.countP fun body => decide (body.eventId = eventId)) +
          old.sent eventId =
        state.acceptances eventId + new.sent eventId) :
    RelayState.Sound { (state.put index new) with queue } := by
  have member := List.mem_of_getElem? found
  refine sound.replace found whole ?_ ?_ ?_ grown delivered counted
  · intro eventId slot other differs located owned
    rw [owns] at owned
    rw [Bool.eq_false_iff]
    intro otherOwns
    exact differs (sound.single eventId slot index other old located found
      otherOwns owned)
  · rw [stage, events]
    exact sound.held old member
  · intro result committed eventId owned
    rw [stage] at committed
    rw [owns] at owned
    exact sound.marked old member result committed eventId owned

theorem Sound.lock (sound : state.Sound)
    (running : state.running index = some pass)
    (selecting : pass.selecting = true) :
    (state.put index
      (pass.lock state.outbox (state.lockedRows index))).Sound := by
  obtain ⟨found, stage⟩ := running_iff.mp running
  have member := List.mem_of_getElem? found
  have whole : (pass.lock state.outbox (state.lockedRows index)).Sound :=
    (sound.passes pass member).lock selecting
  obtain ⟨candidate, candidates, _, passed | locks⟩ :=
    RelayPass.lock_cases state.outbox (state.lockedRows index) selecting
  · rw [passed] at whole ⊢
    exact sound.advance found whole rfl rfl (fun _ => rfl) (fun _ old => old)
      (sound.delivered pass member) (fun _ => rfl)
  · obtain ⟨row, inTable, _, unpublished, unlocked, taken⟩ := locks
    rw [taken] at whole ⊢
    refine sound.replace found whole ?_ ?_ ?_ (fun _ old => old)
      (sound.delivered pass member) (fun _ => rfl)
    · intro eventId slot other differs located owned
      rw [Bool.eq_false_iff]
      intro otherOwns
      have split : pass.owns eventId = true ∨ row.id = eventId := by
        simpa [RelayPass.owns, stage] using owned
      rcases split with before | rfl
      · exact differs (sound.single eventId slot index other pass located found
          otherOwns before)
      · cases otherStage : other.stage with
        | running =>
            -- its lock would have been skipped
            apply unlocked
            refine mem_lockedRows.mpr ⟨slot, other, differs,
              running_iff.mpr ⟨located, otherStage⟩, ?_⟩
            simpa [RelayPass.owns, otherStage] using otherOwns
        | committed result =>
            -- the latest version of the row would be published
            obtain ⟨latest, inOutbox, same, published⟩ := sound.marked other
              (List.mem_of_getElem? located) result otherStage _ otherOwns
            rw [sound.unique.eq_of_mem inOutbox inTable same] at published
            exact published unpublished
        | aborted => simp [RelayPass.owns, otherStage] at otherOwns
    · intro _ event inEvents
      rcases List.mem_append.mp inEvents with old | new
      · exact sound.held pass member stage event old
      · rw [List.mem_singleton.mp new]
        exact ⟨inTable, unpublished⟩
    · intro result committed
      rw [stage] at committed
      cases committed

theorem Sound.publish (sound : state.Sound)
    (running : state.running index = some pass)
    (ready : pass.selecting = false) {event : OutboxEvent}
    (located : pass.events[pass.calls.length]? = some event) :
    (state.put index { pass with
      calls := pass.calls ++ [⟨event, false, .sending⟩] }).Sound := by
  obtain ⟨found, stage⟩ := running_iff.mp running
  have member := List.mem_of_getElem? found
  refine sound.advance found
    ((sound.passes pass member).publish ready located) rfl rfl ?_
    (fun _ old => old) ?_ ?_
  · intro eventId
    simp [RelayPass.owns, stage]
  · intro call inCalls accepted
    rcases List.mem_append.mp inCalls with old | new
    · exact sound.delivered pass member call old accepted
    · rw [List.mem_singleton.mp new] at accepted
      cases accepted
  · intro eventId
    simp [RelayPass.sent, PublishCall.sends, acceptances]

theorem Sound.accept (sound : state.Sound)
    (found : state.passes[index]? = some pass) {slot : Nat}
    {call : PublishCall} (located : pass.calls[slot]? = some call)
    (pending : call.accepted = false) :
    RelayState.Sound { (state.put index { pass with
        calls := pass.calls.set slot { call with accepted := true } }) with
      queue := state.queue ++ [eventEnvelope call.event] } := by
  have member := List.mem_of_getElem? found
  refine sound.advance found ((sound.passes pass member).accept located)
    rfl rfl ?_ (fun _ old => List.mem_append_left _ old) ?_ ?_
  · intro eventId
    unfold RelayPass.owns
    dsimp only
    cases pass.stage with
    | running | aborted => rfl
    | committed =>
        have read : ∀ calls : List PublishCall,
            (calls.any fun call => decide (call.event.id = eventId) &&
              !decide (call.outcome = .raised)) =
            (calls.map fun call => decide (call.event.id = eventId) &&
              !decide (call.outcome = .raised)).any id := by
          intro calls
          rw [List.any_map]
          rfl
        dsimp only
        rw [read, read]
        apply congrArg (List.any · id)
        exact map_set_slot located _ rfl
  · intro other inCalls accepted
    rcases List.mem_or_eq_of_mem_set inCalls with old | rfl
    · exact List.mem_append_left _
        (sound.delivered pass member other old accepted)
    · exact List.mem_append_right _ (List.mem_singleton.mpr rfl)
  · intro eventId
    have change := countP_set_slot located { call with accepted := true }
      fun call => call.sends eventId
    have added : (state.queue ++ [eventEnvelope call.event]).countP
        (fun body => decide (body.eventId = eventId)) =
        state.acceptances eventId +
          if decide (call.event.id = eventId) then 1 else 0 := by
      rw [List.countP_append, List.countP_singleton]
      rfl
    simp only [PublishCall.sends, pending, Bool.and_false, Bool.and_true,
      Bool.false_eq_true, if_false, Nat.add_zero] at change
    simp only [RelayPass.sent, PublishCall.sends]
    omega

/-- A publish returns or raises. -/
theorem Sound.finish (sound : state.Sound)
    (running : state.running index = some pass) {call : PublishCall}
    {outcome : PublishOutcome} (last : pass.calls.getLast? = some call)
    {published : Nat}
    (whole : RelayPass.Sound { (pass.finish call outcome) with published }) :
    (state.put index
      { (pass.finish call outcome) with published }).Sound := by
  obtain ⟨found, stage⟩ := running_iff.mp running
  have member := List.mem_of_getElem? found
  have shape := RelayPass.calls_eq_of_getLast last
  refine sound.advance found whole rfl rfl ?_ (fun _ old => old) ?_ ?_
  · intro eventId
    simp [RelayPass.owns, RelayPass.finish, stage]
  · intro other inCalls accepted
    rcases List.mem_append.mp inCalls with old | new
    · apply sound.delivered pass member other ?_ accepted
      rw [shape]
      exact List.mem_append_left _ old
    · rw [List.mem_singleton.mp new] at accepted ⊢
      apply sound.delivered pass member call ?_ accepted
      exact List.mem_of_getLast? last
  · intro eventId
    have same : RelayPass.sent eventId
        { (pass.finish call outcome) with published } =
        pass.sent eventId := by
      have before : pass.sent eventId =
          (pass.calls.dropLast ++ [call]).countP
            fun call => call.sends eventId := by
        rw [← shape]
        rfl
      rw [before, List.countP_append]
      simp only [RelayPass.sent, RelayPass.finish, List.countP_append]
      rfl
    rw [same]
    rfl

theorem Sound.abort (sound : state.Sound)
    (running : state.running index = some pass) :
    (state.put index { pass with stage := .aborted }).Sound := by
  obtain ⟨found, _⟩ := running_iff.mp running
  have member := List.mem_of_getElem? found
  have whole := sound.passes pass member
  refine sound.replace found
    ⟨whole.inOrder, whole.distinct, whole.idle, whole.confirmed, whole.counted⟩
    ?_ ?_ ?_ (fun _ old => old) (sound.delivered pass member) (fun _ => rfl)
  · intro eventId slot other _ _ owned
    cases owned
  · intro stage
    cases stage
  · intro result stage
    cases stage

theorem Sound.enqueue (sound : state.Sound) {event : OutboxEvent}
    (fresh : event.id ∉ state.outbox.map OutboxEvent.id)
    (unpublished : event.publishedAt = none) :
    RelayState.Sound { state with outbox := state.outbox ++ [event] } where
  unique := by
    have alone : Table.KeyUnique OutboxEvent.id [event] :=
      List.nodup_singleton _
    apply sound.unique.append alone
    intro old inOutbox new inNew same
    rw [List.mem_singleton.mp inNew] at same
    exact fresh (List.mem_map.mpr ⟨old, inOutbox, same⟩)
  passes := sound.passes
  single := sound.single
  held := by
    intro pass member stage row inEvents
    obtain ⟨inOutbox, open_⟩ := sound.held pass member stage row inEvents
    exact ⟨List.mem_append_left _ inOutbox, open_⟩
  marked := by
    intro pass member result stage eventId owned
    obtain ⟨row, inOutbox, same, published⟩ :=
      sound.marked pass member result stage eventId owned
    exact ⟨row, List.mem_append_left _ inOutbox, same, published⟩
  sent := by
    intro row inOutbox published
    rcases List.mem_append.mp inOutbox with old | new
    · exact sound.sent row old published
    · rw [List.mem_singleton.mp new] at published
      exact absurd unpublished published
  delivered := sound.delivered
  counted := sound.counted

theorem Sound.select (sound : state.Sound) (batchSize : Nat) :
    RelayState.Sound { state with
      passes := state.passes ++ [.select batchSize state.outbox] } where
  unique := sound.unique
  passes := by
    intro pass member
    rcases List.mem_append.mp member with old | new
    · exact sound.passes pass old
    · rw [List.mem_singleton.mp new]
      exact RelayPass.select_sound batchSize sound.unique
  single := by
    intro eventId first second left right atFirst atSecond leftOwns rightOwns
    rw [getElem?_append_slot] at atFirst atSecond
    split at atFirst
    next =>
      cases atFirst
      cases leftOwns
    next =>
      split at atSecond
      next =>
        cases atSecond
        cases rightOwns
      next =>
        exact sound.single eventId first second left right atFirst atSecond
          leftOwns rightOwns
  held := by
    intro pass member
    rcases List.mem_append.mp member with old | new
    · exact sound.held pass old
    · rw [List.mem_singleton.mp new]
      intro _ event inEvents
      cases inEvents
  marked := by
    intro pass member
    rcases List.mem_append.mp member with old | new
    · exact sound.marked pass old
    · rw [List.mem_singleton.mp new]
      intro result stage
      cases stage
  sent := sound.sent
  delivered := by
    intro pass member
    rcases List.mem_append.mp member with old | new
    · exact sound.delivered pass old
    · rw [List.mem_singleton.mp new]
      intro call inCalls
      cases inCalls
  counted := by
    intro eventId
    rw [List.map_append, List.sum_append]
    exact sound.counted eventId

/-- The rows that a running pass has confirmed are its own. -/
theorem Sound.owns_of_confirmed (sound : state.Sound)
    (running : state.running index = some pass) {eventId : String}
    (confirmed : eventId ∈ pass.confirmed.map Prod.fst) :
    pass.owns eventId = true ∧ ∃ call ∈ pass.calls, call.accepted = true ∧
      call.event.id = eventId ∧ call.event ∈ state.outbox ∧
      call.event.publishedAt = none := by
  obtain ⟨found, stage⟩ := running_iff.mp running
  have member := List.mem_of_getElem? found
  have whole := sound.passes pass member
  obtain ⟨call, inCalls, returns, same⟩ := RelayPass.mem_confirmed.mp confirmed
  have inEvents := whole.event_mem inCalls
  obtain ⟨inOutbox, unpublished⟩ :=
    sound.held pass member stage call.event inEvents
  refine ⟨?_, call, inCalls, whole.confirmed call inCalls returns, same,
    inOutbox, unpublished⟩
  unfold RelayPass.owns
  rw [stage]
  exact List.any_eq_true.mpr ⟨call.event, inEvents, decide_eq_true same⟩

/-- The commit gives up the rows whose publish raised. -/
theorem owns_of_committed {result : RelayResult} (whole : pass.Sound)
    (stage : pass.stage = .running) {eventId : String}
    (owned : RelayPass.owns eventId
      { pass with stage := .committed result } = true) :
    pass.owns eventId = true := by
  obtain ⟨call, inCalls, named⟩ := List.any_eq_true.mp owned
  rw [Bool.and_eq_true, decide_eq_true_iff] at named
  unfold RelayPass.owns
  rw [stage]
  exact List.any_eq_true.mpr
    ⟨call.event, whole.event_mem inCalls, decide_eq_true named.1⟩

theorem Sound.commit (sound : state.Sound)
    (running : state.running index = some pass)
    (finished : pass.finished = true) :
    RelayState.Sound { (state.put index { pass with
        stage := .committed pass.result }) with
      outbox := markPublished pass.confirmed state.outbox } := by
  obtain ⟨found, stage⟩ := running_iff.mp running
  have member := List.mem_of_getElem? found
  have whole := sound.passes pass member
  have others : ∀ eventId slot other, slot ≠ index →
      state.passes[slot]? = some other → other.owns eventId = true →
      pass.owns eventId = false := by
    intro eventId slot other differs located otherOwns
    rw [Bool.eq_false_iff]
    intro owned
    exact differs (sound.single eventId slot index other pass located found
      otherOwns owned)
  constructor
  case unique =>
    unfold Table.KeyUnique
    rw [map_id_markPublished]
    exact sound.unique
  case passes =>
    intro other inPasses
    rcases mem_set_cases found inPasses with rfl | kept
    · exact ⟨whole.inOrder, whole.distinct, whole.idle, whole.confirmed,
        whole.counted⟩
    · exact sound.passes other kept
  case single =>
    intro eventId first second left right atFirst atSecond leftOwns rightOwns
    rcases put_cases found atFirst with ⟨isFirst, rfl⟩ | ⟨isOther, keptFirst⟩
    · rcases put_cases found atSecond with ⟨isSecond, _⟩ | ⟨differs, kept⟩
      · exact isFirst.trans isSecond.symm
      · have owned := owns_of_committed whole stage leftOwns
        rw [others eventId second right differs kept rightOwns] at owned
        cases owned
    · rcases put_cases found atSecond with ⟨_, rfl⟩ | ⟨_, kept⟩
      · have owned := owns_of_committed whole stage rightOwns
        rw [others eventId first left isOther keptFirst leftOwns] at owned
        cases owned
      · exact sound.single eventId first second left right keptFirst kept
          leftOwns rightOwns
  case held =>
    intro other inPasses otherStage event inEvents
    obtain ⟨slot, located⟩ := List.getElem?_of_mem inPasses
    rcases put_cases found located with ⟨_, rfl⟩ | ⟨differs, kept⟩
    · cases otherStage
    · obtain ⟨inOutbox, unpublished⟩ := sound.held other
        (List.mem_of_getElem? kept) otherStage event inEvents
      refine ⟨mem_markPublished_of_not_mem inOutbox ?_, unpublished⟩
      intro confirmed
      obtain ⟨owned, _⟩ := sound.owns_of_confirmed running confirmed
      have otherOwns : other.owns event.id = true := by
        rw [RelayPass.owns, otherStage]
        exact List.any_eq_true.mpr ⟨event, inEvents, decide_eq_true rfl⟩
      rw [others event.id slot other differs kept otherOwns] at owned
      cases owned
  case marked =>
    intro other inPasses result otherStage eventId owned
    rcases mem_set_cases found inPasses with rfl | kept
    · obtain ⟨call, inCalls, named⟩ := List.any_eq_true.mp owned
      simp only [Bool.and_eq_true, decide_eq_true_eq, Bool.not_eq_true',
        decide_eq_false_iff_not] at named
      have returns :=
        RelayPass.returns_of_finished finished inCalls named.2
      have confirmed : eventId ∈ pass.confirmed.map Prod.fst :=
        RelayPass.mem_confirmed.mpr ⟨call, inCalls, returns, named.1⟩
      obtain ⟨_, sent, _, _, same, inOutbox, _⟩ :=
        sound.owns_of_confirmed running confirmed
      rw [← same] at confirmed ⊢
      exact exists_published_markPublished inOutbox (.inr confirmed)
    · obtain ⟨row, inOutbox, same, published⟩ :=
        sound.marked other kept result otherStage eventId owned
      rw [← same]
      exact exists_published_markPublished inOutbox (.inl published)
  case sent =>
    intro row inOutbox published
    obtain ⟨old, inOld, same, reason⟩ :=
      eventEnvelope_markPublished pass.confirmed state.outbox inOutbox
    rw [same]
    rcases reason with rfl | ⟨entry, inSent, named⟩
    · exact sound.sent row inOld published
    · have confirmed : old.id ∈ pass.confirmed.map Prod.fst :=
        List.mem_map.mpr ⟨entry, inSent, named⟩
      obtain ⟨_, call, inCalls, accepted, sameId, inTable, _⟩ :=
        sound.owns_of_confirmed running confirmed
      rw [← sound.unique.eq_of_mem inTable inOld sameId]
      exact sound.delivered pass member call inCalls accepted
  case delivered =>
    intro other inPasses
    rcases mem_set_cases found inPasses with rfl | kept
    · exact sound.delivered pass member
    · exact sound.delivered other kept
  case counted =>
    intro eventId
    have change := sum_map_set_slot found
      { pass with stage := .committed pass.result } (RelayPass.sent eventId)
    have before := sound.counted eventId
    exact before.trans (Nat.add_right_cancel change).symm

theorem commit_cases (stepped : relayStep state (.commit index) = some next) :
    ∃ pass, state.running index = some pass ∧ pass.finished = true ∧
      next = { (state.put index { pass with
          stage := .committed pass.result }) with
        outbox := markPublished pass.confirmed state.outbox } := by
  obtain ⟨pass, running, stepped⟩ := Option.bind_eq_some_iff.mp stepped
  split at stepped
  next finished =>
    exact ⟨pass, running, finished, (Option.some.inj stepped).symm⟩
  next => cases stepped

theorem Sound.step (sound : state.Sound) {action : RelayAction}
    (stepped : relayStep state action = some next) : next.Sound := by
  cases action with
  | enqueue event =>
      simp only [relayStep] at stepped
      split at stepped
      next fresh =>
        cases stepped
        exact sound.enqueue fresh.1 fresh.2
      next => cases stepped
  | select batchSize =>
      cases stepped
      exact sound.select batchSize
  | lock index =>
      obtain ⟨pass, running, stepped⟩ := Option.bind_eq_some_iff.mp stepped
      split at stepped
      next selecting =>
        cases stepped
        exact sound.lock running selecting
      next => cases stepped
  | publish index =>
      obtain ⟨pass, running, stepped⟩ := Option.bind_eq_some_iff.mp stepped
      split at stepped
      next => cases stepped
      next ready =>
        obtain ⟨event, located, stepped⟩ :=
          Option.bind_eq_some_iff.mp stepped
        cases stepped
        rw [Bool.or_eq_true, not_or] at ready
        exact sound.publish running (Bool.eq_false_iff.mpr ready.1) located
  | accept index slot =>
      obtain ⟨pass, found, stepped⟩ := Option.bind_eq_some_iff.mp stepped
      obtain ⟨call, located, stepped⟩ := Option.bind_eq_some_iff.mp stepped
      split at stepped
      next => cases stepped
      next pending =>
        cases stepped
        exact sound.accept found located (Bool.eq_false_iff.mpr pending)
  | confirm index now =>
      obtain ⟨pass, running, stepped⟩ := Option.bind_eq_some_iff.mp stepped
      obtain ⟨call, last, stepped⟩ := Option.bind_eq_some_iff.mp stepped
      split at stepped
      next ended =>
        cases stepped
        have member := List.mem_of_getElem? (running_iff.mp running).1
        apply sound.finish running last
        exact (sound.passes pass member).finish last ended.1 rfl
          fun _ => ended.2
      next => cases stepped
  | raise index =>
      obtain ⟨pass, running, stepped⟩ := Option.bind_eq_some_iff.mp stepped
      obtain ⟨call, last, stepped⟩ := Option.bind_eq_some_iff.mp stepped
      split at stepped
      next sending =>
        cases stepped
        have member := List.mem_of_getElem? (running_iff.mp running).1
        refine sound.finish running last
          ((sound.passes pass member).finish last sending rfl ?_)
        intro returns
        cases returns
      next => cases stepped
  | commit index =>
      obtain ⟨pass, running, finished, rfl⟩ := commit_cases stepped
      exact sound.commit running finished
  | abort index =>
      obtain ⟨pass, running, stepped⟩ := Option.bind_eq_some_iff.mp stepped
      cases stepped
      exact sound.abort running

theorem Sound.of_runs {actions : List RelayAction}
    (execution : Runs relayStep Always RelayState.initial actions state) :
    state.Sound :=
  execution.invariant (fun sound _ stepped => sound.step stepped) .initial

theorem Sound.acceptances_le (sound : state.Sound) (eventId : String) :
    state.acceptances eventId ≤ 1 + (state.raisedPublishes eventId +
      state.lostTransactions eventId) := by
  have total : (state.passes.map (RelayPass.sent eventId)).sum ≤
      (state.passes.map (RelayPass.raised eventId)).sum +
        state.passes.countP (RelayPass.lost eventId) +
        state.passes.countP (RelayPass.owns eventId) :=
    sum_map_le_add_countP fun pass member =>
      (sound.passes pass member).sent_le eventId
  have owners : state.passes.countP (RelayPass.owns eventId) ≤ 1 :=
    countP_le_one_of_unique (sound.single eventId)
  rw [sound.counted]
  unfold raisedPublishes lostTransactions
  omega

/-- The rows that the commit marks are those whose publish returned. -/
theorem Sound.rowsMarked_eq (sound : state.Sound)
    (running : state.running index = some pass) :
    rowsMarked state.outbox (markPublished pass.confirmed state.outbox) =
      pass.published := by
  obtain ⟨found, stage⟩ := running_iff.mp running
  have member := List.mem_of_getElem? found
  have whole := sound.passes pass member
  let returned := (pass.calls.filter PublishCall.returns).map PublishCall.event
  have members : ∀ eventId, eventId ∈ returned.map OutboxEvent.id ↔
      eventId ∈ pass.confirmed.map Prod.fst := by
    intro eventId
    rw [RelayPass.mem_confirmed]
    simp [returned, and_assoc]
  have distinct : Table.KeyUnique OutboxEvent.id returned := by
    have calls := whole.calls_distinct.filter PublishCall.returns
    unfold Table.KeyUnique at calls ⊢
    rw [List.map_map]
    exact calls
  have present : ∀ row ∈ returned, row ∈ state.outbox := by
    intro row inReturned
    obtain ⟨call, inCalls, rfl⟩ := List.mem_map.mp inReturned
    have inEvents := whole.event_mem (List.mem_filter.mp inCalls).1
    exact (sound.held pass member stage call.event inEvents).1
  have unique : Table.KeyUnique OutboxEvent.id
      (markPublished pass.confirmed state.outbox) := by
    unfold Table.KeyUnique
    rw [map_id_markPublished]
    exact sound.unique
  calc
    rowsMarked state.outbox (markPublished pass.confirmed state.outbox) =
        state.outbox.countP fun row =>
          decide (row.id ∈ returned.map OutboxEvent.id) := by
      apply List.countP_congr
      intro row inOutbox
      rw [decide_eq_true_iff, members, Bool.and_eq_true, decide_eq_true_iff]
      by_cases confirmed : row.id ∈ pass.confirmed.map Prod.fst
      · obtain ⟨_, call, _, _, same, inTable, unpublished⟩ :=
          sound.owns_of_confirmed running confirmed
        rw [sound.unique.eq_of_mem inTable inOutbox same] at unpublished
        obtain ⟨marked, inMarked, key, published⟩ :=
          exists_published_markPublished inOutbox (.inr confirmed)
        have located := unique.get_eq_some inMarked
        rw [key] at located
        rw [located, Option.any_some]
        exact ⟨fun _ => confirmed,
          fun _ => ⟨unpublished, Option.isSome_iff_ne_none.mpr published⟩⟩
      · have kept := mem_markPublished_of_not_mem inOutbox confirmed
        rw [unique.get_eq_some kept, Option.any_some]
        constructor
        · rintro ⟨unpublished, published⟩
          rw [unpublished] at published
          cases published
        · intro inSent
          exact absurd inSent confirmed
    _ = returned.length := sound.unique.countP_mem_keys distinct present
    _ = pass.published := by
      rw [List.length_map, ← List.countP_eq_length_filter, whole.counted]

end RelayState

/-! ## The select as one statement

When nothing happens in between, the rows that are locked one after another
are those of `relayBatch`. -/

namespace RelayState

variable {state : RelayState} {index : Nat} {pass : RelayPass}

theorem put_put (state : RelayState) (index : Nat) (first second : RelayPass) :
    (state.put index first).put index second = state.put index second := by
  simp [put, List.set_set]

theorem put_self (found : state.passes[index]? = some pass) :
    state.put index pass = state := by
  have same : state.passes.set index pass = state.passes := by
    apply List.ext_getElem?
    intro other
    rw [getElem?_set_slot found]
    split
    next here => rw [here, found]
    next => rfl
  unfold put
  rw [same]

theorem running_put (new : RelayPass)
    (found : state.passes[index]? = some pass) (stage : new.stage = .running) :
    (state.put index new).running index = some new := by
  apply running_iff.mpr
  exact ⟨(getElem?_set_slot found new index).trans (if_pos rfl), stage⟩

theorem lockedRows_put (new : RelayPass)
    (found : state.passes[index]? = some pass) :
    (state.put index new).lockedRows index = state.lockedRows index := by
  unfold lockedRows
  have length : (state.put index new).passes.length = state.passes.length :=
    List.length_set
  rw [length]
  congr 1
  funext other
  have located := getElem?_set_slot found new other
  by_cases same : other = index
  · have silent : ∀ holder : Option RelayPass, (match holder with
        | some pass =>
            if other = index then [] else pass.events.map OutboxEvent.id
        | none => []) = [] := by
      intro holder
      cases holder with
      | none => rfl
      | some pass => exact if_pos same
    rw [silent, silent]
  · rw [if_neg same] at located
    have running : (state.put index new).running other =
        state.running other := by
      unfold running
      exact congrArg (Option.filter _) located
    rw [running]

/-- A pass that starts does not wait for itself. -/
theorem lockedRows_append (state : RelayState) (new : RelayPass) :
    lockedRows { state with passes := state.passes ++ [new] }
        state.passes.length =
      state.lockedRows state.passes.length := by
  unfold lockedRows
  rw [List.length_append, List.length_singleton, List.range_succ,
    List.flatMap_append]
  have own : ∀ holder : Option RelayPass, (match holder with
      | some pass =>
          if state.passes.length = state.passes.length then []
          else pass.events.map OutboxEvent.id
      | none => []) = ([] : List String) := by
    intro holder
    cases holder with
    | none => rfl
    | some pass => exact if_pos rfl
  rw [List.flatMap_singleton, own, List.append_nil]
  apply List.flatMap_congr
  intro other inRange
  have before := List.mem_range.mp inRange
  have running : RelayState.running
      { state with passes := state.passes ++ [new] } other =
      state.running other := by
    unfold RelayState.running
    rw [List.getElem?_append_left before]
  rw [running]

/-- The next row of a snapshot that is still up to date. -/
theorem lock_current {candidate : OutboxEvent} {candidates : List OutboxEvent}
    {outbox : List OutboxEvent} (locked : List String)
    (shape : pass.candidates = candidate :: candidates)
    (latest : Table.get OutboxEvent.id candidate.id outbox = some candidate)
    (unpublished : candidate.publishedAt = none) :
    pass.lock outbox locked = { pass with
      candidates
      events := pass.events ++
        if candidate.id ∉ locked then [candidate] else [] } := by
  by_cases taken : candidate.id ∈ locked
  · simp [RelayPass.lock, shape, latest, taken]
  · simp [RelayPass.lock, shape, latest, unpublished, taken]

/-- The locks that an uninterrupted select takes. -/
theorem runs_locks {candidates : List OutboxEvent}
    (shape : pass.candidates = candidates)
    (running : state.running index = some pass)
    (fresh : ∀ row ∈ candidates,
      Table.get OutboxEvent.id row.id state.outbox = some row ∧
        row.publishedAt = none) :
    ∃ count final, Runs relayStep Always state
        (List.replicate count (.lock index)) (state.put index final) ∧
      final.selecting = false ∧
      final.events = pass.events ++
        (candidates.filter fun row =>
          decide (row.id ∉ state.lockedRows index)).take
            (pass.batchSize - pass.events.length) := by
  obtain ⟨found, stage⟩ := running_iff.mp running
  have stay : Runs relayStep Always state [] (state.put index pass) := by
    rw [put_self found]
    exact .nil state
  induction candidates generalizing state pass with
  | nil =>
      refine ⟨0, pass, stay, ?_, ?_⟩
      · simp [RelayPass.selecting, shape]
      · simp
  | cons candidate candidates induction =>
      by_cases room : pass.events.length < pass.batchSize
      · obtain ⟨latest, unpublished⟩ := fresh candidate List.mem_cons_self
        have locks := lock_current (state.lockedRows index) shape latest
          unpublished
        have selecting : pass.selecting = true := by
          simp [RelayPass.selecting, shape, room]
        have stepped : relayStep state (.lock index) = some (state.put index
            (pass.lock state.outbox (state.lockedRows index))) := by
          simp [relayStep, running, selecting]
        rw [locks] at stepped
        have again := running_put { pass with
          candidates
          events := pass.events ++
            if candidate.id ∉ state.lockedRows index then [candidate]
            else [] } found stage
        obtain ⟨located, _⟩ := running_iff.mp again
        obtain ⟨count, final, later, done, collected⟩ :=
          induction rfl again
            (fun row member => fresh row (List.mem_cons_of_mem _ member))
            located stage (by rw [put_self located]; exact .nil _)
        rw [put_put] at later
        refine ⟨count + 1, final, .cons trivial stepped later, done, ?_⟩
        rw [collected, lockedRows_put _ found, List.filter_cons]
        by_cases taken : candidate.id ∈ state.lockedRows index
        · simp [taken]
        · have one : pass.batchSize - pass.events.length =
              pass.batchSize - (pass.events.length + 1) + 1 := by omega
          simp [taken, one]
      · refine ⟨0, pass, stay, ?_, ?_⟩
        · simp [RelayPass.selecting, room]
        · rw [Nat.sub_eq_zero_of_le (Nat.le_of_not_lt room), List.take_zero,
            List.append_nil]

theorem Sound.select_uninterrupted (sound : state.Sound) (batchSize : Nat) :
    ∃ count final, Runs relayStep Always state
        (.select batchSize ::
          List.replicate count (.lock state.passes.length))
        { state with passes := state.passes ++ [final] } ∧
      final.selecting = false ∧
      final.events = relayBatch .postgresql batchSize
        (state.lockedRows state.passes.length) state.outbox := by
  let selected : RelayState := { state with
    passes := state.passes ++ [.select batchSize state.outbox] }
  have located : selected.passes[state.passes.length]? =
      some (.select batchSize state.outbox) :=
    (getElem?_append_slot _ _ _).trans (if_pos rfl)
  obtain ⟨count, final, later, done, collected⟩ := runs_locks rfl
    (running_iff.mpr ⟨located, rfl⟩) (by
      intro row member
      have matching := (Table.mem_insertionSort_iff _).mp member
      obtain ⟨inOutbox, unpublished⟩ := List.mem_filter.mp matching
      exact ⟨sound.unique.get_eq_some inOutbox,
        of_decide_eq_true unpublished⟩)
  refine ⟨count, final, .cons trivial rfl ?_, done, ?_⟩
  · have ends : selected.put state.passes.length final =
        { state with passes := state.passes ++ [final] } := by
      simp [selected, put]
    rw [← ends]
    exact later
  · rw [collected, lockedRows_append]
    unfold relayBatch
    simp only [RelayPass.select, List.nil_append, List.length_nil,
      Nat.sub_zero]
    rw [Table.filter_insertionSort, List.filter_filter]
    congr 2
    apply List.filter_congr
    intro row _
    simp [Bool.and_comm]

end RelayState

/-- Whatever passes run, fail and are lost together, a row is marked only
after the queue accepted its envelope, an event is accepted again only after a
failure, and every pass reports what it did. -/
theorem relay_passes_send_before_marking {actions : List RelayAction}
    {state : RelayState}
    (execution : Runs relayStep Always RelayState.initial actions state) :
    (∀ row ∈ state.outbox, row.publishedAt ≠ none →
      eventEnvelope row ∈ state.queue) ∧
    (∀ eventId, state.acceptances eventId ≤
      1 + (state.raisedPublishes eventId + state.lostTransactions eventId)) ∧
    ∀ index next, relayStep state (.commit index) = some next →
      ∃ pass result, next.passes[index]? = some pass ∧
        pass.stage = .committed result ∧ result.claimed = pass.events.length ∧
        result.claimed = result.published + result.failed ∧
        result.published = rowsMarked state.outbox next.outbox := by
  have sound := RelayState.Sound.of_runs execution
  refine ⟨sound.sent, sound.acceptances_le, ?_⟩
  intro index next stepped
  obtain ⟨pass, running, finished, rfl⟩ := RelayState.commit_cases stepped
  obtain ⟨found, _⟩ := RelayState.running_iff.mp running
  refine ⟨{ pass with stage := .committed pass.result }, pass.result, ?_, rfl,
    rfl, ?_, ?_⟩
  · exact (getElem?_set_slot found _ index).trans (if_pos rfl)
  · simp only [RelayPass.result]
    omega
  · have marked := sound.rowsMarked_eq running
    exact congrArg Nat.cast marked.symm

/-- One event whose first publish raised after it was accepted, and whose
second one was sent by a pass that was lost. -/
def demoResends : List RelayAction :=
  [.enqueue ⟨"event", "tenant", "task", EventType.taskReady.value, .null, 1,
      none⟩,
    .select 100, .lock 0, .publish 0, .accept 0 0, .raise 0, .commit 0,
    .select 100, .lock 1, .publish 1, .accept 1 0, .abort 1,
    .select 100, .lock 2, .publish 2, .accept 2 0, .confirm 2 7]

/-- The bound is reached: three acceptances, one raised publish, one lost
transaction. -/
theorem resent_event_is_accepted_once_per_failure :
    ∃ state next, Runs relayStep Always RelayState.initial demoResends state ∧
      relayStep state (.commit 2) = some next ∧
      state.acceptances "event" = 3 ∧
      state.acceptances "event" ≤ 1 +
        (state.raisedPublishes "event" + state.lostTransactions "event") ∧
      rowsMarked state.outbox next.outbox = 1 ∧
      ∃ pass result, next.passes[2]? = some pass ∧
        pass.stage = .committed result ∧ result.published = 1 := by
  have evaluated : ((run relayStep Always RelayState.initial demoResends).bind
      fun state => (relayStep state (.commit 2)).map fun next =>
        (state.acceptances "event",
          rowsMarked state.outbox next.outbox)) = some (3, 1) := by
    decide +kernel
  obtain ⟨state, ran, committed⟩ := Option.bind_eq_some_iff.mp evaluated
  obtain ⟨next, stepped, values⟩ := Option.map_eq_some_iff.mp committed
  obtain ⟨accepted, marked⟩ := Prod.mk.injEq _ _ _ _ ▸ values
  have execution := runs_of_run ran
  obtain ⟨_, bound, results⟩ := relay_passes_send_before_marking execution
  obtain ⟨pass, result, located, stage, _, _, published⟩ :=
    results 2 next stepped
  refine ⟨state, next, execution, stepped, accepted, bound "event", marked,
    pass, result, located, stage, ?_⟩
  rw [published, marked]
  rfl

end FleetPrivacy
