import FleetPrivacy.Library.Backlog
import FleetPrivacy.Publication
import FleetPrivacy.WholeCalls

/-!
# Events that a relay cannot publish

`relay_outbox_once` takes the oldest unpublished rows and goes on after a
publish that raises, so that a row that can never be published stays in every
batch.  Whole passes with other calls between them serve the outbox as a
backlog: an event is published in the end exactly if fewer such rows than the
batch size are ahead of it.  Among rows of one `created_at`, whose order SQL
leaves open, the earlier inserted one is ahead.
-/

namespace FleetPrivacy

open Transition

/-! ## The unpublished rows -/

/-- The rows that relays still have to publish, in their order. -/
def backlogOf (outbox : List OutboxEvent) : List OutboxEvent :=
  (outbox.filter fun event =>
      decide (event.publishedAt = none)).insertionSort
    fun first second => first.createdAt ≤ second.createdAt

theorem relayBatch_eq (dialect : Dialect) (size : Nat)
    (outbox : List OutboxEvent) :
    relayBatch dialect size [] outbox = (backlogOf outbox).take size := by
  simp [relayBatch, backlogOf]

theorem mem_backlogOf {outbox : List OutboxEvent} {event : OutboxEvent} :
    event ∈ backlogOf outbox ↔
      event ∈ outbox ∧ event.publishedAt = none := by
  rw [backlogOf, Table.mem_insertionSort_iff, List.mem_filter,
    decide_eq_true_iff]

theorem nodup_backlogOf {outbox : List OutboxEvent}
    (unique : Table.KeyUnique OutboxEvent.id outbox) :
    Table.KeyUnique OutboxEvent.id (backlogOf outbox) :=
  ((List.perm_insertionSort _ _).map OutboxEvent.id).nodup_iff.mpr
    (unique.filter _)

/-- New rows wait behind the older ones. -/
theorem backlogOf_append {outbox new : List OutboxEvent}
    (later : ∀ event ∈ new, ∀ old ∈ outbox, old.createdAt ≤ event.createdAt) :
    backlogOf (outbox ++ new) = backlogOf outbox ++ backlogOf new := by
  unfold backlogOf
  rw [List.filter_append]
  apply Table.insertionSort_append
  intro old isOld event isNew
  exact later event (List.mem_of_mem_filter isNew) old
    (List.mem_of_mem_filter isOld)

theorem mem_of_lookup {sent : List (String × Time)} {eventId : String}
    {publishedAt : Time} (located : sent.lookup eventId = some publishedAt) :
    eventId ∈ sent.map Prod.fst := by
  obtain ⟨before, after, split, _⟩ := List.lookup_eq_some_iff.mp located
  rw [split, List.map_append]
  exact List.mem_append_right _ List.mem_cons_self

theorem not_mem_of_lookup {sent : List (String × Time)} {eventId : String}
    (located : sent.lookup eventId = none) : eventId ∉ sent.map Prod.fst := by
  intro member
  obtain ⟨entry, inSent, same⟩ := List.mem_map.mp member
  have other := List.lookup_eq_none_iff.mp located entry inSent
  simp [same] at other

theorem filter_markPublished (sent : List (String × Time))
    (outbox : List OutboxEvent) :
    ((markPublished sent outbox).filter fun event =>
        decide (event.publishedAt = none)) =
      outbox.filter fun event => decide (event.id ∉ sent.map Prod.fst) &&
        decide (event.publishedAt = none) := by
  induction outbox with
  | nil => rfl
  | cons event outbox induction =>
      rw [markPublished, List.map_cons, ← markPublished, List.filter_cons,
        List.filter_cons, induction]
      cases located : sent.lookup event.id with
      | none =>
          have kept := not_mem_of_lookup located
          simp [kept]
      | some publishedAt =>
          have marked := mem_of_lookup located
          simp [marked]

/-- The marked rows leave the backlog. -/
theorem backlogOf_markPublished (sent : List (String × Time))
    (outbox : List OutboxEvent) :
    backlogOf (markPublished sent outbox) =
      (backlogOf outbox).filter fun event =>
        decide (event.id ∉ sent.map Prod.fst) := by
  have order : IsTrans OutboxEvent fun first second =>
      first.createdAt ≤ second.createdAt := ⟨fun _ _ _ => le_trans⟩
  have total : Std.Total fun first second : OutboxEvent =>
      first.createdAt ≤ second.createdAt :=
    ⟨fun first second => le_total first.createdAt second.createdAt⟩
  rw [backlogOf, backlogOf, Table.filter_insertionSort, List.filter_filter,
    filter_markPublished]

/-! ## Whole passes -/

/-- The rows that the loop of a relay marks. -/
theorem mem_publishEvents_iff (answers : Nat → PublishAnswer)
    (events : List OutboxEvent) (start : Nat) (eventId : String) :
    eventId ∈ (publishEvents answers start events).2.map Prod.fst ↔
      ∃ position event, events[position]? = some event ∧
        event.id = eventId ∧ (answers (start + position)).marks event ≠ [] := by
  induction events generalizing start with
  | nil => simp [publishEvents]
  | cons event events induction =>
      rw [publishEvents, List.map_append, List.mem_append,
        induction (start + 1)]
      constructor
      · rintro (now | ⟨position, later, located, same, marked⟩)
        · refine ⟨0, event, rfl, ?_, ?_⟩
          · obtain ⟨entry, inMarks, rfl⟩ := List.mem_map.mp now
            cases answer : answers start with
            | confirmed now =>
                rw [answer] at inMarks
                rw [List.mem_singleton.mp inMarks]
            | lost =>
                rw [answer] at inMarks
                cases inMarks
            | refused =>
                rw [answer] at inMarks
                cases inMarks
          · intro none
            rw [Nat.add_zero] at none
            rw [none] at now
            cases now
        · refine ⟨position + 1, later, located, same, ?_⟩
          rw [Nat.add_right_comm] at marked
          exact marked
      · rintro ⟨position, later, located, rfl, marked⟩
        cases position with
        | zero =>
            cases located
            left
            cases answer : answers start with
            | confirmed now => exact List.mem_singleton_self _
            | lost =>
                rw [Nat.add_zero, answer] at marked
                exact absurd rfl marked
            | refused =>
                rw [Nat.add_zero, answer] at marked
                exact absurd rfl marked
        | succ position =>
            refine .inr ⟨position, later, located, rfl, ?_⟩
            rw [Nat.add_right_comm]
            exact marked

/-- The same publishes fail in every pass, and new rows are not older than the
ones that are there. -/
def Persists (deployment : Deployment) (size : Nat) (fails : String → Bool)
    (service : Service) (call : ServiceCall) : Prop :=
  match call with
  | .relayOutboxOnce batchSize answers => batchSize = size ∧
      ∀ position event, (relayBatch deployment.dialect size []
          service.storage.database.outbox)[position]? = some event →
        ((answers position).marks event = [] ↔ fails event.id = true)
  | call => ∀ next, serviceStep deployment service call = some next →
      ∀ event ∈ next.storage.database.outbox,
        event ∈ service.storage.database.outbox ∨
          ∀ old ∈ service.storage.database.outbox,
            old.createdAt ≤ event.createdAt

def ServiceCall.isRelay : ServiceCall → Bool
  | .relayOutboxOnce .. => true
  | _ => false

section Passes

variable {deployment : Deployment} {size : Nat} {fails : String → Bool}
  {service next : Service}

theorem Persists.later {call : ServiceCall}
    (persists : Persists deployment size fails service call)
    (other : call.isRelay = false)
    (stepped : serviceStep deployment service call = some next) :
    ∀ event ∈ next.storage.database.outbox,
      event ∈ service.storage.database.outbox ∨
        ∀ old ∈ service.storage.database.outbox,
          old.createdAt ≤ event.createdAt := by
  cases call with
  | relayOutboxOnce batchSize answers => cases other
  | create | processOnce | consumeTaskMessage => exact persists next stepped

/-- A pass of the relay is a pass over the backlog. -/
theorem relay_pass (unique : Table.KeyUnique OutboxEvent.id
      service.storage.database.outbox) {answers : Nat → PublishAnswer}
    (persists : Persists deployment size fails service
      (.relayOutboxOnce size answers)) :
    backlogOf (relayOutboxOnce deployment size answers
      service).1.storage.database.outbox =
      Backlog.pass size (fun event => fails event.id)
        (backlogOf service.storage.database.outbox) := by
  obtain ⟨_, answered⟩ := persists
  have distinct := nodup_backlogOf unique
  rw [relayOutboxOnce]
  dsimp only
  rw [backlogOf_markPublished, relayBatch_eq]
  rw [relayBatch_eq] at answered
  generalize backlogOf service.storage.database.outbox = waiting at *
  have marked : ∀ event ∈ waiting,
      event.id ∈ (publishEvents answers 0 (waiting.take size)).2.map Prod.fst ↔
        event ∈ waiting.take size ∧ fails event.id = false := by
    intro event member
    rw [mem_publishEvents_iff]
    constructor
    · rintro ⟨position, other, located, same, confirmed⟩
      have inBatch := List.mem_of_getElem? located
      obtain rfl := distinct.eq_of_mem (List.mem_of_mem_take inBatch) member
        same
      refine ⟨inBatch, Bool.eq_false_iff.mpr ?_⟩
      intro failing
      rw [Nat.zero_add] at confirmed
      exact confirmed ((answered position other located).mpr failing)
    · rintro ⟨inBatch, works⟩
      obtain ⟨position, located⟩ := List.getElem?_of_mem inBatch
      refine ⟨position, event, located, rfl, ?_⟩
      rw [Nat.zero_add]
      intro unmarked
      rw [(answered position event located).mp unmarked] at works
      cases works
  have disjoint : ∀ event ∈ waiting.drop size, event ∉ waiting.take size := by
    intro event inRest inBatch
    have whole := distinct.of_map
    rw [← List.take_append_drop size waiting] at whole
    exact (List.nodup_append.mp whole).2.2 event inBatch event inRest rfl
  have split : waiting.filter (fun event => decide (event.id ∉
        (publishEvents answers 0 (waiting.take size)).2.map Prod.fst)) =
      waiting.filter fun event =>
        !(decide (event ∈ waiting.take size) && !fails event.id) := by
    apply List.filter_congr
    intro event member
    rw [decide_not]
    congr 1
    rw [Bool.eq_iff_iff, decide_eq_true_iff, marked event member]
    simp
  have halves := congrArg (List.filter fun event =>
    !(decide (event ∈ waiting.take size) && !fails event.id))
    (List.take_append_drop size waiting)
  rw [List.filter_append] at halves
  rw [split, ← halves, Backlog.pass]
  congr 1
  · apply List.filter_congr
    intro event inBatch
    simp [inBatch]
  · apply List.filter_eq_self.mpr
    intro event inRest
    simp [disjoint event inRest]

end Passes

/-! ## Other calls -/

section Others

variable (deployment : Deployment)

theorem refreshRequestStatus_adds_events (draws : TaskDraws)
    (requestId : String) (session : Session) (storage : Storage) :
    storage.database.outbox <+: (refreshRequestStatus deployment draws requestId
      session storage).1.database.outbox := by
  unfold refreshRequestStatus
  dsimp only
  split
  next => exact List.prefix_refl _
  next =>
    unfold commitRefresh
    dsimp only
    split
    next => exact List.prefix_append _ _
    next => exact List.prefix_refl _

theorem executeTask_adds_events (draws : TaskDraws) (workerId taskId : String)
    (session : Session) (storage : Storage) :
    storage.database.outbox <+: (executeTask deployment draws workerId taskId
      session storage).1.database.outbox := by
  unfold executeTask
  split
  next => exact List.prefix_refl _
  next =>
    dsimp only
    split
    next => exact List.prefix_refl _
    next task _ =>
      split
      next => exact List.prefix_refl _
      next request _ =>
        refine List.IsPrefix.trans ?_
          (refreshRequestStatus_adds_events deployment draws _ _ _)
        exact List.prefix_refl _

theorem executeTasks_adds_events (fresh : Fresh) (workerId : String)
    (position : Nat) (taskIds : List String) (session : Session)
    (storage : Storage) :
    storage.database.outbox <+: (executeTasks deployment fresh workerId position
      taskIds session storage).1.database.outbox := by
  induction taskIds generalizing position session storage with
  | nil => exact List.prefix_refl _
  | cons taskId taskIds induction =>
      exact (executeTask_adds_events deployment (fresh.task position) workerId
        taskId session storage).trans (induction (position + 1) _ _)

theorem claimTasks_outbox (settings : Settings) (dialect : Dialect)
    (arguments : ClaimArguments) (database : Database) :
    (claimTasks settings dialect arguments database).1.outbox =
      database.outbox := by
  cases dialect with
  | postgresql => rfl
  | sqlite => rfl

/-- Calls other than relays only add rows. -/
theorem serviceStep_adds_events {deployment : Deployment}
    {service next : Service}
    {call : ServiceCall} (other : call.isRelay = false)
    (stepped : serviceStep deployment service call = some next) :
    service.storage.database.outbox <+: next.storage.database.outbox := by
  cases call with
  | create intake =>
      simp only [serviceStep] at stepped
      split at stepped
      next =>
        cases stepped
        exact List.prefix_append _ _
      next => cases stepped
  | relayOutboxOnce batchSize answers => cases other
  | processOnce arguments fresh =>
      simp only [serviceStep] at stepped
      split at stepped
      next =>
        cases stepped
        have same := claimTasks_outbox deployment.settings deployment.dialect
          arguments service.storage.database
        unfold FleetPrivacy.processOnce
        dsimp only
        split
        next => exact List.prefix_refl _
        next =>
          have later := executeTasks_adds_events deployment fresh
            arguments.workerId 0 (claimTasks deployment.settings
              deployment.dialect arguments service.storage.database).2.2
            (claimTasks deployment.settings deployment.dialect arguments
              service.storage.database).2.1
            { service.storage with
              database := (claimTasks deployment.settings deployment.dialect
                arguments service.storage.database).1 }
          rw [same] at later
          exact later
      next => cases stepped
  | consumeTaskMessage workerId slot draws =>
      simp only [serviceStep] at stepped
      split at stepped
      next =>
        simp only [consumeTaskMessage] at stepped
        obtain ⟨message, _, written⟩ := Option.bind_eq_some_iff.mp stepped
        cases written
        have handling := handleTaskEnvelope_handling deployment workerId draws
          message.body service.storage
        dsimp only
        generalize handleTaskEnvelope deployment workerId draws message.body
          service.storage = handled at handling
        cases handling with
        | unnamed | missing | raised | busy | rejected =>
            exact List.prefix_refl _
        | duplicate => exact refreshRequestStatus_adds_events ..
        | executed taskId task database named stored open_ claimed =>
            have same : database.outbox = service.storage.database.outbox := by
              simp only [claimMessageTask] at claimed
              split at claimed
              next =>
                cases claimed
                rfl
              next => cases claimed
            rw [← same]
            exact executeTask_adds_events deployment draws.task workerId taskId
              .empty { service.storage with database }
      next => cases stepped

end Others

/-! ## Histories -/

/-- Rows stay; one that is written has been published. -/
def OutboxKept (before after : List OutboxEvent) : Prop :=
  ∀ row ∈ before, ∃ later ∈ after, later.id = row.id ∧
    (later = row ∨ later.publishedAt ≠ none)

theorem OutboxKept.trans {first second third : List OutboxEvent}
    (left : OutboxKept first second) (right : OutboxKept second third) :
    OutboxKept first third := by
  intro row member
  obtain ⟨middle, inMiddle, same, shown⟩ := left row member
  obtain ⟨later, inLater, still, after⟩ := right middle inMiddle
  refine ⟨later, inLater, still.trans same, ?_⟩
  rcases after with rfl | published
  · exact shown
  · exact .inr published

theorem outboxKept_markPublished (sent : List (String × Time))
    (outbox : List OutboxEvent) :
    OutboxKept outbox (markPublished sent outbox) := by
  intro row member
  cases located : sent.lookup row.id with
  | none =>
      have missed := not_mem_of_lookup located
      exact ⟨row, mem_markPublished_of_not_mem member missed, rfl, .inl rfl⟩
  | some publishedAt =>
      obtain ⟨marked, inMarked, same, published⟩ :=
        exists_published_markPublished member
          (.inr (mem_of_lookup located))
      exact ⟨marked, inMarked, same, .inr published⟩

/-- What a history has made of the backlog that it found. -/
structure Served (size : Nat) (fails : String → Bool)
    (before after : List OutboxEvent) (first : List OutboxEvent)
    (passes : List (List OutboxEvent)) : Prop where
  left : backlogOf after = Backlog.serve size (fun event => fails event.id)
    passes (backlogOf before ++ first)
  fresh : ∀ event ∈ before, event.id ∉ first.map OutboxEvent.id ∧
    ∀ arrivals ∈ passes, event.id ∉ arrivals.map OutboxEvent.id
  kept : OutboxKept before after

section Histories

variable {deployment : Deployment} {size : Nat} {fails : String → Bool}

theorem State.posted_of_reaches {state : State}
    (reached : Reaches (step deployment) Always .initial state) :
    Posted state := by
  have preserved : ∀ {before : State} {action : Action} {after : State},
      before.Tidy ∧ Posted before → Always before action →
      step deployment before action = some after →
      after.Tidy ∧ Posted after := by
    rintro before action after ⟨tidy, posted⟩ _ stepped
    exact ⟨tidy.step stepped, posted.step tidy stepped⟩
  exact (reached.invariant preserved ⟨State.tidy_initial, Posted.initial⟩).2

/-- A pass before a history. -/
theorem Served.relayed {start middle finish first : List OutboxEvent}
    {passes : List (List OutboxEvent)}
    (served : Served size fails middle finish first passes)
    {sent : List (String × Time)} (marked : middle = markPublished sent start)
    (passed : backlogOf middle = Backlog.pass size
      (fun event => fails event.id) (backlogOf start)) :
    Served size fails start finish [] (first :: passes) := by
  refine ⟨?_, ?_, ?_⟩
  · rw [served.left, passed, List.append_nil, Backlog.serve]
  · intro event member
    refine ⟨List.not_mem_nil, ?_⟩
    have present : event.id ∈ middle.map OutboxEvent.id := by
      rw [marked, map_id_markPublished]
      exact List.mem_map_of_mem member
    obtain ⟨row, inMiddle, same⟩ := List.mem_map.mp present
    obtain ⟨notFirst, notLater⟩ := served.fresh row inMiddle
    rw [same] at notFirst notLater
    intro arrivals isPass
    rcases List.mem_cons.mp isPass with rfl | later
    · exact notFirst
    · exact notLater arrivals later
  · rw [marked] at served
    exact (outboxKept_markPublished sent start).trans served.kept

/-- Another call before a history. -/
theorem Served.appended {start new finish first : List OutboxEvent}
    {passes : List (List OutboxEvent)}
    (served : Served size fails (start ++ new) finish first passes)
    (unique : Table.KeyUnique OutboxEvent.id (start ++ new))
    (later : ∀ event ∈ new, ∀ old ∈ start, old.createdAt ≤ event.createdAt) :
    Served size fails start finish (backlogOf new ++ first) passes := by
  refine ⟨?_, ?_, ?_⟩
  · rw [served.left, backlogOf_append later, List.append_assoc]
  · intro event member
    have inBoth := List.mem_append_left new member
    obtain ⟨notFirst, notLater⟩ := served.fresh event inBoth
    refine ⟨?_, notLater⟩
    rw [List.map_append, List.mem_append, not_or]
    refine ⟨?_, notFirst⟩
    intro isNew
    obtain ⟨other, waiting, same⟩ := List.mem_map.mp isNew
    have inNew := (mem_backlogOf.mp waiting).1
    have whole := unique
    unfold Table.KeyUnique at whole
    rw [List.map_append] at whole
    exact (List.nodup_append.mp whole).2.2 event.id
      (List.mem_map_of_mem member) other.id (List.mem_map_of_mem inNew)
      same.symm
  · intro row member
    exact served.kept row (List.mem_append_left new member)

theorem served_of_runs {state : State}
    (reached : Reaches (step deployment) Always .initial state)
    (idle : state.Idle) {calls : List ServiceCall} {service : Service}
    (execution : Runs (serviceStep deployment)
      (Persists deployment size fails) state.service calls service) :
    ∃ first passes, Served size fails state.database.outbox
        service.storage.database.outbox first passes ∧
      passes.length = calls.countP ServiceCall.isRelay := by
  obtain ⟨start, isStart⟩ : ∃ start, state.service = start := ⟨_, rfl⟩
  rw [isStart] at execution
  induction execution generalizing state with
  | nil =>
      refine ⟨[], [], ⟨?_, ?_, ?_⟩, rfl⟩
      · rw [← isStart, List.append_nil]
        rfl
      · intro event _
        exact ⟨List.not_mem_nil, fun _ member => by cases member⟩
      · intro row member
        exact ⟨row, by rw [← isStart]; exact member, rfl, .inl rfl⟩
  | @cons start middle finish call calls persists stepped _ induction =>
      rw [← isStart] at stepped persists
      obtain ⟨next, later, still, same⟩ := serviceStep_serves deployment
        (State.grounded_of_reaches .initial reached) idle stepped
      have posted := State.posted_of_reaches reached
      have after := State.posted_of_reaches (reached.trans later)
      obtain ⟨first, passes, served, counted⟩ :=
        induction (reached.trans later) still same
      have outbox : next.database.outbox = middle.storage.database.outbox := by
        rw [← same]
        rfl
      rw [outbox] at served
      have unique := after.ids
      rw [outbox] at unique
      by_cases isRelay : call.isRelay = true
      · cases call with
        | relayOutboxOnce batchSize answers =>
            cases persists.1
            cases stepped
            refine ⟨[], first :: passes, served.relayed rfl
              (relay_pass posted.ids persists), ?_⟩
            rw [List.length_cons, counted, List.countP_cons_of_pos rfl]
        | create | processOnce | consumeTaskMessage => cases isRelay
      · obtain ⟨new, written⟩ :=
          serviceStep_adds_events (Bool.eq_false_iff.mpr isRelay) stepped
        rw [← written] at served unique
        have later : ∀ event ∈ new, ∀ old ∈ state.database.outbox,
            old.createdAt ≤ event.createdAt := by
          intro event isNew
          have inBoth : event ∈ middle.storage.database.outbox := by
            rw [← written]
            exact List.mem_append_right _ isNew
          refine (persists.later (Bool.eq_false_iff.mpr isRelay) stepped event
            inBoth).resolve_left fun isOld => ?_
          unfold Table.KeyUnique at unique
          rw [List.map_append] at unique
          exact (List.nodup_append.mp unique).2.2 event.id
            (List.mem_map_of_mem isOld) event.id (List.mem_map_of_mem isNew) rfl
        refine ⟨_, passes, served.appended unique later, ?_⟩
        rw [counted, List.countP_cons_of_neg isRelay]

/-- While the same publishes fail in every pass of one batch size, an event that
waits behind `ahead` is published after more passes than that exactly if it can
be, and fewer events than the batch size that cannot be are ahead of it. -/
theorem outbox_event_is_published_iff (deployment : Deployment) {state : State}
    (reached : Reaches (step deployment) Always .initial state)
    (idle : state.Idle) {size : Nat} {fails : String → Bool}
    {calls : List ServiceCall} {service : Service}
    (execution : Runs (serviceStep deployment)
      (Persists deployment size fails) state.service calls service)
    {ahead behind : List OutboxEvent} {event : OutboxEvent}
    (waiting : backlogOf state.database.outbox = ahead ++ event :: behind)
    (enough : ahead.length < calls.countP ServiceCall.isRelay) :
    (∃ row ∈ service.storage.database.outbox, row.id = event.id ∧
        row.publishedAt ≠ none) ↔
      fails event.id = false ∧
        (ahead.countP fun other => fails other.id) < size := by
  obtain ⟨first, passes, served, counted⟩ :=
    served_of_runs reached idle execution
  have inBacklog : event ∈ backlogOf state.database.outbox := by
    rw [waiting]
    exact List.mem_append_right _ List.mem_cons_self
  obtain ⟨inOutbox, unpublished⟩ := mem_backlogOf.mp inBacklog
  obtain ⟨notFirst, notLater⟩ := served.fresh event inOutbox
  have distinct := (nodup_backlogOf
    (State.posted_of_reaches reached).ids).of_map
  rw [waiting] at distinct
  obtain ⟨_, tail, apart⟩ := List.nodup_append.mp distinct
  have left := served.left
  rw [waiting, List.append_assoc, List.cons_append] at left
  have gone : event ∉ backlogOf service.storage.database.outbox ↔
      fails event.id = false ∧
        (ahead.countP fun other => fails other.id) < size := by
    rw [left]
    apply Backlog.not_mem_serve_iff
    · exact fun member => apart event member event List.mem_cons_self rfl
    · rw [List.mem_append, not_or]
      exact ⟨(List.nodup_cons.mp tail).1,
        fun member => notFirst (List.mem_map_of_mem member)⟩
    · exact fun arrivals isPass member =>
        notLater arrivals isPass (List.mem_map_of_mem member)
    · rw [counted]
      exact enough
  rw [← gone]
  obtain ⟨after, reaches, _, rfl⟩ := serviceRuns_serve deployment
    (State.grounded_of_reaches .initial reached) idle
    (execution.weaken fun _ _ _ => trivial)
  have unique := (State.posted_of_reaches (reached.trans reaches)).ids
  constructor
  · rintro ⟨row, inTable, same, published⟩ still
    obtain ⟨present, open_⟩ := mem_backlogOf.mp still
    rw [unique.eq_of_mem inTable present same] at published
    exact published open_
  · intro absent
    obtain ⟨later, inLater, same, rfl | published⟩ :=
      served.kept event inOutbox
    · exact absurd (mem_backlogOf.mpr ⟨inLater, unpublished⟩) absent
    · exact ⟨later, inLater, same, published⟩

end Histories

/-! ## A blocked batch -/

/-- A pass whose answers are known to persist. -/
theorem persists_of_all {deployment : Deployment} {size : Nat}
    {fails : String → Bool} {service : Service} {answers : Nat → PublishAnswer}
    (answered : ((relayBatch deployment.dialect size []
        service.storage.database.outbox).zipIdx.all fun (event, position) =>
      decide ((answers position).marks event = []) == fails event.id) = true) :
    Persists deployment size fails service (.relayOutboxOnce size answers) := by
  refine ⟨rfl, ?_⟩
  intro position event located
  have member : (event, position) ∈ (relayBatch deployment.dialect size []
      service.storage.database.outbox).zipIdx :=
    List.mk_mem_zipIdx_iff_getElem?.mpr located
  have same := List.all_eq_true.mp answered _ member
  rw [beq_iff_eq] at same
  rw [← same, decide_eq_true_iff]

/-- The first of the two events of a new request can never be published. -/
def demoBlocked (eventId : String) : Bool :=
  decide (eventId = "aaa")

def demoCreated : State :=
  { State.initial with
    database := demoRequest.insertRows demoDeployment.runtime .empty }

theorem demoCreated_reached :
    Reaches (step demoDeployment) Always .initial demoCreated := by
  have stepped : step demoDeployment .initial (.create demoRequest) =
      some demoCreated := by
    unfold FleetPrivacy.step createStep
    exact if_pos (by decide +kernel)
  exact State.reaches_of_step stepped

theorem demoCreated_idle : demoCreated.Idle :=
  State.idle_of_all rfl rfl

def demoAnswers (position : Nat) : PublishAnswer :=
  if position = 0 then .refused else .confirmed 10

/-- Two passes. -/
def demoPassed (size : Nat) : Service :=
  (relayOutboxOnce demoDeployment size demoAnswers
    (relayOutboxOnce demoDeployment size demoAnswers
      demoCreated.service).1).1

/-- With room for two events the second is published, with room for one it is
not. -/
theorem second_event_needs_room :
    (∃ row ∈ (demoPassed 2).storage.database.outbox, row.id = "aaaa" ∧
        row.publishedAt ≠ none) ∧
      ¬ ∃ row ∈ (demoPassed 1).storage.database.outbox, row.id = "aaaa" ∧
        row.publishedAt ≠ none := by
  have waiting : backlogOf demoCreated.database.outbox =
      [demoRequest.createdEvent] ++ demoRequest.readyEvent "jobs" 0 :: [] := by
    decide +kernel
  have wide : Runs (serviceStep demoDeployment)
      (Persists demoDeployment 2 demoBlocked) demoCreated.service
      [.relayOutboxOnce 2 demoAnswers, .relayOutboxOnce 2 demoAnswers]
      (demoPassed 2) :=
    .cons (persists_of_all (by decide +kernel)) rfl
      (.cons (persists_of_all (by decide +kernel)) rfl (.nil _))
  have narrow : Runs (serviceStep demoDeployment)
      (Persists demoDeployment 1 demoBlocked) demoCreated.service
      [.relayOutboxOnce 1 demoAnswers, .relayOutboxOnce 1 demoAnswers]
      (demoPassed 1) :=
    .cons (persists_of_all (by decide +kernel)) rfl
      (.cons (persists_of_all (by decide +kernel)) rfl (.nil _))
  constructor
  · exact (outbox_event_is_published_iff demoDeployment demoCreated_reached
      demoCreated_idle wide waiting (by decide)).mpr (by decide +kernel)
  · intro published
    have few := ((outbox_event_is_published_iff demoDeployment
      demoCreated_reached demoCreated_idle narrow waiting
      (by decide)).mp published).2
    exact absurd few (by decide +kernel)

end FleetPrivacy
