import FleetPrivacy.Tables

/-!
# From the outbox to the queue

Every task has its `privacy_task.ready` row, every row that is marked as
published has its message, and every message was a row.  This holds whatever
relays crash or publish twice, since a relay marks a row only after the queue
has confirmed it.
-/

namespace FleetPrivacy

open Transition

/-- The queue holds a message for the row. -/
def State.Sent (state : State) (row : OutboxEvent) : Prop :=
  ∃ message ∈ state.queue, message.body = eventEnvelope row

structure Posted (state : State) : Prop where
  ids : Table.KeyUnique OutboxEvent.id state.database.outbox
  batches : ∀ relay ∈ state.relays, ∀ event ∈ relay.remaining,
    ∃ row ∈ state.database.outbox, eventEnvelope row = eventEnvelope event
  confirmed : ∀ relay ∈ state.relays, ∀ entry ∈ relay.sent,
    ∃ row ∈ state.database.outbox, row.id = entry.1 ∧ state.Sent row
  published : ∀ row ∈ state.database.outbox, row.publishedAt ≠ none →
    state.Sent row
  messages : ∀ message ∈ state.queue, ∃ row ∈ state.database.outbox,
    message.body = eventEnvelope row
  ready : ∀ task ∈ state.database.tasks, ∃ row ∈ state.database.outbox,
    (eventEnvelope row).taskId? = some task.id
  aimed : ∀ row ∈ state.database.outbox, ∀ taskId,
    (eventEnvelope row).taskId? = some taskId →
    ∃ task, state.database.task taskId = some task

/-! ## Envelopes -/

theorem Envelope.taskId?_eq_none {body : Envelope}
    (other : body.eventType ≠ EventType.taskReady.value) :
    body.taskId? = none := by
  rw [taskId?, if_pos other]

theorem Intake.taskId?_readyEvent (intake : Intake) (source : String)
    {position : Nat} (named : intake.taskId position ≠ "") :
    (eventEnvelope (intake.readyEvent source position)).taskId? =
      some (intake.taskId position) := by
  simp [Envelope.taskId?, eventEnvelope, Intake.readyEvent, named]

theorem requestFinished_ne_taskReady (status : RequestStatus) :
    (EventType.requestFinished status).value ≠ EventType.taskReady.value := by
  cases status <;> decide

theorem Intake.nodup_eventIds {intake : Intake}
    (nodup : intake.drawnIds.Nodup) :
    Table.KeyUnique OutboxEvent.id intake.events := by
  have ids : intake.events.map OutboxEvent.id =
      (List.range (intake.command.sources.length + 1)).map fun position =>
        intake.fresh.ids (1 + intake.command.sources.length + position) := by
    rw [List.range_succ_eq_map, List.map_cons, List.map_map, events,
      List.map_cons, List.map_map]
    congr 1
    rw [List.range_eq_range', ← List.zipIdx_map_snd 0 intake.command.sources,
      List.map_map]
    apply List.map_congr_left
    intro entry _
    have same : 2 + intake.command.sources.length + entry.2 =
        1 + intake.command.sources.length + entry.2.succ := by
      omega
    exact congrArg intake.fresh.ids same
  unfold Table.KeyUnique
  rw [ids]
  apply List.Nodup.map_on _ List.nodup_range
  intro left leftMember right rightMember same
  have leftBound := List.mem_range.mp leftMember
  have rightBound := List.mem_range.mp rightMember
  have equal := List.inj_on_of_nodup_map nodup
    (List.mem_range.mpr (by omega :
      1 + intake.command.sources.length + left < _))
    (List.mem_range.mpr (by omega :
      1 + intake.command.sources.length + right < _)) same
  omega

/-! ## The relays -/

namespace Posted

variable {deployment : Deployment} {state next : State}

/-- Rows keep their envelopes, messages their bodies, tasks their keys. -/
structure Kept (state next : State) : Prop where
  rows : ∀ row ∈ state.database.outbox, ∃ after ∈ next.database.outbox,
    after.id = row.id ∧ eventEnvelope after = eventEnvelope row
  bodies : ∀ message ∈ state.queue, ∃ after ∈ next.queue,
    after.body = message.body
  tasks : ∀ taskId task, state.database.task taskId = some task →
    ∃ after, next.database.task taskId = some after

theorem Kept.sent (kept : Kept state next) {row after : OutboxEvent}
    (same : eventEnvelope after = eventEnvelope row) (sent : state.Sent row) :
    next.Sent after := by
  obtain ⟨message, member, body⟩ := sent
  obtain ⟨moved, movedMember, movedBody⟩ := kept.bodies message member
  exact ⟨moved, movedMember, (movedBody.trans body).trans same.symm⟩

/-- What has to be shown for rows, relays, messages and tasks that are new. -/
theorem carry (posted : Posted state) (kept : Kept state next)
    (ids : Table.KeyUnique OutboxEvent.id next.database.outbox)
    (relays : ∀ relay ∈ next.relays,
      (∀ event ∈ relay.remaining, (∃ old ∈ state.relays,
          event ∈ old.remaining) ∨
        ∃ row ∈ next.database.outbox,
          eventEnvelope row = eventEnvelope event) ∧
      ∀ entry ∈ relay.sent, (∃ old ∈ state.relays, entry ∈ old.sent) ∨
        ∃ row ∈ next.database.outbox, row.id = entry.1 ∧ next.Sent row)
    (rows : ∀ row ∈ next.database.outbox,
      (∃ old ∈ state.database.outbox, eventEnvelope row = eventEnvelope old ∧
        (row.publishedAt ≠ none → old.publishedAt ≠ none ∨ next.Sent row)) ∨
      row.publishedAt = none ∧
        ∀ taskId, (eventEnvelope row).taskId? = some taskId →
          ∃ task, next.database.task taskId = some task)
    (messages : ∀ message ∈ next.queue,
      (∃ old ∈ state.queue, message.body = old.body) ∨
        ∃ row ∈ state.database.outbox, message.body = eventEnvelope row)
    (tasks : ∀ task ∈ next.database.tasks,
      (∃ old ∈ state.database.tasks, task.id = old.id) ∨
        ∃ row ∈ next.database.outbox,
          (eventEnvelope row).taskId? = some task.id) : Posted next := by
  constructor
  · exact ids
  · intro relay member event remaining
    rcases (relays relay member).1 event remaining with old | new
    · obtain ⟨source, sourceMember, inSource⟩ := old
      obtain ⟨row, rowMember, same⟩ :=
        posted.batches source sourceMember event inSource
      obtain ⟨after, afterMember, _, envelope⟩ := kept.rows row rowMember
      exact ⟨after, afterMember, envelope.trans same⟩
    · exact new
  · intro relay member entry sent
    rcases (relays relay member).2 entry sent with old | new
    · obtain ⟨source, sourceMember, inSource⟩ := old
      obtain ⟨row, rowMember, named, delivered⟩ :=
        posted.confirmed source sourceMember entry inSource
      obtain ⟨after, afterMember, sameId, envelope⟩ := kept.rows row rowMember
      exact ⟨after, afterMember, sameId.trans named,
        kept.sent envelope delivered⟩
    · exact new
  · intro row member marked
    rcases rows row member with ⟨old, oldMember, same, reason⟩ | ⟨open_, _⟩
    · rcases reason marked with before | delivered
      · exact kept.sent same (posted.published old oldMember before)
      · exact delivered
    · exact absurd open_ marked
  · intro message member
    have fromRow : ∃ row ∈ state.database.outbox,
        message.body = eventEnvelope row := by
      rcases messages message member with ⟨old, oldMember, same⟩ | new
      · obtain ⟨row, rowMember, body⟩ := posted.messages old oldMember
        exact ⟨row, rowMember, same.trans body⟩
      · exact new
    obtain ⟨row, rowMember, body⟩ := fromRow
    obtain ⟨after, afterMember, _, envelope⟩ := kept.rows row rowMember
    exact ⟨after, afterMember, body.trans envelope.symm⟩
  · intro task member
    rcases tasks task member with ⟨old, oldMember, same⟩ | new
    · obtain ⟨row, rowMember, named⟩ := posted.ready old oldMember
      obtain ⟨after, afterMember, _, envelope⟩ := kept.rows row rowMember
      exact ⟨after, afterMember, by rw [envelope, same]; exact named⟩
    · exact new
  · intro row member taskId named
    rcases rows row member with ⟨old, oldMember, same, _⟩ | ⟨_, aimed⟩
    · rw [same] at named
      obtain ⟨task, found⟩ := posted.aimed old oldMember taskId named
      exact kept.tasks taskId task found
    · exact aimed taskId named

/-- Steps that leave rows and relays alone and change no message body. -/
theorem revised (posted : Posted state) {task : RequestTask → RequestTask}
    {request : PrivacyRequest → PrivacyRequest}
    (revises : Database.Revises state.database next.database task request)
    (outbox : next.database.outbox = state.database.outbox)
    (relays : next.relays = state.relays)
    (bodies : next.queue.map QueueMessage.body =
      state.queue.map QueueMessage.body) : Posted next := by
  refine posted.carry ⟨?_, ?_, ?_⟩ ?_ ?_ ?_ ?_ ?_
  · intro row member
    rw [outbox]
    exact ⟨row, member, rfl, rfl⟩
  · intro message member
    have inBodies := List.mem_map_of_mem (f := QueueMessage.body) member
    rw [← bodies] at inBodies
    obtain ⟨after, afterMember, same⟩ := List.mem_map.mp inBodies
    exact ⟨after, afterMember, same⟩
  · intro taskId row found
    rw [revises.task_eq, found]
    exact ⟨task row, rfl⟩
  · rw [outbox]
    exact posted.ids
  · intro relay member
    rw [relays] at member
    exact ⟨fun event inRelay => .inl ⟨relay, member, inRelay⟩,
      fun entry inRelay => .inl ⟨relay, member, inRelay⟩⟩
  · intro row member
    rw [outbox] at member
    exact .inl ⟨row, member, rfl, .inl⟩
  · intro message member
    have inBodies := List.mem_map_of_mem (f := QueueMessage.body) member
    rw [bodies] at inBodies
    obtain ⟨old, oldMember, same⟩ := List.mem_map.mp inBodies
    exact .inl ⟨old, oldMember, same.symm⟩
  · intro row member
    rw [revises.tasks] at member
    obtain ⟨old, oldMember, rfl⟩ := List.mem_map.mp member
    exact .inl ⟨old, oldMember, (revises.taskKey old).1⟩

/-- An intake adds the tasks with their rows. -/
theorem created (posted : Posted state) {intake : Intake} {runtime : Runtime}
    (nodup : intake.drawnIds.Nodup)
    (fresh : state.database.unused intake.drawnIds = true)
    (shape : next = { state with
      database := intake.insertRows runtime state.database }) :
    Posted next := by
  obtain ⟨nonempty, _, _, freshEvents⟩ := Database.unused_iff.mp fresh
  have lookup : ∀ taskId task, Table.get RequestTask.id taskId intake.tasks =
      some task → ∃ after,
        (intake.insertRows runtime state.database).task taskId = some after := by
    intro taskId task found
    rw [Database.insertRows_task, found]
    cases state.database.task taskId with
    | none => exact ⟨task, rfl⟩
    | some row => exact ⟨row, rfl⟩
  have named : ∀ position < intake.command.sources.length,
      intake.taskId position ≠ "" := by
    intro position bound isEmpty
    apply nonempty
    rw [← isEmpty]
    exact Intake.mem_drawnIds (by omega)
  subst shape
  refine posted.carry ⟨?_, ?_, ?_⟩ ?_ ?_ ?_ ?_ ?_
  · intro row member
    exact ⟨row, List.mem_append_left _ member, rfl, rfl⟩
  · intro message member
    exact ⟨message, member, rfl⟩
  · intro taskId task found
    exact ⟨task, by rw [Database.insertRows_task, found]; rfl⟩
  · apply posted.ids.append (Intake.nodup_eventIds nodup)
    intro old oldMember new newMember same
    apply freshEvents old oldMember
    rw [same]
    exact Intake.event_id_mem newMember
  · intro relay member
    exact ⟨fun event inRelay => .inl ⟨relay, member, inRelay⟩,
      fun entry inRelay => .inl ⟨relay, member, inRelay⟩⟩
  · intro row member
    rcases List.mem_append.mp member with old | new
    · exact .inl ⟨row, old, rfl, .inl⟩
    · right
      rcases Intake.mem_events new with rfl | ⟨source, position, bound, rfl⟩
      · refine ⟨rfl, ?_⟩
        intro taskId aimed
        have none_ : (eventEnvelope intake.createdEvent).taskId? = none := by
          apply Envelope.taskId?_eq_none
          exact (by decide :
            EventType.requestCreated.value ≠ EventType.taskReady.value)
        rw [none_] at aimed
        cases aimed
      · refine ⟨rfl, ?_⟩
        intro taskId aimed
        rw [intake.taskId?_readyEvent source (named position bound)] at aimed
        cases aimed
        have inTasks : intake.taskId position ∈
            intake.tasks.map RequestTask.id := by
          rw [Intake.tasks_map_id]
          exact List.mem_map_of_mem (List.mem_range.mpr bound)
        cases found : Table.get RequestTask.id (intake.taskId position)
            intake.tasks with
        | some task => exact lookup _ task found
        | none =>
            obtain ⟨task, member, same⟩ := List.mem_map.mp inTasks
            exact absurd same (Table.get_eq_none_iff.mp found task member)
  · intro message member
    exact .inl ⟨message, member, rfl⟩
  · intro task member
    rcases List.mem_append.mp member with old | new
    · exact .inl ⟨task, old, rfl⟩
    · right
      obtain ⟨⟨source, position⟩, inZip, rfl⟩ := List.mem_map.mp new
      have bound : position < intake.command.sources.length := by
        simpa using List.snd_lt_of_mem_zipIdx inZip
      refine ⟨intake.readyEvent source position, ?_,
        intake.taskId?_readyEvent source (named position bound)⟩
      apply List.mem_append_right
      apply List.mem_cons_of_mem
      exact List.mem_map.mpr ⟨(source, position), inZip, rfl⟩

/-- Relays move on and messages are added; the tables stay. -/
theorem relays_moved (posted : Posted state) {relays : List Relay}
    {extra : List QueueMessage}
    (shape : next = { state with relays, queue := state.queue ++ extra })
    (moved : ∀ relay ∈ relays,
      (∀ event ∈ relay.remaining, (∃ old ∈ state.relays,
          event ∈ old.remaining) ∨
        ∃ row ∈ next.database.outbox,
          eventEnvelope row = eventEnvelope event) ∧
      ∀ entry ∈ relay.sent, (∃ old ∈ state.relays, entry ∈ old.sent) ∨
        ∃ row ∈ next.database.outbox, row.id = entry.1 ∧ next.Sent row)
    (bodies : ∀ message ∈ extra, ∃ row ∈ state.database.outbox,
      message.body = eventEnvelope row) : Posted next := by
  subst shape
  refine posted.carry ⟨?_, ?_, ?_⟩ posted.ids moved ?_ ?_ ?_
  · intro row member
    exact ⟨row, member, rfl, rfl⟩
  · intro message member
    exact ⟨message, List.mem_append_left _ member, rfl⟩
  · intro taskId task found
    exact ⟨task, found⟩
  · intro row member
    exact .inl ⟨row, member, rfl, .inl⟩
  · intro message member
    rcases List.mem_append.mp member with old | new
    · exact .inl ⟨message, old, rfl⟩
    · exact .inr (bodies message new)
  · intro task member
    exact .inl ⟨task, member, rfl⟩

/-- A relay whose lists shrink or stay. -/
private theorem relay_kept {relay after : Relay} {rows : List OutboxEvent}
    (member : relay ∈ state.relays) (fewer : after.remaining ⊆ relay.remaining)
    (same : after.sent = relay.sent) :
    (∀ event ∈ after.remaining, (∃ old ∈ state.relays,
        event ∈ old.remaining) ∨
      ∃ row ∈ rows, eventEnvelope row = eventEnvelope event) ∧
    ∀ entry ∈ after.sent, (∃ old ∈ state.relays, entry ∈ old.sent) ∨
      ∃ row ∈ rows, row.id = entry.1 ∧ next.Sent row := by
  refine ⟨?_, ?_⟩
  · intro event inRelay
    exact .inl ⟨relay, member, fewer inRelay⟩
  · intro entry inRelay
    rw [same] at inRelay
    exact .inl ⟨relay, member, inRelay⟩

/-- A confirmed row has reached the queue. -/
theorem publish (posted : Posted state) {index : Nat} {relay : Relay}
    {event : OutboxEvent} {remaining : List OutboxEvent}
    {accepted confirmed : Bool} {now : Time}
    (found : state.relays[index]? = some relay)
    (rest : relay.remaining = event :: remaining)
    (honest : confirmed = true → accepted = true)
    (shape : next = { state with
      relays := state.relays.set index { relay with
        remaining
        sent := relay.sent ++ (if confirmed then [(event.id, now)] else []) }
      queue := state.queue ++
        (if accepted then [⟨eventEnvelope event, false⟩] else []) }) :
    Posted next := by
  have relayMember := List.mem_of_getElem? found
  obtain ⟨row, rowMember, same⟩ := posted.batches relay relayMember event (by
    rw [rest]
    exact List.mem_cons_self)
  refine posted.relays_moved shape ?_ ?_
  · intro moved member
    rcases List.mem_or_eq_of_mem_set member with old | new
    · exact relay_kept old (List.Subset.refl _) rfl
    · rw [new]
      refine ⟨?_, ?_⟩
      · intro other inRest
        refine .inl ⟨relay, relayMember, ?_⟩
        rw [rest]
        exact List.mem_cons_of_mem event inRest
      · intro entry inSent
        rcases List.mem_append.mp inSent with old | fresh
        · exact .inl ⟨relay, relayMember, old⟩
        · right
          cases confirmed with
          | false => cases fresh
          | true =>
              cases List.mem_singleton.mp fresh
              rw [shape]
              refine ⟨row, rowMember, congrArg Envelope.eventId same, ?_⟩
              refine ⟨⟨eventEnvelope event, false⟩, ?_, same.symm⟩
              rw [honest rfl]
              exact List.mem_append_right _ List.mem_cons_self
  · intro message member
    cases accepted with
    | false => cases member
    | true =>
        cases List.mem_singleton.mp member
        exact ⟨row, rowMember, same.symm⟩

/-- The commit of a relay marks rows that it saw confirmed. -/
theorem commit (posted : Posted state) {index : Nat} {relay : Relay}
    (found : state.relays[index]? = some relay)
    (shape : next = { state with
      relays := state.relays.set index { relay with closed := true }
      database := { state.database with
        outbox := markPublished relay.sent state.database.outbox } }) :
    Posted next := by
  have relayMember := List.mem_of_getElem? found
  subst shape
  refine posted.carry ⟨?_, ?_, ?_⟩ ?_ ?_ ?_ ?_ ?_
  · intro row member
    exact mem_markPublished relay.sent member
  · intro message member
    exact ⟨message, member, rfl⟩
  · intro taskId task found
    exact ⟨task, found⟩
  · unfold Table.KeyUnique
    rw [map_id_markPublished]
    exact posted.ids
  · intro moved member
    rcases List.mem_or_eq_of_mem_set member with old | new
    · exact relay_kept old (List.Subset.refl _) rfl
    · rw [new]
      exact relay_kept relayMember (List.Subset.refl _) rfl
  · intro row member
    obtain ⟨old, oldMember, same, reason⟩ :=
      eventEnvelope_markPublished relay.sent state.database.outbox member
    refine .inl ⟨old, oldMember, same, ?_⟩
    intro marked
    rcases reason with unchanged | ⟨entry, inSent, named⟩
    · rw [unchanged] at marked
      exact .inl marked
    · obtain ⟨confirmed, confirmedMember, sameId, message, inQueue, body⟩ :=
        posted.confirmed relay relayMember entry inSent
      have isOld : confirmed = old := posted.ids.eq_of_mem confirmedMember
        oldMember (sameId.trans named)
      rw [isOld, ← same] at body
      exact .inr ⟨message, inQueue, body⟩
  · intro message member
    exact .inl ⟨message, member, rfl⟩
  · intro task member
    exact .inl ⟨task, member, rfl⟩

theorem relayed (posted : Posted state) {action : Action}
    {relays : List Relay} {extra : List QueueMessage}
    {outbox : List OutboxEvent}
    (move : RelayMove deployment state action relays extra outbox) :
    Posted { state with
      relays
      queue := state.queue ++ extra
      database := { state.database with outbox } } := by
  cases move with
  | selected batchSize =>
      refine posted.relays_moved rfl ?_ (fun message member => by cases member)
      intro relay member
      rcases List.mem_append.mp member with old | new
      · exact relay_kept old (List.Subset.refl _) rfl
      · rw [List.mem_singleton.mp new]
        refine ⟨?_, fun entry inSent => by cases inSent⟩
        intro event inBatch
        have sorted := List.mem_of_mem_take inBatch
        have filtered := (Table.mem_insertionSort_iff _).mp sorted
        exact .inr ⟨event, (List.mem_filter.mp filtered).1, rfl⟩
  | published index relay event remaining accepted confirmed now found isOpen
      rest honest => exact posted.publish found rest honest rfl
  | committed index relay found isOpen rest =>
      have step := posted.commit found rfl
      rw [List.append_nil]
      exact step
  | crashed index relay found =>
      refine posted.relays_moved rfl ?_ (fun message member => by cases member)
      intro moved member
      rcases List.mem_or_eq_of_mem_set member with old | new
      · exact relay_kept old (List.Subset.refl _) rfl
      · rw [new]
        exact relay_kept (List.mem_of_getElem? found) (List.Subset.refl _) rfl

/-- A refresh adds at most the notice of its request. -/
theorem refreshed (posted : Posted state) {calls : List Call} {runtime : Runtime}
    {session : Session} {request : PrivacyRequest} {reference : Option String}
    {noticeId : String} {now : Time}
    (fresh : state.database.unused [noticeId] = true) :
    Posted { state with
      calls
      database := commitRefresh runtime session request reference noticeId now
        state.database } := by
  obtain ⟨_, _, _, freshEvents⟩ := Database.unused_iff.mp fresh
  have revises := Database.commitRefresh_revises runtime session request
    reference noticeId now state.database
  by_cases becomes : request.becomesTerminal
      (session.derivedStatus request.id) = true
  · have outbox : (commitRefresh runtime session request reference noticeId now
        state.database).outbox = enqueueOutbox noticeId request.tenantId
          request.id (.requestFinished (session.derivedStatus request.id))
          (refreshSummary (session.derivedStatus request.id)
            (session.tasksOf request.id)) now state.database.outbox := by
      unfold commitRefresh
      dsimp only
      rw [if_pos becomes]
    refine posted.carry ⟨?_, ?_, ?_⟩ ?_ ?_ ?_ ?_ ?_
    · intro row member
      dsimp only
      rw [outbox]
      exact ⟨row, List.mem_append_left _ member, rfl, rfl⟩
    · intro message member
      exact ⟨message, member, rfl⟩
    · intro taskId task found
      dsimp only
      rw [revises.task_eq, found]
      exact ⟨task, rfl⟩
    · dsimp only
      rw [outbox]
      refine posted.ids.append ?_ ?_
      · exact List.nodup_singleton noticeId
      intro old oldMember new newMember same
      apply freshEvents old oldMember
      rw [same, List.mem_singleton.mp newMember]
      exact List.mem_singleton_self noticeId
    · intro relay member
      exact relay_kept member (List.Subset.refl _) rfl
    · intro row member
      dsimp only at member
      rw [outbox] at member
      rcases List.mem_append.mp member with old | new
      · exact .inl ⟨row, old, rfl, .inl⟩
      · right
        rw [List.mem_singleton.mp new]
        refine ⟨rfl, ?_⟩
        intro taskId aimed
        rw [Envelope.taskId?_eq_none (requestFinished_ne_taskReady _)] at aimed
        cases aimed
    · intro message member
      exact .inl ⟨message, member, rfl⟩
    · intro task member
      dsimp only at member
      rw [Database.commitRefresh_tasks] at member
      exact .inl ⟨task, member, rfl⟩
  · refine posted.revised revises ?_ rfl rfl
    unfold commitRefresh
    dsimp only
    rw [if_neg becomes]

theorem step {action : Action} (posted : Posted state) (tidy : state.Tidy)
    (stepped : FleetPrivacy.step deployment state action = some next) :
    Posted next := by
  have same := Database.revises_refl state.database state.database.outbox
  cases effect_of_step tidy.tables.taskIds stepped with
  | created intake nodup fresh absent => exact posted.created nodup fresh rfl
  | relayed action relays extra outbox move => exact posted.relayed move
  | opened | moved | selected | locked =>
      exact posted.revised same rfl rfl rfl
  | messageClaimed | batchClaimed =>
      exact posted.revised (Database.markClaimed_revises ..) rfl rfl rfl
  | recorded =>
      exact posted.revised (Database.recordOutcome_revises ..) rfl rfl rfl
  | refreshed index call requestId own reference request noticeId now found
      phase held uploaded fresh => exact posted.refreshed fresh
  | acked index call slot message found subscribed delivered returned =>
      refine posted.revised same rfl rfl ?_
      dsimp only
      rw [List.map_set]
      apply List.ext_getElem?
      intro other
      have occupied : (state.queue.map QueueMessage.body)[slot]? =
          some message.body := by
        rw [List.getElem?_map, delivered]
        rfl
      rw [getElem?_set_slot occupied]
      split
      next hit =>
        rw [hit]
        exact occupied.symm
      next => rfl
  | extended =>
      exact posted.revised (Database.extendTaskLease_revises ..) rfl rfl rfl

end Posted

theorem Posted.initial : Posted State.initial := by
  refine ⟨List.nodup_nil, ?_, ?_, ?_, ?_, ?_, ?_⟩
  · intro relay member
    cases member
  · intro relay member
    cases member
  · intro row member
    cases member
  · intro message member
    cases member
  · intro task member
    cases member
  · intro row member
    cases member

end FleetPrivacy
