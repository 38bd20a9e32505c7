import Mathlib.Data.List.Forall2
import FleetPrivacy.DeadLetters
import FleetPrivacy.Library.JsonReader

/-!
# Queue messages as texts

`SqsTaskQueue` of `queue.py` gives the service a JSON text and reads a JSON
text back.  The texts carry the outbox rows unchanged, whichever of them a
response of the service returns, in which order and how often.
-/

namespace FleetPrivacy

open Transition

/-! ## Bodies -/

/-- The mapping that `event_envelope` returns. -/
def Envelope.toJson (isoformat : Time → String) (envelope : Envelope) : Json :=
  .obj [
    ("event_id", .str envelope.eventId),
    ("tenant_id", .str envelope.tenantId),
    ("aggregate_id", .str envelope.aggregateId),
    ("event_type", .str envelope.eventType),
    ("payload", envelope.payload),
    ("created_at", .str (isoformat envelope.createdAt))]

/-- The task that `handle_task_envelope` reads from a received mapping. -/
def readyTask? (body : Json) : Option String :=
  if body.get? "event_type" ≠ some (.str EventType.taskReady.value) then none
  else
    let taskId := payloadTaskId ((body.get? "payload").getD (.obj []))
    if taskId = "" then none else some taskId

/-! ## The adapter -/

/-- The arguments of `send_message`. -/
structure SendMessage where
  queueUrl : String
  messageBody : String
  messageGroupId : Option String
  messageDeduplicationId : Option String
  deriving DecidableEq, Repr

/-- The constructor refuses an empty URL. -/
structure SqsTaskQueue where
  queueUrl : String
  required : queueUrl ≠ ""

/-- One of `response["Messages"]`; the count is in its attributes. -/
structure RawMessage where
  messageId : String
  receiptHandle : String
  body : String
  approximateReceiveCount : Option Nat
  deriving DecidableEq, Repr

/-- The `QueueMessage` that `SqsTaskQueue.receive` builds. -/
structure DecodedMessage where
  messageId : String
  receiptHandle : String
  body : Json
  receiveCount : Nat

/-- One turn of the loop of `receive`. -/
def RawMessage.decode (raw : RawMessage) : Option DecodedMessage := do
  let body ← Json.loads raw.body
  some {
    messageId := raw.messageId
    receiptHandle := raw.receiptHandle
    body
    receiveCount := raw.approximateReceiveCount.getD 1 }

namespace SqsTaskQueue

/-- `queue_url.endswith(".fifo")`. -/
def fifo (queue : SqsTaskQueue) : Bool :=
  ".fifo".toList.isSuffixOf queue.queueUrl.toList

/-- `publish`, up to the call of the client: `body["event_id"]` must be there.
Ids are strings in every envelope. -/
def publish (queue : SqsTaskQueue) (body : Json) : Option SendMessage :=
  match body.get? "event_id" with
  | some (.str eventId) =>
      let tenantId := match body.get? "tenant_id" with
        | some (.str tenantId) => tenantId
        | _ => "privacy-cloud"
      some {
        queueUrl := queue.queueUrl
        messageBody := body.dumpsAscii
        messageGroupId := if queue.fifo then some tenantId else none
        messageDeduplicationId := if queue.fifo then some eventId else none }
  | _ => none

/-- `receive`, from the response of the client: one text that is no JSON fails
the whole batch. -/
def receive (response : List RawMessage) : Option (List DecodedMessage) :=
  response.mapM RawMessage.decode

end SqsTaskQueue

/-- A text that some `SqsTaskQueue` sends for the envelope of a row. -/
def OutboxEvent.SentAs (isoformat : Time → String) (row : OutboxEvent)
    (text : String) : Prop :=
  ∃ (queue : SqsTaskQueue) (message : SendMessage),
    queue.publish ((eventEnvelope row).toJson isoformat) = some message ∧
      message.messageBody = text

/-! ## Texts and envelopes -/

section Texts

variable (isoformat : Time → String)

theorem Envelope.keysDistinct_toJson {envelope : Envelope}
    (payload : envelope.payload.keysDistinct = true) :
    (envelope.toJson isoformat).keysDistinct = true := by
  simp [toJson, Json.keysDistinct, Json.fieldsDistinct, payload]

private theorem Json.get?_cons (key : String) (field : String × Json)
    (fields : List (String × Json)) :
    Json.get? key (.obj (field :: fields)) =
      if key = field.1 then some field.2 else Json.get? key (.obj fields) := by
  simp only [Json.get?]
  rw [List.lookup_cons]
  by_cases same : key = field.1
  · rw [if_pos same, same, beq_self_eq_true]
  · rw [if_neg same, beq_eq_false_iff_ne.mpr same]

theorem Envelope.get?_toJson (envelope : Envelope) :
    (envelope.toJson isoformat).get? "event_id" = some (.str envelope.eventId) ∧
      (envelope.toJson isoformat).get? "tenant_id" =
        some (.str envelope.tenantId) ∧
      (envelope.toJson isoformat).get? "event_type" =
        some (.str envelope.eventType) ∧
      (envelope.toJson isoformat).get? "payload" = some envelope.payload := by
  simp [toJson, Json.get?_cons]

theorem payloadTaskId_sorted {payload : Json}
    (distinct : payload.keysDistinct = true) :
    payloadTaskId payload.sorted = payloadTaskId payload := by
  unfold payloadTaskId
  rw [Json.get?_sorted distinct]
  cases located : payload.get? "task_id" with
  | none => rfl
  | some value => cases value <;> rfl

/-- A decoded body names the task of its envelope. -/
theorem Envelope.readyTask?_sorted {envelope : Envelope}
    (payload : envelope.payload.keysDistinct = true) :
    readyTask? (envelope.toJson isoformat).sorted = envelope.taskId? := by
  have distinct := envelope.keysDistinct_toJson isoformat payload
  obtain ⟨_, _, eventType, body⟩ := envelope.get?_toJson isoformat
  unfold readyTask? Envelope.taskId?
  rw [Json.get?_sorted distinct, Json.get?_sorted distinct, eventType, body]
  simp only [Option.map_some, Option.getD_some, Json.sorted,
    payloadTaskId_sorted payload, ne_eq, Option.some.injEq, Json.str.injEq]

end Texts

/-! ## Outbox rows -/

/-- The payloads that the services write. -/
theorem Intake.keysDistinct_events (intake : Intake) {event : OutboxEvent}
    (member : event ∈ intake.events) : event.payload.keysDistinct = true := by
  rcases List.mem_cons.mp member with rfl | ready
  · have sources : Json.itemsDistinct
        (intake.command.sources.map Json.str) = true := by
      rw [Json.itemsDistinct_iff]
      intro item member
      obtain ⟨source, _, rfl⟩ := List.mem_map.mp member
      rfl
    simp [createdEvent, sourcesPayload, Json.keysDistinct, Json.fieldsDistinct,
      sources]
  · obtain ⟨_, _, rfl⟩ := List.mem_map.mp ready
    rfl

theorem keysDistinct_refreshSummary (status : RequestStatus)
    (tasks : List RequestTask) :
    (refreshSummary status tasks).keysDistinct = true :=
  rfl

/-- A row of the outbox was there, or was written by an intake or a refresh. -/
theorem Effect.outbox_cases {deployment : Deployment} {state next : State}
    {action : Action} (effect : Effect deployment state action next)
    {row : OutboxEvent} (member : row ∈ next.database.outbox) :
    (∃ old ∈ state.database.outbox, eventEnvelope row = eventEnvelope old) ∨
      (∃ intake : Intake, row ∈ intake.events) ∨
      ∃ status tasks, row.payload = refreshSummary status tasks := by
  cases effect with
  | created intake =>
      rcases List.mem_append.mp member with old | new
      · exact .inl ⟨row, old, rfl⟩
      · exact .inr (.inl ⟨intake, new⟩)
  | relayed action relays extra outbox move =>
      cases move with
      | committed index relay =>
          obtain ⟨old, inOutbox, same, _⟩ :=
            eventEnvelope_markPublished relay.sent _ member
          exact .inl ⟨old, inOutbox, same⟩
      | _ => exact .inl ⟨row, member, rfl⟩
  | refreshed index call requestId own reference request noticeId now =>
      simp only [commitRefresh] at member
      split at member
      next =>
        rcases List.mem_append.mp member with old | new
        · exact .inl ⟨row, old, rfl⟩
        · rw [List.mem_singleton.mp new]
          exact .inr (.inr ⟨_, _, rfl⟩)
      next => exact .inl ⟨row, member, rfl⟩
  | _ => exact .inl ⟨row, member, rfl⟩

/-- What the texts of outbox rows rely on. -/
structure Written (state : State) : Prop where
  tidy : state.Tidy
  posted : Posted state
  payloads : ∀ row ∈ state.database.outbox, row.payload.keysDistinct = true

theorem Written.initial : Written .initial := by
  refine ⟨State.tidy_initial, .initial, ?_⟩
  intro row member
  cases member

theorem Written.step {deployment : Deployment} {state next : State}
    {action : Action} (written : Written state)
    (stepped : FleetPrivacy.step deployment state action = some next) :
    Written next := by
  have effect := effect_of_step written.tidy.tables.taskIds stepped
  refine ⟨written.tidy.effect effect, written.posted.step written.tidy stepped,
    ?_⟩
  intro row member
  rcases effect.outbox_cases member with
    ⟨old, inOutbox, same⟩ | ⟨intake, new⟩ | ⟨status, tasks, same⟩
  · have payload : row.payload = old.payload :=
      congrArg Envelope.payload same
    rw [payload]
    exact written.payloads old inOutbox
  · exact intake.keysDistinct_events new
  · rw [same]
    exact keysDistinct_refreshSummary status tasks

/-! ## Deliveries -/

/-- What `publish` sends for the envelope of a row. -/
theorem SqsTaskQueue.publish_toJson (queue : SqsTaskQueue)
    (isoformat : Time → String) (envelope : Envelope) :
    queue.publish (envelope.toJson isoformat) = some {
      queueUrl := queue.queueUrl
      messageBody := (envelope.toJson isoformat).dumpsAscii
      messageGroupId := if queue.fifo then some envelope.tenantId else none
      messageDeduplicationId :=
        if queue.fifo then some envelope.eventId else none } := by
  obtain ⟨eventId, tenantId, _, _⟩ := envelope.get?_toJson isoformat
  rw [publish, eventId, tenantId]

/-- The reader returns the envelope, its keys in order. -/
theorem OutboxEvent.SentAs.loads {isoformat : Time → String}
    {row : OutboxEvent} {text : String} (sent : row.SentAs isoformat text)
    (payload : row.payload.keysDistinct = true) :
    Json.loads text = some ((eventEnvelope row).toJson isoformat).sorted := by
  obtain ⟨queue, message, published, rfl⟩ := sent
  rw [SqsTaskQueue.publish_toJson] at published
  cases published
  exact Json.loads_dumpsAscii
    ((eventEnvelope row).keysDistinct_toJson isoformat payload)

theorem RawMessage.decode_of_loads {raw : RawMessage} {body : Json}
    (read : Json.loads raw.body = some body) :
    raw.decode = some {
      messageId := raw.messageId
      receiptHandle := raw.receiptHandle
      body
      receiveCount := raw.approximateReceiveCount.getD 1 } := by
  rw [decode, read]
  rfl

theorem SqsTaskQueue.receive_of_decode {response : List RawMessage}
    (decodes : ∀ raw ∈ response, ∃ message, raw.decode = some message) :
    ∃ messages, receive response = some messages ∧
      List.Forall₂ (fun raw message => raw.decode = some message) response
        messages := by
  induction response with
  | nil => exact ⟨[], rfl, .nil⟩
  | cons raw response induction =>
      rw [List.forall_mem_cons] at decodes
      obtain ⟨message, first⟩ := decodes.1
      obtain ⟨messages, later, related⟩ := induction decodes.2
      refine ⟨message :: messages, ?_, .cons first related⟩
      rw [receive] at later ⊢
      rw [List.mapM_cons, first, later]
      rfl

/-- A text belongs to one row. -/
theorem Written.row_of_text {state : State} (written : Written state)
    {isoformat : Time → String} {first second : OutboxEvent} {text : String}
    (firstIn : first ∈ state.database.outbox)
    (secondIn : second ∈ state.database.outbox)
    (firstSent : first.SentAs isoformat text)
    (secondSent : second.SentAs isoformat text) : first = second := by
  have firstPayload := written.payloads first firstIn
  have secondPayload := written.payloads second secondIn
  have values := (firstSent.loads firstPayload).symm.trans
    (secondSent.loads secondPayload)
  have firstId := (eventEnvelope first).get?_toJson isoformat
  have secondId := (eventEnvelope second).get?_toJson isoformat
  have ids := congrArg (Json.get? "event_id") (Option.some.inj values)
  rw [Json.get?_sorted ((eventEnvelope first).keysDistinct_toJson _
      firstPayload),
    Json.get?_sorted ((eventEnvelope second).keysDistinct_toJson _
      secondPayload), firstId.1, secondId.1] at ids
  apply written.posted.ids.eq_of_mem firstIn secondIn
  simpa [Json.sorted, eventEnvelope] using ids

/-- Whichever texts of outbox rows a response holds, in any order, with any
handles, twice or not at all: the whole response is read, and each message has
the envelope that was sent and names the same task.  A row is told by its text,
and by its deduplication id on a FIFO queue. -/
theorem sqs_messages_carry_outbox_rows (deployment : Deployment)
    {actions : List Action} {state : State}
    (execution : Runs (FleetPrivacy.step deployment) Always .initial actions
      state)
    (response : List RawMessage)
    (sent : ∀ raw ∈ response, ∃ row ∈ state.database.outbox,
      row.SentAs deployment.isoformat raw.body) :
    (∃ messages, SqsTaskQueue.receive response = some messages ∧
      List.Forall₂ (fun raw message => ∀ row ∈ state.database.outbox,
        row.SentAs deployment.isoformat raw.body →
        message = {
          messageId := raw.messageId
          receiptHandle := raw.receiptHandle
          body := ((eventEnvelope row).toJson deployment.isoformat).sorted
          receiveCount := raw.approximateReceiveCount.getD 1 } ∧
        readyTask? message.body = (eventEnvelope row).taskId?)
        response messages) ∧
      ∀ (queue : SqsTaskQueue), ∀ first ∈ state.database.outbox,
        ∀ second ∈ state.database.outbox, ∀ message other,
        queue.publish ((eventEnvelope first).toJson deployment.isoformat) =
          some message →
        queue.publish ((eventEnvelope second).toJson deployment.isoformat) =
          some other →
        (message.messageBody = other.messageBody ∨
          queue.fifo = true ∧ message.messageDeduplicationId =
            other.messageDeduplicationId) →
        first = second := by
  have written := execution.invariant
    (fun held _ stepped => Written.step held stepped) Written.initial
  constructor
  · have decodes : ∀ raw ∈ response, ∃ message, raw.decode = some message := by
      intro raw member
      obtain ⟨row, inOutbox, sentAs⟩ := sent raw member
      exact ⟨_, RawMessage.decode_of_loads
        (sentAs.loads (written.payloads row inOutbox))⟩
    obtain ⟨messages, received, related⟩ :=
      SqsTaskQueue.receive_of_decode decodes
    refine ⟨messages, received, related.imp ?_⟩
    intro raw message decoded row inOutbox sentAs
    have payload := written.payloads row inOutbox
    have read := RawMessage.decode_of_loads (sentAs.loads payload)
    cases decoded.symm.trans read
    exact ⟨rfl, (eventEnvelope row).readyTask?_sorted _ payload⟩
  · intro queue first firstIn second secondIn message other sentFirst sentOther
      same
    rcases same with texts | ⟨fifo, deduplication⟩
    · exact written.row_of_text firstIn secondIn
        ⟨queue, message, sentFirst, rfl⟩ ⟨queue, other, sentOther, texts.symm⟩
    · apply written.posted.ids.eq_of_mem firstIn secondIn
      rw [SqsTaskQueue.publish_toJson] at sentFirst sentOther
      cases sentFirst
      cases sentOther
      simpa [fifo, eventEnvelope] using deduplication

/-! One message of a FIFO queue, returned twice. -/

private def demoReady : OutboxEvent := demoRequest.readyEvent "jobs" 0

private def demoQueue : SqsTaskQueue :=
  { queueUrl := "privacy.fifo", required := by decide }

private def demoRaw (receiptHandle : String) (count : Option Nat) :
    RawMessage :=
  { messageId := "m"
    receiptHandle
    body := ((eventEnvelope demoReady).toJson
      demoDeployment.isoformat).dumpsAscii
    approximateReceiveCount := count }

theorem demoReady_sentAs : demoReady.SentAs demoDeployment.isoformat
    ((eventEnvelope demoReady).toJson demoDeployment.isoformat).dumpsAscii :=
  ⟨demoQueue, _, demoQueue.publish_toJson _ _, rfl⟩

theorem sent_task_is_read_back :
    ∃ first second,
      SqsTaskQueue.receive [demoRaw "r" none, demoRaw "s" (some 2)] =
        some [first, second] ∧
      first.receiptHandle = "r" ∧ second.receiveCount = 2 ∧
      readyTask? first.body = some "aa" ∧
      readyTask? second.body = some "aa" := by
  have inOutbox : demoReady ∈ [demoRequest.createdEvent, demoReady] :=
    List.mem_cons_of_mem _ List.mem_cons_self
  obtain ⟨⟨messages, received, related⟩, _⟩ :=
    sqs_messages_carry_outbox_rows demoDeployment
      (runs_of_run (show run (FleetPrivacy.step demoDeployment) Always .initial
        [.create demoRequest] = some _ from rfl))
      [demoRaw "r" none, demoRaw "s" (some 2)] (by
        intro raw member
        refine ⟨demoReady, inOutbox, ?_⟩
        rcases List.mem_pair.mp member with rfl | rfl
        · exact demoReady_sentAs
        · exact demoReady_sentAs)
  have task : (eventEnvelope demoReady).taskId? = some "aa" := by decide
  cases related with
  | cons first rest =>
      cases rest with
      | cons second rest =>
          cases rest
          obtain ⟨isFirst, firstTask⟩ :=
            first demoReady inOutbox demoReady_sentAs
          obtain ⟨isSecond, secondTask⟩ :=
            second demoReady inOutbox demoReady_sentAs
          refine ⟨_, _, received, ?_, ?_, firstTask.trans task,
            secondTask.trans task⟩
          · rw [isFirst]
            rfl
          · rw [isSecond]
            rfl

end FleetPrivacy
