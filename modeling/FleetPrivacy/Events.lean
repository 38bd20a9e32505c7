import FleetPrivacy.Models

/-!
# Audit chain and outbox writers

`events.py`: `append_audit` extends the tenant's hash chain in the caller's
transaction, `verify_audit_chain` recomputes it, and `enqueue_outbox` adds an
outbox row.  Both sides of the chain build the hashed envelope from their own
fields, as the source does.
-/

namespace FleetPrivacy

/-- `_canonical_json`. -/
def canonicalJson (value : Json) : String :=
  value.dumps

/-- `hashlib.sha256(_canonical_json(value).encode()).hexdigest()`. -/
def canonicalHash (runtime : Runtime) (value : Json) : String :=
  runtime.sha256 (canonicalJson value)

/-- The six hashed fields of an audit event. -/
structure AuditEnvelope where
  tenantId : String
  requestId : String
  sequence : Int
  action : String
  payloadHash : String
  previousHash : String
  deriving DecidableEq, Repr

def AuditEnvelope.toJson (envelope : AuditEnvelope) : Json :=
  .obj [
    ("tenant_id", .str envelope.tenantId),
    ("request_id", .str envelope.requestId),
    ("sequence", .int envelope.sequence),
    ("action", .str envelope.action),
    ("payload_hash", .str envelope.payloadHash),
    ("previous_hash", .str envelope.previousHash)]

/-- `"0" * 64`. -/
def genesisHash : String :=
  String.ofList (List.replicate 64 '0')

/-- The chain head: `ORDER BY sequence DESC LIMIT 1` over the tenant's rows. -/
def auditHead (tenantId : String) (rows : List AuditEvent) :
    Option AuditEvent :=
  ((rows.filter fun event => decide (event.tenantId = tenantId)).insertionSort
    fun first second => second.sequence ≤ first.sequence).head?

/-- The row that `append_audit` inserts after reading the head `last`. -/
def auditRow (runtime : Runtime) (tenantId requestId action : String)
    (payload : Json) (last : Option AuditEvent) : AuditEvent :=
  let sequence := match last with
    | none => 1
    | some event => event.sequence + 1
  let previousHash := match last with
    | none => genesisHash
    | some event => event.eventHash
  let payloadHash := canonicalHash runtime payload
  let envelope : AuditEnvelope :=
    { tenantId, requestId, sequence, action, payloadHash, previousHash }
  { tenantId, requestId, sequence, action, payloadHash, previousHash
    eventHash := canonicalHash runtime envelope.toJson }

/-- `append_audit`, on the rows that the transaction sees. -/
def appendAudit (runtime : Runtime) (tenantId requestId action : String)
    (payload : Json) (rows : List AuditEvent) : List AuditEvent :=
  rows ++ [auditRow runtime tenantId requestId action payload
    (auditHead tenantId rows)]

/-- The envelope that `verify_audit_chain` rebuilds from a stored row. -/
def AuditEvent.envelope (event : AuditEvent) : AuditEnvelope :=
  { tenantId := event.tenantId
    requestId := event.requestId
    sequence := event.sequence
    action := event.action
    payloadHash := event.payloadHash
    previousHash := event.previousHash }

/-- The loop of `verify_audit_chain`. -/
def verifyEvents (runtime : Runtime) :
    String → Int → List AuditEvent → Bool
  | _, _, [] => true
  | previousHash, expectedSequence, event :: events =>
      if event.sequence ≠ expectedSequence ∨
          event.previousHash ≠ previousHash then false
      else if canonicalHash runtime event.envelope.toJson ≠ event.eventHash then
        false
      else verifyEvents runtime event.eventHash (expectedSequence + 1) events

/-- The tenant's rows in `ORDER BY sequence ASC`. -/
def auditEvents (tenantId : String) (rows : List AuditEvent) :
    List AuditEvent :=
  (rows.filter fun event => decide (event.tenantId = tenantId)).insertionSort
    fun first second => first.sequence ≤ second.sequence

def verifyAuditChain (runtime : Runtime) (tenantId : String)
    (rows : List AuditEvent) : Bool :=
  verifyEvents runtime genesisHash 1 (auditEvents tenantId rows)

/-- `enqueue_outbox`; `id` and `created_at` are the column defaults drawn at
flush time. -/
def enqueueOutbox (id tenantId aggregateId : String) (eventType : EventType)
    (payload : Json) (createdAt : Time) (rows : List OutboxEvent) :
    List OutboxEvent :=
  rows ++ [{
    id, tenantId, aggregateId, eventType := eventType.value, payload, createdAt
    publishedAt := none }]

end FleetPrivacy
