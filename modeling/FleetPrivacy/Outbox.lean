import FleetPrivacy.Worker

/-!
# Outbox relay and queue messages

`outbox.py` and the messages of `queue.py`.  The queue keeps every accepted
message; an acknowledged one is marked.
-/

namespace FleetPrivacy

/-- `event_envelope`. -/
structure Envelope where
  eventId : String
  tenantId : String
  aggregateId : String
  eventType : String
  payload : Json
  createdAt : Time
  deriving DecidableEq, Repr

def eventEnvelope (event : OutboxEvent) : Envelope :=
  { eventId := event.id
    tenantId := event.tenantId
    aggregateId := event.aggregateId
    eventType := event.eventType
    payload := event.payload
    createdAt := event.createdAt }

structure QueueMessage where
  body : Envelope
  acked : Bool
  deriving DecidableEq, Repr

/-- The select of `relay_outbox_once`; `locked` rows are skipped on
PostgreSQL.  SQL leaves the order of rows of one `created_at` open; here they
come in the order of their insertion. -/
def relayBatch (dialect : Dialect) (batchSize : Nat) (locked : List String)
    (outbox : List OutboxEvent) : List OutboxEvent :=
  ((outbox.filter fun event =>
      decide (event.publishedAt = none) &&
        (decide (dialect = .sqlite) || decide (event.id ∉ locked))).insertionSort
    fun first second => first.createdAt ≤ second.createdAt).take batchSize

/-- The commit of `relay_outbox_once`: every confirmed row is marked. -/
def markPublished (sent : List (String × Time)) (outbox : List OutboxEvent) :
    List OutboxEvent :=
  outbox.map fun event =>
    match sent.lookup event.id with
    | some publishedAt => { event with publishedAt := some publishedAt }
    | none => event

/-- A running `relay_outbox_once`. -/
structure Relay where
  /-- Rows selected and, on PostgreSQL, locked until the commit. -/
  held : List String
  /-- Rows that the loop has not reached. -/
  remaining : List OutboxEvent
  sent : List (String × Time)
  closed : Bool
  deriving DecidableEq, Repr

/-! ## Marked rows -/

theorem eventEnvelope_markPublished (sent : List (String × Time))
    (outbox : List OutboxEvent) {row : OutboxEvent}
    (member : row ∈ markPublished sent outbox) :
    ∃ old ∈ outbox, eventEnvelope row = eventEnvelope old ∧
      (row = old ∨ ∃ entry ∈ sent, entry.1 = old.id) := by
  obtain ⟨old, oldMember, rfl⟩ := List.mem_map.mp member
  refine ⟨old, oldMember, ?_⟩
  cases located : sent.lookup old.id with
  | none => exact ⟨rfl, .inl rfl⟩
  | some publishedAt =>
      obtain ⟨before, after, split, _⟩ := List.lookup_eq_some_iff.mp located
      refine ⟨rfl, .inr ⟨(old.id, publishedAt), ?_, rfl⟩⟩
      rw [split]
      exact List.mem_append_right _ List.mem_cons_self

theorem mem_markPublished (sent : List (String × Time))
    {outbox : List OutboxEvent} {row : OutboxEvent} (member : row ∈ outbox) :
    ∃ marked ∈ markPublished sent outbox, marked.id = row.id ∧
      eventEnvelope marked = eventEnvelope row := by
  refine ⟨_, List.mem_map_of_mem member, ?_⟩
  cases sent.lookup row.id with
  | none => exact ⟨rfl, rfl⟩
  | some publishedAt => exact ⟨rfl, rfl⟩

theorem map_id_markPublished (sent : List (String × Time))
    (outbox : List OutboxEvent) :
    (markPublished sent outbox).map OutboxEvent.id =
      outbox.map OutboxEvent.id := by
  rw [markPublished, List.map_map]
  apply List.map_congr_left
  intro row _
  rw [Function.comp_apply]
  cases sent.lookup row.id with
  | none => rfl
  | some publishedAt => rfl

theorem map_eventEnvelope_markPublished (sent : List (String × Time))
    (outbox : List OutboxEvent) :
    (markPublished sent outbox).map eventEnvelope =
      outbox.map eventEnvelope := by
  unfold markPublished
  rw [List.map_map]
  apply List.map_congr_left
  intro event _
  rw [Function.comp_apply]
  split
  next => rfl
  next => rfl

/-- A marked row is one that was confirmed or was marked before. -/
theorem exists_published_markPublished {sent : List (String × Time)}
    {outbox : List OutboxEvent} {row : OutboxEvent} (member : row ∈ outbox)
    (confirmed : row.publishedAt ≠ none ∨ row.id ∈ sent.map Prod.fst) :
    ∃ marked ∈ markPublished sent outbox, marked.id = row.id ∧
      marked.publishedAt ≠ none := by
  refine ⟨_, List.mem_map_of_mem member, ?_⟩
  cases located : sent.lookup row.id with
  | some publishedAt => exact ⟨rfl, Option.some_ne_none publishedAt⟩
  | none =>
      refine ⟨rfl, ?_⟩
      rcases confirmed with before | inSent
      · exact before
      · obtain ⟨entry, inList, same⟩ := List.mem_map.mp inSent
        have absent := List.lookup_eq_none_iff.mp located entry inList
        simp [same] at absent

theorem mem_markPublished_of_not_mem {sent : List (String × Time)}
    {outbox : List OutboxEvent} {row : OutboxEvent} (member : row ∈ outbox)
    (unsent : row.id ∉ sent.map Prod.fst) :
    row ∈ markPublished sent outbox := by
  have located : sent.lookup row.id = none := by
    rw [List.lookup_eq_none_iff]
    intro entry inList
    rw [bne_iff_ne]
    intro same
    exact unsent (List.mem_map.mpr ⟨entry, inList, same.symm⟩)
  have image := List.mem_map_of_mem (f := fun event : OutboxEvent =>
    match sent.lookup event.id with
    | some publishedAt => { event with publishedAt := some publishedAt }
    | none => event) member
  rw [located] at image
  exact image

end FleetPrivacy
