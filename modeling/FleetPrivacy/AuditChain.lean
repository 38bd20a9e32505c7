import FleetPrivacy.Events
import FleetPrivacy.Library.HashChain
import FleetPrivacy.Library.Transition

/-!
# The tenants' audit chains

The verifier of `events.py` is the forward check of a numbered hash chain.
The first part reads off what an accepted chain pins down.  The second part
runs any number of transactions that call `append_audit` under PostgreSQL's
transaction-scoped advisory locks and shows that every tenant's committed rows
always form such a chain.
-/

namespace FleetPrivacy

open Transition

/-- Audit rows as a numbered hash chain. -/
def auditChain (runtime : Runtime) : HashChain AuditEvent String where
  number := AuditEvent.sequence
  previous := AuditEvent.previousHash
  digest := AuditEvent.eventHash
  recompute event := canonicalHash runtime event.envelope.toJson

theorem verifyEvents_eq_accepts (runtime : Runtime) (previousHash : String)
    (expectedSequence : Int) (events : List AuditEvent) :
    verifyEvents runtime previousHash expectedSequence events =
      (auditChain runtime).accepts previousHash expectedSequence events := by
  induction events generalizing previousHash expectedSequence with
  | nil => rfl
  | cons event events induction =>
      simp only [verifyEvents, HashChain.accepts, auditChain, induction]
      by_cases numbered : event.sequence = expectedSequence
      · by_cases linked : event.previousHash = previousHash
        · by_cases digested :
            canonicalHash runtime event.envelope.toJson = event.eventHash
          · simp [numbered, linked, digested]
          · simp [numbered, linked, digested]
        · simp [linked]
      · simp [numbered]

/-- The rows of one tenant, in table order. -/
def tenantRows (tenantId : String) (rows : List AuditEvent) :
    List AuditEvent :=
  rows.filter fun event => decide (event.tenantId = tenantId)

/-- The tenant's rows stand in the table as a chain from the genesis hash. -/
def Chained (runtime : Runtime) (tenantId : String)
    (rows : List AuditEvent) : Prop :=
  (auditChain runtime).accepts genesisHash 1 (tenantRows tenantId rows) = true

namespace Chained

variable {runtime : Runtime} {tenantId : String} {rows : List AuditEvent}

theorem auditEvents_eq (chained : Chained runtime tenantId rows) :
    auditEvents tenantId rows = tenantRows tenantId rows := by
  apply List.Pairwise.insertionSort_eq
  exact (HashChain.sorted_of_accepts chained).imp fun before =>
    Int.le_of_lt before

theorem verifyAuditChain_eq_true (chained : Chained runtime tenantId rows) :
    verifyAuditChain runtime tenantId rows = true := by
  rw [verifyAuditChain, verifyEvents_eq_accepts, chained.auditEvents_eq]
  exact chained

end Chained

/-! ## Tamper evidence -/

private theorem accepts_auditEvents {runtime : Runtime} {tenantId : String}
    {rows : List AuditEvent}
    (valid : verifyAuditChain runtime tenantId rows = true) :
    (auditChain runtime).accepts genesisHash 1 (auditEvents tenantId rows) =
      true := by
  rwa [verifyAuditChain, verifyEvents_eq_accepts] at valid

private theorem mem_auditEvents {tenantId : String} {rows : List AuditEvent}
    {event : AuditEvent} :
    event ∈ auditEvents tenantId rows ↔
      event ∈ rows ∧ event.tenantId = tenantId := by
  rw [auditEvents, Table.mem_insertionSort_iff]
  simp

/-- Equal recomputed hashes and equal stored hashes leave no column free. -/
private theorem auditChain_binding {runtime : Runtime}
    (injective : ∀ first second : AuditEnvelope,
      canonicalHash runtime first.toJson =
        canonicalHash runtime second.toJson → first = second)
    (left right : AuditEvent)
    (recomputed : (auditChain runtime).recompute left =
      (auditChain runtime).recompute right)
    (stored : (auditChain runtime).digest left =
      (auditChain runtime).digest right) : left = right := by
  have envelopes : left.envelope = right.envelope :=
    injective left.envelope right.envelope recomputed
  have hashes : left.eventHash = right.eventHash := stored
  cases left
  cases right
  simp only [AuditEvent.envelope, AuditEnvelope.mk.injEq] at envelopes
  obtain ⟨tenants, requests, sequences, actions, payloads, links⟩ := envelopes
  simp only at hashes
  rw [tenants, requests, sequences, actions, payloads, links, hashes]

/-- The last event hash of an accepted chain commits to every column of every
row.  `AuditEvent` has exactly the seven compared columns, so equal lists have
the same length and agree row by row. -/
theorem audit_chain_tamper_evident (runtime : Runtime)
    (injective : ∀ first second : AuditEnvelope,
      canonicalHash runtime first.toJson =
        canonicalHash runtime second.toJson → first = second)
    (tenantId : String) (rows : List AuditEvent)
    (valid : verifyAuditChain runtime tenantId rows = true) :
    (∀ other, verifyAuditChain runtime tenantId other = true →
      (auditEvents tenantId other).getLast?.map AuditEvent.eventHash =
        (auditEvents tenantId rows).getLast?.map AuditEvent.eventHash →
      auditEvents tenantId other = auditEvents tenantId rows) ∧
    (∀ tampered,
      (auditEvents tenantId tampered).getLast?.map AuditEvent.eventHash =
        (auditEvents tenantId rows).getLast?.map AuditEvent.eventHash →
      auditEvents tenantId tampered ≠ auditEvents tenantId rows →
      verifyAuditChain runtime tenantId tampered = false) ∧
    (∀ kept, kept.Sublist rows →
      ¬ auditEvents tenantId kept <+: auditEvents tenantId rows →
      verifyAuditChain runtime tenantId kept = false) := by
  have unique : ∀ other, verifyAuditChain runtime tenantId other = true →
      (auditEvents tenantId other).getLast?.map AuditEvent.eventHash =
        (auditEvents tenantId rows).getLast?.map AuditEvent.eventHash →
      auditEvents tenantId other = auditEvents tenantId rows := by
    intro other otherValid sameEnd
    exact HashChain.eq_of_lastDigest (auditChain_binding injective)
      (accepts_auditEvents otherValid) (accepts_auditEvents valid) sameEnd
  refine ⟨unique, ?_, ?_⟩
  · intro tampered sameEnd different
    rw [← Bool.not_eq_true]
    intro accepted
    exact different (unique tampered accepted sameEnd)
  · intro kept sublist notPrefix
    rw [← Bool.not_eq_true]
    intro accepted
    apply notPrefix
    apply HashChain.isPrefix_of_accepts (accepts_auditEvents valid)
      (accepts_auditEvents accepted)
    intro event member
    obtain ⟨present, owned⟩ := mem_auditEvents.mp member
    exact mem_auditEvents.mpr ⟨sublist.subset present, owned⟩

theorem text_auditEnvelope (envelope : AuditEnvelope) :
    envelope.toJson.text =
      '{' :: (Json.quoted "action" ++ ':' ::
        (Json.quoted envelope.action ++ ',' ::
        (Json.quoted "payload_hash" ++ ':' ::
        (Json.quoted envelope.payloadHash ++ ',' ::
        (Json.quoted "previous_hash" ++ ':' ::
        (Json.quoted envelope.previousHash ++ ',' ::
        (Json.quoted "request_id" ++ ':' ::
        (Json.quoted envelope.requestId ++ ',' ::
        (Json.quoted "sequence" ++ ':' ::
        (Json.integer envelope.sequence ++ ',' ::
        (Json.quoted "tenant_id" ++ ':' ::
        (Json.quoted envelope.tenantId ++ ['}'])))))))))))) := by
  simp [AuditEnvelope.toJson, Json.text, Json.fieldTexts, Json.joined]

/-- The canonical text alone already separates envelopes. -/
theorem canonicalJson_auditEnvelope_injective {first second : AuditEnvelope}
    (equality : canonicalJson first.toJson = canonicalJson second.toJson) :
    first = second := by
  have texts : first.toJson.text = second.toJson.text :=
    String.ofList_injective equality
  rw [text_auditEnvelope, text_auditEnvelope] at texts
  simp only [List.cons.injEq, true_and, List.append_cancel_left_eq] at texts
  obtain ⟨actions, texts⟩ := Json.quoted_append_inj texts
  simp only [List.cons.injEq, true_and, List.append_cancel_left_eq] at texts
  obtain ⟨payloads, texts⟩ := Json.quoted_append_inj texts
  simp only [List.cons.injEq, true_and, List.append_cancel_left_eq] at texts
  obtain ⟨links, texts⟩ := Json.quoted_append_inj texts
  simp only [List.cons.injEq, true_and, List.append_cancel_left_eq] at texts
  obtain ⟨requests, texts⟩ := Json.quoted_append_inj texts
  simp only [List.cons.injEq, true_and, List.append_cancel_left_eq] at texts
  obtain ⟨sequences, texts⟩ := Json.integer_append_inj (by decide) texts
  simp only [List.append_cancel_left_eq, List.cons.injEq, true_and] at texts
  obtain ⟨tenants, _⟩ := Json.quoted_append_inj texts
  cases first
  cases second
  simp only at actions payloads links requests sequences tenants
  rw [actions, payloads, links, requests, sequences, tenants]

/-! ## A chain of three rows -/

/-- SHA-256 on the texts of a table; elsewhere any injective stand-in. -/
def tableRuntime (digests : List (String × String)) : Runtime where
  sha256 text := (digests.lookup text).getD text
  lower text := text

section TableRuntime

variable {digests : List (String × String)}

private theorem tableRuntime_sha256 (text : String) :
    ((∀ entry ∈ digests, text ≠ entry.1) ∧
        (tableRuntime digests).sha256 text = text) ∨
      (text, (tableRuntime digests).sha256 text) ∈ digests := by
  have unfolded : (tableRuntime digests).sha256 text =
      (digests.lookup text).getD text := rfl
  rw [unfolded]
  cases located : digests.lookup text with
  | none =>
      left
      refine ⟨?_, rfl⟩
      intro entry member
      simpa using List.lookup_eq_none_iff.mp located entry member
  | some digest =>
      obtain ⟨before, after, split, _⟩ := List.lookup_eq_some_iff.mp located
      right
      rw [split]
      exact List.mem_append_right _ List.mem_cons_self

theorem tableRuntime_of_mem (texts : (digests.map Prod.fst).Nodup)
    {text digest : String} (member : (text, digest) ∈ digests) :
    (tableRuntime digests).sha256 text = digest := by
  rcases tableRuntime_sha256 text with ⟨absent, _⟩ | listed
  · exact absurd rfl (absent _ member)
  · have entries := List.inj_on_of_nodup_map texts listed member rfl
    exact (Prod.mk.inj entries).2

/-- The text of an envelope opens with a brace, and so is no digest. -/
private theorem canonicalJson_ne_digest (envelope : AuditEnvelope)
    (opens : ∀ entry ∈ digests, entry.2.toList.head? ≠ some '{')
    {entry : String × String} (member : entry ∈ digests) :
    canonicalJson envelope.toJson ≠ entry.2 := by
  intro isDigest
  apply opens entry member
  rw [← isDigest]
  simp only [canonicalJson, Json.dumps, String.toList_ofList,
    text_auditEnvelope, List.head?_cons]

/-- Distinct digests keep the texts of envelopes apart. -/
theorem tableRuntime_injective (distinct : (digests.map Prod.snd).Nodup)
    (opens : ∀ entry ∈ digests, entry.2.toList.head? ≠ some '{')
    (first second : AuditEnvelope)
    (equality : canonicalHash (tableRuntime digests) first.toJson =
      canonicalHash (tableRuntime digests) second.toJson) :
    first = second := by
  apply canonicalJson_auditEnvelope_injective
  unfold canonicalHash at equality
  rcases tableRuntime_sha256 (canonicalJson first.toJson) with
    ⟨_, firstSame⟩ | firstMember
  · rw [firstSame] at equality
    rcases tableRuntime_sha256 (canonicalJson second.toJson) with
      ⟨_, secondSame⟩ | secondMember
    · exact equality.trans secondSame
    · exact absurd equality (canonicalJson_ne_digest first opens secondMember)
  · rcases tableRuntime_sha256 (canonicalJson second.toJson) with
      ⟨_, secondSame⟩ | secondMember
    · rw [secondSame] at equality
      exact absurd equality.symm
        (canonicalJson_ne_digest second opens firstMember)
    · have entries := List.inj_on_of_nodup_map distinct firstMember
        secondMember equality
      exact (Prod.mk.inj entries).1

end TableRuntime

/-- A row of one request, as the service writes it without a payload, and with
its SHA-256 digests. -/
def sampleEvent (sequence : Int) (action previousHash eventHash : String) :
    AuditEvent :=
  { tenantId := "tenant-a"
    requestId := "request-1"
    sequence, action
    payloadHash :=
      "44136fa355b3678a1146ad16f7e8649e94fb4fc21fe77e8310c060f61caaff8a"
    previousHash, eventHash }

def sampleCreated : AuditEvent :=
  sampleEvent 1 "request.created" genesisHash
    "799bd90568595d5439cddd7ae8799e3f594295a880b8fb5536fe9895bd2a1689"

def sampleSucceeded : AuditEvent :=
  sampleEvent 2 "task.succeeded" sampleCreated.eventHash
    "c92bc0438fbf74dd7faf3f82e665961d798788d93fde70294ae982f8fbbd8f20"

def sampleCompleted : AuditEvent :=
  sampleEvent 3 "request.completed" sampleSucceeded.eventHash
    "82e310ae26061a93dad47ea63f19722c2d24223fcdbbd60f2bf4492bbd9ba835"

def sampleChain : List AuditEvent :=
  [sampleCreated, sampleSucceeded, sampleCompleted]

def sampleDigests : List (String × String) :=
  sampleChain.map fun event =>
    (canonicalJson event.envelope.toJson, event.eventHash)

theorem sampleDigests_distinct : (sampleDigests.map Prod.snd).Nodup := by
  decide

theorem sampleDigests_opens :
    ∀ entry ∈ sampleDigests, entry.2.toList.head? ≠ some '{' := by
  decide

theorem sampleDigests_texts : (sampleDigests.map Prod.fst).Nodup := by
  have envelopes : (sampleChain.map AuditEvent.envelope).Nodup := by decide
  have texts : sampleDigests.map Prod.fst =
      (sampleChain.map AuditEvent.envelope).map fun envelope =>
        canonicalJson envelope.toJson := rfl
  rw [texts]
  exact envelopes.map fun _ _ => canonicalJson_auditEnvelope_injective

theorem sampleChain_digests (event : AuditEvent)
    (member : event ∈ sampleChain) :
    canonicalHash (tableRuntime sampleDigests) event.envelope.toJson =
      event.eventHash :=
  tableRuntime_of_mem sampleDigests_texts
    (List.mem_map.mpr ⟨event, member, rfl⟩)

theorem sampleChain_valid : verifyAuditChain (tableRuntime sampleDigests)
    "tenant-a" sampleChain = true := by
  have created := sampleChain_digests sampleCreated (by decide)
  have succeeded := sampleChain_digests sampleSucceeded (by decide)
  have completed := sampleChain_digests sampleCompleted (by decide)
  have rows : auditEvents "tenant-a" sampleChain =
      [sampleCreated, sampleSucceeded, sampleCompleted] := rfl
  rw [verifyAuditChain, rows, verifyEvents, if_neg (by decide),
    if_neg (not_not.mpr created), verifyEvents, if_neg (by decide),
    if_neg (not_not.mpr succeeded), verifyEvents, if_neg (by decide),
    if_neg (not_not.mpr completed), verifyEvents]

/-- Changing the second of three rows is detected, and so is its deletion. -/
theorem altered_action_is_rejected :
    verifyAuditChain (tableRuntime sampleDigests) "tenant-a" sampleChain =
        true ∧
      verifyAuditChain (tableRuntime sampleDigests) "tenant-a"
        [sampleCreated, { sampleSucceeded with action := "task.failed" },
          sampleCompleted] = false ∧
      verifyAuditChain (tableRuntime sampleDigests) "tenant-a"
        [sampleCreated, sampleCompleted] = false := by
  obtain ⟨_, altered, deleted⟩ :=
    audit_chain_tamper_evident (tableRuntime sampleDigests)
      (tableRuntime_injective sampleDigests_distinct sampleDigests_opens)
      "tenant-a" sampleChain sampleChain_valid
  refine ⟨sampleChain_valid, altered _ (by decide) (by decide), ?_⟩
  exact deleted _ (by decide) (by decide)

/-! ## Concurrent appends on PostgreSQL -/

/-- `_postgres_advisory_key`: the first eight digest bytes as a signed 64-bit
number. -/
def postgresAdvisoryKey (runtime : Runtime) (tenantId : String) : Int :=
  let digit (character : Char) : Nat :=
    if character.toNat < 97 then character.toNat - 48
    else character.toNat - 87
  let value := ((runtime.sha256 tenantId).toList.take 16).foldl
    (fun total character => 16 * total + digit character) 0
  if value ≥ 2 ^ 63 then (value : Int) - 2 ^ 64 else value

/-- How far the running `append_audit` call of a transaction has come. -/
inductive AppendPhase where
  | idle
  | locked (tenantId : String)
  | headRead (tenantId : String) (last : Option AuditEvent)
  | failed
  deriving DecidableEq

/-- An open transaction: its advisory locks, its flushed rows and its current
`append_audit` call. -/
structure AuditTransaction where
  locks : List Int
  rows : List AuditEvent
  phase : AppendPhase
  deriving DecidableEq

/-- Committed rows, and the transactions begun so far (`none` once ended). -/
structure AuditState where
  committed : List AuditEvent
  transactions : List (Option AuditTransaction)
  deriving DecidableEq

def AuditState.initial : AuditState :=
  { committed := [], transactions := [] }

inductive AuditStep where
  | begin
  | lock (index : Nat) (tenantId : String)
  | readHead (index : Nat)
  | insert (index : Nat) (requestId action : String) (payload : Json)
  | commit (index : Nat)
  | rollback (index : Nat)

/-- Either unique constraint of `audit_events` relates the two rows. -/
def AuditEvent.conflicts (first second : AuditEvent) : Bool :=
  decide (first.tenantId = second.tenantId ∧ first.sequence = second.sequence ∨
    first.eventHash = second.eventHash)

/-- Some open transaction other than `index` satisfies the test. -/
def AuditState.othersAny (state : AuditState) (index : Nat)
    (test : AuditTransaction → Bool) : Bool :=
  (List.range state.transactions.length).any fun other =>
    decide (other ≠ index) &&
      match state.transactions[other]? with
      | some (some transaction) => test transaction
      | _ => false

def AuditState.replace (state : AuditState) (index : Nat)
    (transaction : Option AuditTransaction) : AuditState :=
  { state with transactions := state.transactions.set index transaction }

/-- One statement of one transaction.  A statement that has to wait for a lock
or for another transaction's uncommitted row is disabled. -/
def auditStep (runtime : Runtime) (state : AuditState) :
    AuditStep → Option AuditState
  | .begin =>
      some { state with
        transactions := state.transactions ++
          [some { locks := [], rows := [], phase := .idle }] }
  | .lock index tenantId =>
      match state.transactions[index]? with
      | some (some transaction) =>
          let key := postgresAdvisoryKey runtime tenantId
          if transaction.phase = .idle ∧
              state.othersAny index (fun other => other.locks.contains key) =
                false then
            some (state.replace index (some { transaction with
              locks := key :: transaction.locks, phase := .locked tenantId }))
          else none
      | _ => none
  | .readHead index =>
      match state.transactions[index]? with
      | some (some transaction) =>
          match transaction.phase with
          | .locked tenantId =>
              some (state.replace index (some { transaction with
                phase := .headRead tenantId
                  (auditHead tenantId (state.committed ++ transaction.rows)) }))
          | _ => none
      | _ => none
  | .insert index requestId action payload =>
      match state.transactions[index]? with
      | some (some transaction) =>
          match transaction.phase with
          | .headRead tenantId last =>
              let row := auditRow runtime tenantId requestId action payload last
              if state.othersAny index
                  (fun other => other.rows.any row.conflicts) then none
              else if (state.committed ++ transaction.rows).any row.conflicts then
                some (state.replace index
                  (some { transaction with phase := .failed }))
              else
                some (state.replace index (some { transaction with
                  rows := transaction.rows ++ [row], phase := .idle }))
          | _ => none
      | _ => none
  | .commit index =>
      match state.transactions[index]? with
      | some (some transaction) =>
          if transaction.phase = .idle then
            some { (state.replace index none) with
              committed := state.committed ++ transaction.rows }
          else none
      | _ => none
  | .rollback index =>
      match state.transactions[index]? with
      | some (some _) => some (state.replace index none)
      | _ => none

/-- What holds of an open transaction. -/
structure AuditTransaction.Sound (runtime : Runtime)
    (committed : List AuditEvent) (transaction : AuditTransaction) : Prop where
  chained : ∀ tenantId,
    Chained runtime tenantId (committed ++ transaction.rows)
  covered : ∀ row ∈ transaction.rows,
    postgresAdvisoryKey runtime row.tenantId ∈ transaction.locks
  lockedKey : ∀ tenantId, transaction.phase = .locked tenantId →
    postgresAdvisoryKey runtime tenantId ∈ transaction.locks
  readKey : ∀ tenantId last, transaction.phase = .headRead tenantId last →
    postgresAdvisoryKey runtime tenantId ∈ transaction.locks
  readHead : ∀ tenantId last, transaction.phase = .headRead tenantId last →
    last = auditHead tenantId (committed ++ transaction.rows)

/-- The invariant of all interleavings: chains are complete, and no two open
transactions hold one advisory key. -/
structure AuditState.Sound (runtime : Runtime) (state : AuditState) :
    Prop where
  chained : ∀ tenantId, Chained runtime tenantId state.committed
  transactions : ∀ (index : Nat) (transaction : AuditTransaction),
    state.transactions[index]? = some (some transaction) →
      transaction.Sound runtime state.committed
  exclusive : ∀ (first second : Nat) (left right : AuditTransaction),
    state.transactions[first]? = some (some left) →
    state.transactions[second]? = some (some right) →
    first ≠ second → ∀ key ∈ left.locks, key ∉ right.locks

theorem tenantRows_append (tenantId : String)
    (first second : List AuditEvent) :
    tenantRows tenantId (first ++ second) =
      tenantRows tenantId first ++ tenantRows tenantId second :=
  List.filter_append first second

/-- Rows of other tenants only: the tenant sees the same chain. -/
theorem tenantRows_append_of_forall_ne {tenantId : String}
    (first : List AuditEvent) {second : List AuditEvent}
    (others : ∀ row ∈ second, row.tenantId ≠ tenantId) :
    tenantRows tenantId (first ++ second) = tenantRows tenantId first := by
  have none : tenantRows tenantId second = [] := by
    rw [tenantRows, List.filter_eq_nil_iff]
    intro row member
    simpa using others row member
  rw [tenantRows_append, none, List.append_nil]

theorem auditHead_eq_of_tenantRows_eq {tenantId : String}
    {first second : List AuditEvent}
    (same : tenantRows tenantId first = tenantRows tenantId second) :
    auditHead tenantId first = auditHead tenantId second := by
  unfold tenantRows at same
  rw [auditHead, auditHead, same]

/-- On a chain the head query returns the last row. -/
theorem Chained.auditHead_eq {runtime : Runtime} {tenantId : String}
    {rows : List AuditEvent} (chained : Chained runtime tenantId rows) :
    auditHead tenantId rows = (tenantRows tenantId rows).getLast? := by
  have ascending := HashChain.sorted_of_accepts chained
  have unfolded : auditHead tenantId rows =
      ((tenantRows tenantId rows).insertionSort
        fun first second => second.sequence ≤ first.sequence).head? := rfl
  rw [unfolded]
  generalize tenantRows tenantId rows = chain at ascending
  rcases List.eq_nil_or_concat' chain with empty | ⟨front, last, shape⟩
  · subst empty
    rfl
  subst shape
  have descending := List.pairwise_insertionSort
    (fun first second : AuditEvent => second.sequence ≤ first.sequence)
    (front ++ [last])
  have members : ∀ event, event ∈ (front ++ [last]).insertionSort
      (fun first second => second.sequence ≤ first.sequence) ↔
        event ∈ front ++ [last] :=
    fun event => Table.mem_insertionSort_iff _
  cases sorted : (front ++ [last]).insertionSort
      (fun first second => second.sequence ≤ first.sequence) with
  | nil =>
      have absent := (members last).mpr (by simp)
      rw [sorted] at absent
      cases absent
  | cons top rest =>
      rw [sorted] at descending members
      have topMember := (members top).mp (by simp)
      have lastMember := (members last).mpr (by simp)
      rw [List.pairwise_append] at ascending
      rcases List.mem_append.mp topMember with inFront | isLast
      · have below := ascending.2.2 top inFront last (by simp)
        rcases List.mem_cons.mp lastMember with same | inRest
        · subst same
          simp
        · have above := (List.pairwise_cons.mp descending).1 last inRest
          simp only [auditChain] at below
          omega
      · have same : top = last := by simpa using isLast
        simp [same]

/-- `append_audit` extends the tenant's chain by one row. -/
theorem Chained.append_auditRow {runtime : Runtime} {tenantId : String}
    {rows : List AuditEvent} (chained : Chained runtime tenantId rows)
    (requestId action : String) (payload : Json) :
    Chained runtime tenantId (rows ++
      [auditRow runtime tenantId requestId action payload
        (auditHead tenantId rows)]) := by
  unfold Chained at chained ⊢
  have extended : tenantRows tenantId (rows ++
      [auditRow runtime tenantId requestId action payload
        (auditHead tenantId rows)]) =
      tenantRows tenantId rows ++
        [auditRow runtime tenantId requestId action payload
          (auditHead tenantId rows)] := by
    rw [tenantRows_append]
    simp [tenantRows, auditRow]
  rw [extended, HashChain.accepts_append_singleton]
  refine ⟨chained, ?_, ?_, rfl⟩
  · rw [auditHead_eq chained]
    rcases List.eq_nil_or_concat' (tenantRows tenantId rows) with
      empty | ⟨front, last, shape⟩
    · rw [empty]
      rfl
    · rw [shape] at chained ⊢
      have numbered := (HashChain.accepts_append_singleton.mp chained).2.1
      simp only [auditChain] at numbered
      simp only [auditChain, auditRow, List.getLast?_append_cons,
        List.getLast?_singleton, List.length_append, List.length_cons,
        List.length_nil, numbered]
      omega
  · rw [auditHead_eq chained]
    rcases List.eq_nil_or_concat' (tenantRows tenantId rows) with
      empty | ⟨front, last, shape⟩
    · rw [empty]
      rfl
    · rw [shape]
      simp [auditChain, auditRow, HashChain.lastDigest]

theorem AuditState.othersAny_eq_false {state : AuditState} {index : Nat}
    {test : AuditTransaction → Bool}
    (absent : state.othersAny index test = false) {other : Nat}
    {transaction : AuditTransaction} (different : other ≠ index)
    (found : state.transactions[other]? = some (some transaction)) :
    test transaction = false := by
  have bound : other < state.transactions.length := by
    by_contra outside
    rw [List.getElem?_eq_none (Nat.le_of_not_lt outside)] at found
    cases found
  have silent := (List.any_eq_false.mp absent) other (List.mem_range.mpr bound)
  simpa [different, found] using silent

namespace AuditTransaction.Sound

variable {runtime : Runtime} {committed : List AuditEvent}
  {transaction : AuditTransaction}

theorem lock (sound : transaction.Sound runtime committed)
    (tenantId : String) :
    AuditTransaction.Sound runtime committed { transaction with
      locks := postgresAdvisoryKey runtime tenantId :: transaction.locks
      phase := .locked tenantId } := by
  refine ⟨sound.chained, ?_, ?_, ?_, ?_⟩
  · intro row member
    exact List.mem_cons_of_mem _ (sound.covered row member)
  · intro lockedTenant phase
    cases phase
    exact List.mem_cons_self
  · intro readTenant last phase
    cases phase
  · intro readTenant last phase
    cases phase

theorem readsHead (sound : transaction.Sound runtime committed)
    {tenantId : String} (phase : transaction.phase = .locked tenantId) :
    AuditTransaction.Sound runtime committed { transaction with
      phase := .headRead tenantId
        (auditHead tenantId (committed ++ transaction.rows)) } := by
  refine ⟨sound.chained, sound.covered, ?_, ?_, ?_⟩
  · intro lockedTenant reading
    cases reading
  · intro readTenant last reading
    cases reading
    exact sound.lockedKey tenantId phase
  · intro readTenant last reading
    cases reading
    rfl

/-- The row continues the chain of its tenant and is foreign to the others. -/
theorem insert (sound : transaction.Sound runtime committed)
    {tenantId : String} {last : Option AuditEvent}
    (phase : transaction.phase = .headRead tenantId last)
    (requestId action : String) (payload : Json) :
    AuditTransaction.Sound runtime committed { transaction with
      rows := transaction.rows ++
        [auditRow runtime tenantId requestId action payload last]
      phase := .idle } := by
  refine ⟨?_, ?_, by simp, by simp, by simp⟩
  · intro tenant
    have head := sound.readHead tenantId last phase
    subst head
    simp only [← List.append_assoc]
    by_cases same : tenant = tenantId
    · subst same
      exact (sound.chained tenant).append_auditRow requestId action payload
    · unfold Chained
      rw [tenantRows_append_of_forall_ne]
      · exact sound.chained tenant
      · intro row member
        rw [List.mem_singleton.mp member]
        exact Ne.symm same
  · intro row member
    rcases List.mem_append.mp member with old | new
    · exact sound.covered row old
    · rw [List.mem_singleton.mp new]
      exact sound.readKey tenantId last phase

end AuditTransaction.Sound

namespace AuditState.Sound

variable {runtime : Runtime} {state : AuditState}

/-- Overwriting one slot by a sound transaction whose locks nobody else
holds. -/
theorem replace_some (sound : state.Sound runtime) {index : Nat}
    {old new : AuditTransaction}
    (found : state.transactions[index]? = some (some old))
    (newSound : new.Sound runtime state.committed)
    (newLocks : ∀ key ∈ new.locks, key ∈ old.locks ∨
      ∀ (other : Nat) (transaction : AuditTransaction), other ≠ index →
        state.transactions[other]? = some (some transaction) →
          key ∉ transaction.locks) :
    (state.replace index (some new)).Sound runtime := by
  have lookup : ∀ other, (state.replace index (some new)).transactions[other]? =
      if other = index then some (some new) else state.transactions[other]? :=
    fun other => getElem?_set_slot found (some new) other
  have apart : ∀ (other : Nat) (transaction : AuditTransaction),
      other ≠ index →
      state.transactions[other]? = some (some transaction) →
        ∀ key ∈ new.locks, key ∉ transaction.locks := by
    intro other transaction different otherFound key member
    rcases newLocks key member with inherited | fresh
    · exact sound.exclusive index other old transaction found otherFound
        (Ne.symm different) key inherited
    · exact fresh other transaction different otherFound
  refine ⟨sound.chained, ?_, ?_⟩
  · intro other transaction otherFound
    rw [lookup] at otherFound
    split at otherFound
    next => cases otherFound; exact newSound
    next => exact sound.transactions other transaction otherFound
  · intro first second left right leftFound rightFound different key member
    rw [lookup] at leftFound rightFound
    split at leftFound
    next firstHere =>
      cases leftFound
      split at rightFound
      next secondHere => exact absurd (firstHere.trans secondHere.symm) different
      next away => exact apart second right away rightFound key member
    next firstAway =>
      split at rightFound
      next =>
        cases rightFound
        intro shared
        exact apart first left firstAway leftFound key shared member
      next =>
        exact sound.exclusive first second left right leftFound rightFound
          different key member

/-- Ending a transaction without a trace. -/
theorem replace_none (sound : state.Sound runtime) {index : Nat}
    {old : AuditTransaction}
    (found : state.transactions[index]? = some (some old)) :
    (state.replace index none).Sound runtime := by
  have lookup : ∀ (other : Nat) (transaction : AuditTransaction),
      (state.replace index none).transactions[other]? =
        some (some transaction) →
      state.transactions[other]? = some (some transaction) := by
    intro other transaction otherFound
    have slot := getElem?_set_slot found none other
    rw [AuditState.replace] at otherFound
    rw [slot] at otherFound
    split at otherFound
    next => cases otherFound
    next => exact otherFound
  refine ⟨sound.chained, ?_, ?_⟩
  · intro other transaction otherFound
    exact sound.transactions other transaction (lookup other transaction otherFound)
  · intro first second left right leftFound rightFound
    exact sound.exclusive first second left right (lookup first left leftFound)
      (lookup second right rightFound)

/-- Publishing the rows of an ended transaction: every other open transaction
works on tenants whose keys the ended one did not hold. -/
theorem publish (sound : state.Sound runtime) {index : Nat}
    {transaction : AuditTransaction}
    (found : state.transactions[index]? = some (some transaction)) :
    AuditState.Sound runtime { (state.replace index none) with
      committed := state.committed ++ transaction.rows } := by
  have ended := sound.replace_none found
  have own := sound.transactions index transaction found
  refine ⟨own.chained, ?_, ended.exclusive⟩
  intro other open' otherFound
  have otherSound := ended.transactions other open' otherFound
  have slot := getElem?_set_slot found none other
  have different : other ≠ index := by
    intro same
    simp only [AuditState.replace] at otherFound
    rw [slot, if_pos same] at otherFound
    cases otherFound
  have otherBefore : state.transactions[other]? = some (some open') := by
    simp only [AuditState.replace] at otherFound
    rwa [slot, if_neg different] at otherFound
  -- A key held by the other transaction is not the key of any published row.
  have unrelated : ∀ tenantId,
      postgresAdvisoryKey runtime tenantId ∈ open'.locks →
        ∀ row ∈ transaction.rows, row.tenantId ≠ tenantId := by
    intro tenantId held row member same
    have key := own.covered row member
    rw [same] at key
    exact sound.exclusive index other transaction open' found otherBefore
      (Ne.symm different) _ key held
  constructor
  · intro tenantId
    by_cases held : postgresAdvisoryKey runtime tenantId ∈ open'.locks
    · have same : tenantRows tenantId
          ((state.committed ++ transaction.rows) ++ open'.rows) =
          tenantRows tenantId (state.committed ++ open'.rows) := by
        rw [tenantRows_append, tenantRows_append_of_forall_ne _
          (unrelated tenantId held), ← tenantRows_append]
      unfold Chained
      rw [same]
      exact otherSound.chained tenantId
    · have same : tenantRows tenantId
          ((state.committed ++ transaction.rows) ++ open'.rows) =
          tenantRows tenantId (state.committed ++ transaction.rows) := by
        apply tenantRows_append_of_forall_ne
        intro row member equality
        rw [← equality] at held
        exact held (otherSound.covered row member)
      unfold Chained
      rw [same]
      exact own.chained tenantId
  · exact otherSound.covered
  · exact otherSound.lockedKey
  · exact otherSound.readKey
  · intro tenantId last reading
    rw [otherSound.readHead tenantId last reading]
    apply auditHead_eq_of_tenantRows_eq
    have held := otherSound.readKey tenantId last reading
    rw [tenantRows_append tenantId (state.committed ++ transaction.rows),
      tenantRows_append_of_forall_ne _ (unrelated tenantId held),
      ← tenantRows_append]
    rfl

/-- A new transaction holds no key. -/
theorem begins (sound : state.Sound runtime) :
    AuditState.Sound runtime { state with
      transactions := state.transactions ++
        [some { locks := [], rows := [], phase := .idle }] } := by
  have lookup : ∀ other, (state.transactions ++
      [some (⟨[], [], .idle⟩ : AuditTransaction)])[other]? =
      if other = state.transactions.length then some (some ⟨[], [], .idle⟩)
      else state.transactions[other]? :=
    fun other => getElem?_append_slot _ _ other
  refine ⟨sound.chained, ?_, ?_⟩
  · intro other transaction otherFound
    simp only [lookup] at otherFound
    split at otherFound
    next =>
      cases otherFound
      constructor <;> simp [sound.chained]
    next => exact sound.transactions other transaction otherFound
  · intro first second left right leftFound rightFound different key member
    simp only [lookup] at leftFound rightFound
    split at leftFound
    next =>
      cases leftFound
      cases member
    next =>
      split at rightFound
      next =>
        cases rightFound
        simp
      next =>
        exact sound.exclusive first second left right leftFound rightFound
          different key member

theorem step (sound : state.Sound runtime) {action : AuditStep}
    {next : AuditState}
    (stepped : auditStep runtime state action = some next) :
    next.Sound runtime := by
  cases action with
  | begin =>
      cases stepped
      exact sound.begins
  | lock index tenantId =>
      simp only [auditStep] at stepped
      split at stepped
      next transaction found =>
        split at stepped
        next guards =>
          cases stepped
          have own := sound.transactions index transaction found
          apply sound.replace_some found (own.lock tenantId)
          intro key member
          rcases List.mem_cons.mp member with fresh | inherited
          · right
            intro other open' different otherFound held
            have free := AuditState.othersAny_eq_false guards.2 different
              otherFound
            rw [← fresh] at free
            simp [held] at free
          · exact .inl inherited
        next => cases stepped
      next => cases stepped
  | readHead index =>
      simp only [auditStep] at stepped
      split at stepped
      next transaction found =>
        split at stepped
        next tenantId phase =>
          cases stepped
          have own := sound.transactions index transaction found
          exact sound.replace_some found (own.readsHead phase)
            (fun key member => .inl member)
        next => cases stepped
      next => cases stepped
  | insert index requestId action payload =>
      simp only [auditStep] at stepped
      split at stepped
      next transaction found =>
        split at stepped
        next tenantId last phase =>
          have own := sound.transactions index transaction found
          split at stepped
          next => cases stepped
          next =>
            split at stepped
            next =>
              cases stepped
              exact sound.replace_some found
                ⟨own.chained, own.covered, by simp, by simp, by simp⟩
                (fun key member => .inl member)
            next =>
              cases stepped
              exact sound.replace_some found
                (own.insert phase requestId action payload)
                (fun key member => .inl member)
        next => cases stepped
      next => cases stepped
  | commit index =>
      simp only [auditStep] at stepped
      split at stepped
      next transaction found =>
        split at stepped
        next =>
          cases stepped
          exact sound.publish found
        next => cases stepped
      next => cases stepped
  | rollback index =>
      simp only [auditStep] at stepped
      split at stepped
      next transaction found =>
        cases stepped
        exact sound.replace_none found
      next => cases stepped

end AuditState.Sound

theorem AuditState.sound_initial (runtime : Runtime) :
    AuditState.initial.Sound runtime := by
  constructor
  · intro tenantId
    rfl
  · intro index transaction found
    simp [AuditState.initial] at found
  · intro first second left right leftFound
    simp [AuditState.initial] at leftFound

/-- In every committed state of every interleaving, each tenant's rows are
numbered `1..n` and the verifier accepts them. -/
theorem audit_chains_stay_valid (runtime : Runtime)
    {actions : List AuditStep} {state : AuditState}
    (execution : Runs (auditStep runtime) Always .initial actions state)
    (tenantId : String) :
    ((auditEvents tenantId state.committed).map AuditEvent.sequence =
        (List.range (auditEvents tenantId state.committed).length).map
          fun (index : Nat) => 1 + (index : Int)) ∧
      verifyAuditChain runtime tenantId state.committed = true := by
  have sound : state.Sound runtime :=
    execution.invariant (fun before _ stepped => before.step stepped)
      (AuditState.sound_initial runtime)
  have chained := sound.chained tenantId
  refine ⟨?_, chained.verifyAuditChain_eq_true⟩
  rw [chained.auditEvents_eq]
  exact HashChain.numbers_of_accepts chained

/-- A digest with many collisions; the tenants `a` and `b` share their advisory
key. -/
def lengthRuntime : Runtime where
  sha256 text := toString text.utf8ByteSize
  lower text := text

/-- The second transaction waits until the first one has ended, and appends two
rows of its own.  The third one rolls back. -/
def sampleAppends : List AuditStep :=
  [.begin, .begin, .begin, .lock 0 "a", .readHead 0,
    .insert 0 "r" "request.created" (.obj []), .commit 0,
    .lock 1 "a", .readHead 1, .insert 1 "r" "task.succeeded" (.obj []),
    .lock 1 "a", .readHead 1, .insert 1 "r" "request.completed" (.obj []),
    .commit 1, .lock 2 "b", .readHead 2,
    .insert 2 "s" "request.created" (.obj []), .rollback 2]

theorem sample_appends_stay_valid :
    ∃ state, Runs (auditStep lengthRuntime) Always .initial sampleAppends
        state ∧
      (auditEvents "a" state.committed).map AuditEvent.action =
        ["request.created", "task.succeeded", "request.completed"] ∧
      verifyAuditChain lengthRuntime "a" state.committed = true := by
  have finished : ((run (auditStep lengthRuntime) Always .initial
      sampleAppends).map fun state =>
        (auditEvents "a" state.committed).map AuditEvent.action) =
      some ["request.created", "task.succeeded", "request.completed"] := by
    decide +kernel
  obtain ⟨state, result, actions⟩ := Option.map_eq_some_iff.mp finished
  have execution := runs_of_run result
  exact ⟨state, execution, actions,
    (audit_chains_stay_valid lengthRuntime execution "a").2⟩

end FleetPrivacy
