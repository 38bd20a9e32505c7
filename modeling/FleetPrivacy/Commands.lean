import FleetPrivacy.Api
import FleetPrivacy.Sessions
import Mathlib.Data.String.Basic
import Mathlib.Logic.Equiv.Basic

/-!
# Commands under one idempotency key

`_same_command` compares hashes and sorted lists.  On validated commands that
is equality of the normalised subjects, of the kinds and of the sets of
sources, whatever happened to the stored request in the meantime.
-/

namespace FleetPrivacy

open Transition

/-- The sources that a body names: its list, or all allowed ones. -/
def CreateBody.named (body : CreateBody) : List String :=
  body.sources.getD allowedSources

/-- What the documentation calls the same command. -/
def CreateBody.SameAs (runtime : Runtime) (first second : CreateBody) : Prop :=
  runtime.lower (strip first.subjectKey) =
      runtime.lower (strip second.subjectKey) ∧
    first.kind = second.kind ∧
    ∀ source, source ∈ first.named ↔ source ∈ second.named

/-- A list names every value of another one once, by first occurrence. -/
structure FirstOccurrences (values kept : List String) : Prop where
  mem : ∀ value, value ∈ kept ↔ value ∈ values
  ordered : kept.Pairwise fun first second =>
    values.idxOf first < values.idxOf second

/-- `UniqueConstraint("request_id", "source")`. -/
def Database.SourcesUnique (database : Database) : Prop :=
  (database.tasks.map fun task => (task.requestId, task.source)).Nodup

/-! ## Validation -/

private theorem firstOccurrences_foldl (values : List String) :
    ∀ seen keys : List String, (∀ key, key ∈ keys ↔ key ∈ seen) →
      keys.Pairwise (fun first second => (seen ++ values).idxOf first <
        (seen ++ values).idxOf second) →
      FirstOccurrences (seen ++ values) (values.foldl
        (fun keys value => if value ∈ keys then keys else keys ++ [value])
        keys) := by
  induction values with
  | nil =>
      intro seen keys members ordered
      rw [List.append_nil] at ordered ⊢
      exact ⟨members, ordered⟩
  | cons value values induction =>
      intro seen keys members ordered
      have whole : seen ++ value :: values = (seen ++ [value]) ++ values := by
        simp
      rw [whole] at ordered ⊢
      rw [List.foldl_cons]
      apply induction
      · intro key
        split
        next known =>
          rw [members, List.mem_append, List.mem_singleton]
          constructor
          · exact .inl
          · rintro (earlier | rfl)
            · exact earlier
            · exact (members key).mp known
        next =>
          rw [List.mem_append, List.mem_append, members]
      · split
        next => exact ordered
        next unknown =>
          -- the new key occurs first right after what was seen
          have absent : value ∉ seen := fun earlier =>
            unknown ((members value).mpr earlier)
          rw [List.pairwise_append]
          refine ⟨ordered, List.pairwise_singleton _ _, ?_⟩
          intro key inKeys new isNew
          have earlier := (members key).mp inKeys
          rw [List.mem_singleton.mp isNew, List.append_assoc,
            List.idxOf_append_of_mem earlier,
            List.idxOf_append_of_notMem absent]
          have below := List.idxOf_lt_length_of_mem earlier
          omega

theorem firstOccurrences_dictFromKeys (values : List String) :
    FirstOccurrences values (dictFromKeys values) :=
  firstOccurrences_foldl values [] [] (fun _ => Iff.rfl) List.Pairwise.nil

/-- What validation passes on: the subject and kind as given, the sources by
first occurrence. -/
theorem PrivacyRequestCreate.of_validate {body : CreateBody}
    {command : PrivacyRequestCreate} (valid : validate body = .ok command) :
    command.subjectKey = body.subjectKey ∧ command.kind = body.kind ∧
      FirstOccurrences body.named command.sources := by
  unfold validate at valid
  split at valid
  next =>
    split at valid
    next omitted =>
      cases valid
      refine ⟨rfl, rfl, ?_⟩
      have ordered : allowedSources.Pairwise fun first second =>
          allowedSources.idxOf first < allowedSources.idxOf second := by
        decide
      rw [CreateBody.named, omitted]
      exact ⟨fun _ => Iff.rfl, ordered⟩
    next value given =>
      dsimp only at valid
      split at valid
      next =>
        cases valid
        refine ⟨rfl, rfl, ?_⟩
        rw [CreateBody.named, given]
        exact firstOccurrences_dictFromKeys value
      next => cases valid
  next => cases valid

theorem PrivacyRequestCreate.validate_eq_error_iff (body : CreateBody) :
    (∃ error, validate body = .error error) ↔
      (∃ source ∈ body.named, source ∉ allowedSources) ∨
        ¬(3 ≤ body.subjectKey.length ∧ body.subjectKey.length ≤ 320) := by
  unfold validate
  split
  next bounds =>
    split
    next omitted => simp [CreateBody.named, omitted, bounds]
    next value given =>
      dsimp only
      have named : body.named = value := by
        rw [CreateBody.named, given]
        rfl
      split
      next known =>
        constructor
        · rintro ⟨error, refused⟩
          cases refused
        · rintro (⟨source, inBody, unknown⟩ | outside)
          · apply absurd (known source _) unknown
            rw [(firstOccurrences_dictFromKeys value).mem, ← named]
            exact inBody
          · exact absurd bounds outside
      next unknown =>
        constructor
        · intro _
          push Not at unknown
          obtain ⟨source, inKeys, foreign⟩ := unknown
          refine .inl ⟨source, ?_, foreign⟩
          rw [named, ← (firstOccurrences_dictFromKeys value).mem]
          exact inKeys
        · intro _
          exact ⟨_, rfl⟩
  next outside =>
    constructor
    · intro _
      exact .inr outside
    · intro _
      exact ⟨_, rfl⟩

/-! ## Comparison -/

/-- Sorted lists without repetitions are equal when they have the same
members. -/
theorem insertionSort_eq_iff {first second : List String}
    (left : first.Nodup) (right : second.Nodup) :
    first.insertionSort (· ≤ ·) = second.insertionSort (· ≤ ·) ↔
      ∀ value, value ∈ first ↔ value ∈ second := by
  have sorted := List.perm_insertionSort (· ≤ ·) first
  have others := List.perm_insertionSort (· ≤ ·) second
  constructor
  · intro same value
    rw [← sorted.mem_iff, same, others.mem_iff]
  · intro members
    have permuted := (List.perm_ext_iff_of_nodup left right).mpr members
    apply List.Perm.eq_of_pairwise'
      (List.pairwise_insertionSort (· ≤ ·) first)
      (List.pairwise_insertionSort (· ≤ ·) second)
    exact sorted.trans (permuted.trans others.symm)

/-- The columns of a request that `_find_by_idempotency` and `_same_command`
read, with its id. -/
def PrivacyRequest.command (request : PrivacyRequest) :
    String × String × String × String × RequestKind × List String :=
  (request.id, request.tenantId, request.idempotencyKey,
    request.subjectKeyHash, request.kind, request.requestedSources)

/-- `_same_command` on a row that was stored for a validated body. -/
theorem sameCommand_iff {runtime : Runtime}
    (injective : Function.Injective runtime.sha256) {first second : CreateBody}
    {intake : Intake} {command : PrivacyRequestCreate}
    (stored : PrivacyRequestCreate.validate first = .ok intake.command)
    (valid : PrivacyRequestCreate.validate second = .ok command)
    {row : PrivacyRequest}
    (kept : row.command = (intake.request runtime).command) :
    sameCommand runtime row command = true ↔ first.SameAs runtime second := by
  obtain ⟨firstKey, firstKind, firstSources⟩ :=
    PrivacyRequestCreate.of_validate stored
  obtain ⟨secondKey, secondKind, secondSources⟩ :=
    PrivacyRequestCreate.of_validate valid
  simp only [PrivacyRequest.command, Intake.request, Prod.mk.injEq] at kept
  obtain ⟨_, _, _, hash, kind, sources⟩ := kept
  simp only [sameCommand, Bool.and_eq_true, decide_eq_true_iff, hash, kind,
    sources, hashSubject, injective.eq_iff, firstKey, secondKey, firstKind,
    secondKind, and_assoc, CreateBody.SameAs,
    insertionSort_eq_iff intake.command.sourcesNodup command.sourcesNodup,
    firstSources.mem, secondSources.mem]

/-! ## The stored request in later states -/

namespace Database

theorem startRow_command (requestIds : List String) (now : Time)
    (row : PrivacyRequest) :
    (startRow requestIds now row).command = row.command := by
  unfold startRow
  split
  next => rfl
  next => rfl

theorem verifyRow_command (request : PrivacyRequest) (now : Time)
    (row : PrivacyRequest) :
    (verifyRow request now row).command = row.command := by
  unfold verifyRow
  split
  next => rfl
  next => rfl

theorem refreshRow_command (request : PrivacyRequest) (status : RequestStatus)
    (reference : Option String) (now : Time) (row : PrivacyRequest) :
    (refreshRow request status reference now row).command = row.command := by
  unfold refreshRow
  split
  next => rfl
  next => rfl

/-- The two databases hold the same commands and the same tasks for them. -/
structure SameCommands (before after : Database) : Prop where
  requests : after.requests.map PrivacyRequest.command =
    before.requests.map PrivacyRequest.command
  tasks : after.tasks.map RequestTask.identity =
    before.tasks.map RequestTask.identity

theorem Revises.sameCommands {before after : Database}
    {task : RequestTask → RequestTask}
    {request : PrivacyRequest → PrivacyRequest}
    (revises : Revises before after task request)
    (tasks : ∀ row, (task row).identity = row.identity)
    (requests : ∀ row, (request row).command = row.command) :
    SameCommands before after := by
  constructor
  · rw [revises.requests, List.map_map]
    apply List.map_congr_left
    intro row _
    exact requests row
  · rw [revises.tasks, List.map_map]
    apply List.map_congr_left
    intro row _
    exact tasks row

theorem find_command (database : Database) (tenantId idempotencyKey : String) :
    (findByIdempotency database tenantId idempotencyKey).map
        PrivacyRequest.command =
      (database.requests.map PrivacyRequest.command).find? fun columns =>
        decide (columns.2.1 = tenantId ∧ columns.2.2.1 = idempotencyKey) := by
  rw [List.find?_map]
  rfl

theorem tasksOf_source (database : Database) (requestId : String) :
    (database.tasksOf requestId).map RequestTask.source =
      ((database.tasks.map RequestTask.identity).filter fun columns =>
        decide (columns.2.1 = requestId)).map fun columns =>
          columns.2.2.2 := by
  rw [List.filter_map, List.map_map]
  rfl

theorem sourcesUnique_iff (database : Database) :
    database.SourcesUnique ↔
      ((database.tasks.map RequestTask.identity).map fun columns =>
        (columns.2.1, columns.2.2.2)).Nodup := by
  rw [List.map_map]
  rfl

/-- The request of an intake is stored with one task for each of its
sources. -/
structure Stores (database : Database) (runtime : Runtime) (intake : Intake) :
    Prop where
  request : ∃ row, findByIdempotency database intake.tenantId
      intake.idempotencyKey = some row ∧
    row.command = (intake.request runtime).command
  tasks : (database.tasksOf (intake.fresh.ids 0)).map RequestTask.source =
    intake.command.sources

section Intake

variable {database : Database} {runtime : Runtime} {intake : Intake}

theorem insertRows_find (tenantId idempotencyKey : String) :
    findByIdempotency (intake.insertRows runtime database) tenantId
        idempotencyKey =
      (findByIdempotency database tenantId idempotencyKey).or
        (if intake.tenantId = tenantId ∧
            intake.idempotencyKey = idempotencyKey
          then some (intake.request runtime) else none) := by
  unfold findByIdempotency Intake.insertRows
  rw [List.find?_append]
  congr 1
  by_cases own : intake.tenantId = tenantId ∧
      intake.idempotencyKey = idempotencyKey
  · simp [Intake.request, own]
  · rw [if_neg own, List.find?_eq_none]
    intro request inside hit
    rw [List.mem_singleton.mp inside] at hit
    exact own (of_decide_eq_true hit)

theorem stores_insertRows (formed : database.WellFormed)
    (fresh : database.unused intake.drawnIds = true)
    (absent : findByIdempotency database intake.tenantId
      intake.idempotencyKey = none) :
    (intake.insertRows runtime database).Stores runtime intake := by
  constructor
  · refine ⟨intake.request runtime, ?_, rfl⟩
    rw [insertRows_find, absent]
    simp
  · rw [insertRows_tasksOf_new formed fresh]
    exact intake.tasks_map_source

/-- New tasks have a new request and distinct sources. -/
theorem SourcesUnique.insertRows (unique : database.SourcesUnique)
    (formed : database.WellFormed)
    (fresh : database.unused intake.drawnIds = true) :
    (intake.insertRows runtime database).SourcesUnique := by
  obtain ⟨_, freshRequests, _, _⟩ := unused_iff.mp fresh
  have added : (intake.tasks.map fun task =>
      (task.requestId, task.source)).Nodup := by
    have distinct := intake.command.sourcesNodup
    rw [← intake.tasks_map_source] at distinct
    exact List.Nodup.of_map Prod.snd (by rwa [List.map_map])
  refine Table.KeyUnique.append unique added ?_
  intro old inTable new isNew same
  obtain ⟨request, found⟩ := formed.owned old inTable
  obtain ⟨member, owner⟩ := request_mem found
  obtain ⟨_, _, _, isFresh⟩ := Intake.mem_tasks isNew
  have shared : old.requestId = new.requestId := congrArg Prod.fst same
  apply freshRequests request member
  rw [owner, shared, isFresh]
  exact intake.mem_drawnIds_zero

end Intake

theorem SourcesUnique.of_sameCommands {before after : Database}
    (unique : before.SourcesUnique) (same : SameCommands before after) :
    after.SourcesUnique := by
  rw [sourcesUnique_iff, same.tasks, ← sourcesUnique_iff]
  exact unique

theorem Stores.of_sameCommands {before after : Database} {runtime : Runtime}
    {intake : Intake} (stores : before.Stores runtime intake)
    (same : SameCommands before after) : after.Stores runtime intake := by
  constructor
  · obtain ⟨row, found, kept⟩ := stores.request
    have columns := find_command after intake.tenantId intake.idempotencyKey
    rw [same.requests, ← find_command, found] at columns
    obtain ⟨current, located, shared⟩ := Option.map_eq_some_iff.mp columns
    exact ⟨current, located, shared.trans kept⟩
  · rw [tasksOf_source, same.tasks, ← tasksOf_source]
    exact stores.tasks

end Database

/-- An action keeps the stored commands, or adds that of an intake with a new
key. -/
theorem Effect.commands {deployment : Deployment} {state next : State}
    {action : Action} (effect : Effect deployment state action next) :
    (∃ intake : Intake, state.database.unused intake.drawnIds = true ∧
        next.database =
          intake.insertRows deployment.runtime state.database) ∨
      Database.SameCommands state.database next.database := by
  cases effect with
  | created intake nodup fresh absent => exact .inl ⟨intake, fresh, rfl⟩
  | relayed | opened | moved | selected | locked | acked =>
      exact .inr ⟨rfl, rfl⟩
  | messageClaimed | batchClaimed =>
      exact .inr ((Database.markClaimed_revises ..).sameCommands
        (Database.claimRow_identity _ _ _) (Database.startRow_command _ _))
  | recorded =>
      exact .inr ((Database.recordOutcome_revises ..).sameCommands
        (Database.recordRow_identity _ _ _ _) (Database.verifyRow_command _ _))
  | refreshed =>
      exact .inr ((Database.commitRefresh_revises ..).sameCommands
        (fun _ => rfl) (Database.refreshRow_command _ _ _ _))
  | extended =>
      exact .inr ((Database.extendTaskLease_revises ..).sameCommands
        (Database.extendRow_identity _ _ _) (fun _ => rfl))

/-- Every reachable state meets the constraint on sources. -/
structure State.Distinct (state : State) : Prop where
  tidy : state.Tidy
  unique : state.database.SourcesUnique

theorem State.Distinct.step {deployment : Deployment} {state next : State}
    {action : Action} (distinct : state.Distinct)
    (stepped : step deployment state action = some next) : next.Distinct := by
  have effect := effect_of_step distinct.tidy.tables.taskIds stepped
  refine ⟨distinct.tidy.effect effect, ?_⟩
  rcases effect.commands with ⟨intake, fresh, inserted⟩ | same
  · rw [inserted]
    exact distinct.unique.insertRows distinct.tidy.tables fresh
  · exact distinct.unique.of_sameCommands same

theorem State.distinct_initial : State.initial.Distinct :=
  ⟨State.tidy_initial, List.nodup_nil⟩

/-- The command of an intake is stored. -/
structure State.Remembers (state : State) (runtime : Runtime)
    (intake : Intake) : Prop where
  distinct : state.Distinct
  stores : state.database.Stores runtime intake

/-- A stored command stays stored. -/
theorem State.Remembers.step {deployment : Deployment} {state next : State}
    {action : Action} {intake : Intake}
    (remembers : state.Remembers deployment.runtime intake)
    (stepped : step deployment state action = some next) :
    next.Remembers deployment.runtime intake := by
  have tables := remembers.distinct.tidy.tables
  refine ⟨remembers.distinct.step stepped, ?_⟩
  rcases (effect_of_step tables.taskIds stepped).commands with
    ⟨other, fresh, inserted⟩ | same
  · rw [inserted]
    obtain ⟨existing, located, kept⟩ := remembers.stores.request
    constructor
    · refine ⟨existing, ?_, kept⟩
      rw [Database.insertRows_find, located]
      rfl
    · have found := tables.request_eq (List.mem_of_find?_eq_some located)
      have identified : existing.id = intake.fresh.ids 0 :=
        congrArg Prod.fst kept
      rw [identified] at found
      rw [Database.insertRows_tasksOf fresh found]
      exact remembers.stores.tasks
  · exact remembers.stores.of_sameCommands same

/-- The step that stores a command, as the service's own call. -/
theorem createStep_eq {deployment : Deployment} {state created : State}
    {intake : Intake}
    (stepped : step deployment state (.create intake) = some created) :
    state.database.unused intake.drawnIds = true ∧
      findByIdempotency state.database intake.tenantId
        intake.idempotencyKey = none ∧
      created.database =
        intake.insertRows deployment.runtime state.database ∧
      createPrivacyRequest deployment.runtime intake state.database =
        (created.database,
          .ok (some (intake.request deployment.runtime), true)) := by
  simp only [step, createStep] at stepped
  split at stepped
  next guards =>
    cases stepped
    simp only [Bool.and_eq_true, decide_eq_true_iff, Option.isNone_iff_eq_none]
      at guards
    obtain ⟨⟨_, fresh⟩, absent⟩ := guards
    refine ⟨fresh, absent, rfl, ?_⟩
    obtain ⟨_, freshRequests, _, _⟩ := Database.unused_iff.mp fresh
    have older : state.database.requests.find? (fun request =>
        decide (request.id = intake.fresh.ids 0 ∧
          request.tenantId = intake.tenantId)) = none := by
      rw [List.find?_eq_none]
      intro request member hit
      apply freshRequests request member
      rw [(of_decide_eq_true hit).1]
      exact intake.mem_drawnIds_zero
    simp only [createPrivacyRequest, absent, getPrivacyRequest,
      Intake.insertRows, List.find?_append, older]
    simp [Intake.request]
  next => cases stepped

/-- A second command under the key of a stored one is answered by the
documented comparison, in every later state; the stored sources and tasks are
the first occurrences, and no two tasks of a request share a source. -/
theorem replays_compare_commands (deployment : Deployment)
    (injective : Function.Injective deployment.runtime.sha256)
    (first second : CreateBody) (intake replay : Intake)
    (firstValid : PrivacyRequestCreate.validate first = .ok intake.command)
    (secondValid : PrivacyRequestCreate.validate second = .ok replay.command)
    (tenants : replay.tenantId = intake.tenantId)
    (keys : replay.idempotencyKey = intake.idempotencyKey)
    {prior later : List Action} {state created finish : State}
    (before : Runs (step deployment) Always .initial prior state)
    (stored : step deployment state (.create intake) = some created)
    (after : Runs (step deployment) Always created later finish) :
    createPrivacyRequest deployment.runtime intake state.database =
        (created.database,
          .ok (some (intake.request deployment.runtime), true)) ∧
    (∃ row ∈ finish.database.requests,
      row.command = (intake.request deployment.runtime).command ∧
      (first.SameAs deployment.runtime second →
        createPrivacyRequest deployment.runtime replay finish.database =
          (finish.database, .ok (some row, false))) ∧
      (¬ first.SameAs deployment.runtime second →
        createPrivacyRequest deployment.runtime replay finish.database =
          (finish.database, .error
            "idempotency key already represents a different request"))) ∧
    FirstOccurrences first.named
      (intake.request deployment.runtime).requestedSources ∧
    FirstOccurrences first.named
      ((created.database.tasksOf (intake.fresh.ids 0)).map
        RequestTask.source) ∧
    (finish.database.tasksOf (intake.fresh.ids 0)).map RequestTask.source =
      (intake.request deployment.runtime).requestedSources ∧
    created.database.SourcesUnique ∧ finish.database.SourcesUnique ∧
    ∀ body, (∃ error, PrivacyRequestCreate.validate body = .error error) ↔
      (∃ source ∈ body.named, source ∉ allowedSources) ∨
        ¬(3 ≤ body.subjectKey.length ∧ body.subjectKey.length ≤ 320) := by
  have distinct : state.Distinct :=
    before.invariant (fun holds _ stepped => holds.step stepped)
      State.distinct_initial
  obtain ⟨fresh, absent, inserted, called⟩ := createStep_eq stored
  have initially : created.Remembers deployment.runtime intake := by
    refine ⟨distinct.step stored, ?_⟩
    rw [inserted]
    exact Database.stores_insertRows distinct.tidy.tables fresh absent
  have finally_ : finish.Remembers deployment.runtime intake :=
    after.invariant (fun holds _ stepped =>
      State.Remembers.step holds stepped) initially
  have sources := (PrivacyRequestCreate.of_validate firstValid).2.2
  obtain ⟨row, found, kept⟩ := finally_.stores.request
  have compared := sameCommand_iff injective firstValid secondValid kept
  have answer : findByIdempotency finish.database replay.tenantId
      replay.idempotencyKey = some row := by
    rw [tenants, keys]
    exact found
  refine ⟨called, ⟨row, List.mem_of_find?_eq_some found, kept, ?_, ?_⟩,
    sources, ?_, finally_.stores.tasks, initially.distinct.unique,
    finally_.distinct.unique,
    PrivacyRequestCreate.validate_eq_error_iff⟩
  · intro same
    simp only [createPrivacyRequest, answer, compared.mpr same, if_true]
  · intro differs
    have other : sameCommand deployment.runtime row replay.command = false :=
      Bool.eq_false_iff.mpr (mt compared.mp differs)
    simp [createPrivacyRequest, answer, other]
  · rw [initially.stores.tasks]
    exact sources

/-- SHA-256 on the sample subject, elsewhere an injective stand-in;
lower-casing of ASCII letters. -/
private def sampleHashes : Deployment :=
  { demoDeployment with
    runtime := {
      sha256 := Equiv.swap "abc"
        "ba7816bf8f01cfea414140de5dae2223b00361a396177a9cb410ff61f20015ad"
      lower := fun text => String.ofList (text.toList.map Char.toLower) } }

private def sampleBody : CreateBody :=
  { subjectKey := " ABC ", kind := .access
    sources := some ["profile", "jobs", "profile"] }

private def reorderedBody : CreateBody :=
  { subjectKey := "abc", kind := .access, sources := some ["jobs", "profile"] }

private def sampleIntake : Intake :=
  { demoIntake 'a' .access ["profile", "jobs"] (by decide) (by decide) with
    command := {
      subjectKey := " ABC ", kind := .access, sources := ["profile", "jobs"]
      subjectBounds := by decide
      sourcesNodup := by decide
      sourcesAllowed := by decide } }

/-- Another spelling of the subject and another order of the sources. -/
theorem reordered_command_is_replayed :
    ∃ row, createPrivacyRequest sampleHashes.runtime
      (demoIntake 'b' .access ["jobs", "profile"] (by decide) (by decide))
      (sampleIntake.insertRows sampleHashes.runtime .empty) =
        (sampleIntake.insertRows sampleHashes.runtime .empty,
          .ok (some row, false)) := by
  have stored : step sampleHashes .initial (.create sampleIntake) = some
      { State.initial with
        database := sampleIntake.insertRows sampleHashes.runtime .empty } := by
    unfold step createStep
    exact if_pos (by decide)
  have same : sampleBody.SameAs sampleHashes.runtime reorderedBody := by
    refine ⟨by decide, rfl, ?_⟩
    intro source
    simp only [CreateBody.named, sampleBody, reorderedBody, Option.getD_some,
      List.mem_cons, List.not_mem_nil, or_false]
    tauto
  obtain ⟨_, ⟨row, _, _, replayed, _⟩, _⟩ := replays_compare_commands
    sampleHashes (Equiv.injective _) sampleBody reorderedBody sampleIntake
    (demoIntake 'b' .access ["jobs", "profile"] (by decide) (by decide))
    rfl rfl rfl rfl (.nil _) stored (.nil _)
  exact ⟨row, replayed same⟩

end FleetPrivacy
