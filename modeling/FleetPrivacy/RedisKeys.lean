import FleetPrivacy.Library.Separated
import FleetPrivacy.Library.Transition
import FleetPrivacy.Requests
import FleetPrivacy.SharedWindow

/-!
# The keys of tenants and sources in Redis

No allowed source holds a colon, so the source of a key is what follows its
last colon, and the tenant is between the prefix and that colon whatever it
contains.  No allowed source is called `inflight` either: a window and a set of
slots never share a key, and every scope has keys of its own.
-/

namespace FleetPrivacy

open Transition

/-! ## Keys -/

namespace RedisAimdState

variable {shared : RedisAimdState} {firstTenant secondTenant : String}
  {firstSource secondSource : String}

theorem colon_not_mem_of_allowed {source : String}
    (allowed : source ∈ allowedSources) : ':' ∉ source.toList := by
  revert source
  decide

private theorem ne_inflight_of_allowed {source : String}
    (allowed : source ∈ allowedSources) :
    source.toList ≠ "inflight".toList := by
  revert source
  decide

theorem key_toList (shared : RedisAimdState) (tenantId source : String) :
    (shared.key tenantId source).toList =
      (shared.keyPrefix.toList ++ ':' :: tenantId.toList) ++
        ':' :: source.toList := by
  simp [key, List.append_assoc]

theorem inflightKey_toList (shared : RedisAimdState)
    (tenantId source : String) :
    (shared.inflightKey tenantId source).toList =
      (shared.key tenantId source).toList ++ ':' :: "inflight".toList := by
  simp [inflightKey]

/-- The source is read after the last colon, and the tenant before it. -/
theorem key_injective (firstAllowed : firstSource ∈ allowedSources)
    (secondAllowed : secondSource ∈ allowedSources)
    (same : shared.key firstTenant firstSource =
      shared.key secondTenant secondSource) :
    firstTenant = secondTenant ∧ firstSource = secondSource := by
  have characters := congrArg String.toList same
  rw [key_toList, key_toList] at characters
  have firstPlain := colon_not_mem_of_allowed firstAllowed
  have secondPlain := colon_not_mem_of_allowed secondAllowed
  have sources := Separated.last_unique characters firstPlain secondPlain
  have fronts := Separated.front_unique characters firstPlain secondPlain
  have tenants := List.append_cancel_left fronts
  constructor
  · exact String.toList_inj.mp (List.cons.inj tenants).2
  · exact String.toList_inj.mp sources

theorem inflightKey_injective (firstAllowed : firstSource ∈ allowedSources)
    (secondAllowed : secondSource ∈ allowedSources)
    (same : shared.inflightKey firstTenant firstSource =
      shared.inflightKey secondTenant secondSource) :
    firstTenant = secondTenant ∧ firstSource = secondSource := by
  have characters := congrArg String.toList same
  rw [inflightKey_toList, inflightKey_toList] at characters
  have keys := List.append_cancel_right characters
  exact key_injective firstAllowed secondAllowed (String.toList_inj.mp keys)

/-- What follows the last colon is a source in one and `inflight` in the
other. -/
theorem key_ne_inflightKey (allowed : firstSource ∈ allowedSources)
    (secondSource : String) :
    shared.key firstTenant firstSource ≠
      shared.inflightKey secondTenant secondSource := by
  intro same
  have characters := congrArg String.toList same
  rw [key_toList, inflightKey_toList] at characters
  have suffixPlain : ':' ∉ "inflight".toList := by decide
  exact ne_inflight_of_allowed allowed (Separated.last_unique characters
    (colon_not_mem_of_allowed allowed) suffixPlain)

end RedisAimdState

/-- Redis keys of tenants, sources and roles never collide. -/
theorem redisKeys_never_collide (shared : RedisAimdState)
    (firstTenant secondTenant firstSource secondSource : String)
    (firstAllowed : firstSource ∈ allowedSources)
    (secondAllowed : secondSource ∈ allowedSources) :
    (shared.key firstTenant firstSource =
        shared.key secondTenant secondSource →
      firstTenant = secondTenant ∧ firstSource = secondSource) ∧
    (shared.inflightKey firstTenant firstSource =
        shared.inflightKey secondTenant secondSource →
      firstTenant = secondTenant ∧ firstSource = secondSource) ∧
    shared.key firstTenant firstSource ≠
      shared.inflightKey secondTenant secondSource := by
  refine ⟨?_, ?_, ?_⟩
  · exact RedisAimdState.key_injective firstAllowed secondAllowed
  · exact RedisAimdState.inflightKey_injective firstAllowed secondAllowed
  · exact RedisAimdState.key_ne_inflightKey firstAllowed secondSource

/-- A tenant whose name ends like a set of slots. -/
theorem redisKeys_never_collide_suffix :
    (RedisAimdState.create "privacy:aimd" 900).key "acme:jobs" "jobs" ≠
      (RedisAimdState.create "privacy:aimd" 900).inflightKey "acme" "jobs" :=
  (redisKeys_never_collide (RedisAimdState.create "privacy:aimd" 900)
    "acme:jobs" "acme" "jobs" "jobs" (by decide) (by decide)).2.2

/-! ## Scopes -/

/-- A tenant and a source that a command can name. -/
structure RedisScope where
  tenantId : String
  source : String
  allowed : source ∈ allowedSources

inductive RedisCall where
  | adjust (arguments : AimdArguments)
  | acquire (holder : String) (defaultLimit : Int) (leaseSeconds : Rat)
  | release (holder : String)

inductive RedisAction where
  | call (scope : RedisScope) (call : RedisCall)
  /-- Time passes; keys may expire. -/
  | elapse (millis : Nat)

namespace RedisAimdState

variable (shared : RedisAimdState)

/-- One script or command; `none` when it raises. -/
def redisCall (redis : Redis) (now : Int) (scope : RedisScope) :
    RedisCall → Option Redis
  | .adjust arguments =>
      (shared.adjust redis now scope.tenantId scope.source arguments).map
        Prod.fst
  | .acquire holder defaultLimit leaseSeconds =>
      (shared.acquire redis now scope.tenantId scope.source holder
        defaultLimit leaseSeconds).map Prod.fst
  | .release holder =>
      shared.release redis now scope.tenantId scope.source holder

def redisStep (state : WindowState) : RedisAction → Option WindowState
  | .call scope call =>
      (shared.redisCall state.redis state.clock scope call).map fun redis =>
        { state with redis }
  | .elapse millis => some { state with clock := state.clock + millis }

end RedisAimdState

/-- What is read is stored. -/
theorem Redis.entry_of_read {redis : Redis} {now : Int} {key : String}
    {value : RedisValue} (found : redis.read now key = some value) :
    ∃ entry, redis.entries key = some entry ∧ entry.value = value := by
  unfold Redis.read at found
  split at found
  next entry present =>
    split at found
    next =>
      cases found
      exact ⟨entry, present, rfl⟩
    next => cases found
  next => cases found

/-- A key holds nothing, or a number. -/
def Redis.NumberAt (redis : Redis) (key : String) : Prop :=
  ∀ entry, redis.entries key = some entry →
    ∃ limit, entry.value = .number limit

/-- A key holds nothing, or a sorted set. -/
def Redis.SetAt (redis : Redis) (key : String) : Prop :=
  ∀ entry, redis.entries key = some entry →
    ∃ members, entry.value = .sortedSet members

theorem Redis.NumberAt.get {redis : Redis} {key : String}
    (number : redis.NumberAt key) (now : Int) :
    ∃ stored, redis.get now key = some stored := by
  unfold Redis.get
  cases found : redis.read now key with
  | none => exact ⟨none, rfl⟩
  | some value =>
      obtain ⟨entry, present, rfl⟩ := Redis.entry_of_read found
      obtain ⟨limit, isNumber⟩ := number entry present
      rw [isNumber]
      exact ⟨some limit, rfl⟩

theorem Redis.SetAt.members {redis : Redis} {key : String}
    (set : redis.SetAt key) (now : Int) :
    ∃ members, redis.members now key = some members := by
  unfold Redis.members
  cases found : redis.read now key with
  | none => exact ⟨[], rfl⟩
  | some value =>
      obtain ⟨entry, present, rfl⟩ := Redis.entry_of_read found
      obtain ⟨members, isSet⟩ := set entry present
      rw [isSet]
      exact ⟨members, rfl⟩

theorem Redis.keepMembers_eq_write (redis : Redis) (key : String)
    (members : List (String × Int)) :
    ∃ entry, redis.keepMembers key members = redis.write key entry ∧
      ∀ stored, entry = some stored →
        ∃ members, stored.value = .sortedSet members := by
  unfold Redis.keepMembers
  split
  next =>
    refine ⟨none, rfl, ?_⟩
    intro stored present
    cases present
  next =>
    refine ⟨none, rfl, ?_⟩
    intro stored present
    cases present
  next members entry _ _ _ =>
    refine ⟨_, rfl, ?_⟩
    intro stored present
    cases present
    exact ⟨_, rfl⟩

section Calls

variable {shared : RedisAimdState} {redis next : Redis} {now : Int}
  {scope : RedisScope} {call : RedisCall}

/-- A call writes a number to its window or a set to its slots. -/
theorem redisCall_cases
    (answered : shared.redisCall redis now scope call = some next) :
    (∃ limit expiresAt,
      next = redis.write (shared.key scope.tenantId scope.source)
        (some ⟨.number limit, expiresAt⟩)) ∨
    ∃ entry,
      next = redis.write (shared.inflightKey scope.tenantId scope.source)
        entry ∧
      ∀ stored, entry = some stored →
        ∃ members, stored.value = .sortedSet members := by
  cases call with
  | adjust arguments =>
      obtain ⟨result, script, rfl⟩ := Option.map_eq_some_iff.mp answered
      simp only [RedisAimdState.adjust, redisAimd, Option.bind_eq_bind,
        Option.bind_eq_some_iff] at script
      obtain ⟨stored, _, script⟩ := script
      split at script
      next => cases script
      next =>
        cases script
        exact .inl ⟨_, _, rfl⟩
  | acquire holder defaultLimit leaseSeconds =>
      obtain ⟨⟨after, admitted, limit⟩, script, rfl⟩ :=
        Option.map_eq_some_iff.mp answered
      obtain ⟨members, _, refused | granted⟩ := redisAdmission_cases script
      · obtain ⟨_, rfl⟩ := refused
        exact .inr (redis.keepMembers_eq_write _ _)
      · obtain ⟨_, _, rfl⟩ := granted
        refine .inr ⟨_, rfl, ?_⟩
        intro stored present
        cases present
        exact ⟨_, rfl⟩
  | release holder =>
      simp only [RedisAimdState.redisCall, RedisAimdState.release,
        Option.bind_eq_bind, Option.bind_eq_some_iff] at answered
      obtain ⟨members, _, same⟩ := answered
      cases same
      exact .inr (redis.keepMembers_eq_write _ _)

/-- The window and the slots of a scope are as they were. -/
def SameScope (shared : RedisAimdState) (scope : RedisScope)
    (before after : Redis) : Prop :=
  after.entries (shared.key scope.tenantId scope.source) =
      before.entries (shared.key scope.tenantId scope.source) ∧
    after.entries (shared.inflightKey scope.tenantId scope.source) =
      before.entries (shared.inflightKey scope.tenantId scope.source)

/-- A call of one scope leaves every other scope alone. -/
theorem redisCall_sameScope
    (answered : shared.redisCall redis now scope call = some next)
    {other : RedisScope}
    (different : ¬ (other.tenantId = scope.tenantId ∧
      other.source = scope.source)) :
    SameScope shared other redis next := by
  have windows : shared.key other.tenantId other.source ≠
      shared.key scope.tenantId scope.source := by
    intro same
    exact different
      (RedisAimdState.key_injective other.allowed scope.allowed same)
  have slots : shared.inflightKey other.tenantId other.source ≠
      shared.inflightKey scope.tenantId scope.source := by
    intro same
    exact different
      (RedisAimdState.inflightKey_injective other.allowed scope.allowed same)
  rcases redisCall_cases answered with
    ⟨limit, expiresAt, rfl⟩ | ⟨entry, rfl, _⟩
  · constructor
    · exact Redis.entries_write_of_ne windows _
    · apply Redis.entries_write_of_ne
      exact (RedisAimdState.key_ne_inflightKey scope.allowed _).symm
  · constructor
    · apply Redis.entries_write_of_ne
      exact RedisAimdState.key_ne_inflightKey other.allowed _
    · exact Redis.entries_write_of_ne slots _

/-- Windows are numbers and slots are sets. -/
structure WellTyped (shared : RedisAimdState) (redis : Redis) : Prop where
  windows : ∀ scope : RedisScope,
    redis.NumberAt (shared.key scope.tenantId scope.source)
  slots : ∀ scope : RedisScope,
    redis.SetAt (shared.inflightKey scope.tenantId scope.source)

namespace WellTyped

theorem empty (shared : RedisAimdState) : WellTyped shared Redis.empty := by
  constructor
  · intro scope entry present
    cases present
  · intro scope entry present
    cases present

theorem redisCall (typed : WellTyped shared redis)
    (answered : shared.redisCall redis now scope call = some next) :
    WellTyped shared next := by
  rcases redisCall_cases answered with
    ⟨limit, expiresAt, rfl⟩ | ⟨entry, rfl, isSet⟩
  · constructor
    · intro other stored present
      simp only [Redis.write] at present
      split at present
      next =>
        cases present
        exact ⟨limit, rfl⟩
      next => exact typed.windows other stored present
    · intro other stored present
      rw [Redis.entries_write_of_ne
        (RedisAimdState.key_ne_inflightKey scope.allowed _).symm] at present
      exact typed.slots other stored present
  · constructor
    · intro other stored present
      rw [Redis.entries_write_of_ne
        (RedisAimdState.key_ne_inflightKey other.allowed _)] at present
      exact typed.windows other stored present
    · intro other stored present
      simp only [Redis.write] at present
      split at present
      next => exact isSet stored present
      next => exact typed.slots other stored present

/-- No call meets a value of the wrong kind. -/
theorem answered (typed : WellTyped shared redis)
    (expiring : 0 < shared.ttlSeconds) (now : Int) (scope : RedisScope)
    (call : RedisCall) :
    ∃ next, shared.redisCall redis now scope call = some next := by
  obtain ⟨stored, window⟩ := (typed.windows scope).get now
  obtain ⟨members, slots⟩ := (typed.slots scope).members now
  cases call with
  | adjust arguments =>
      simp only [RedisAimdState.redisCall,
        RedisAimdState.adjust_eq window expiring arguments]
      exact ⟨_, rfl⟩
  | acquire holder defaultLimit leaseSeconds =>
      simp only [RedisAimdState.redisCall, RedisAimdState.acquire,
        redisAdmission, window, slots, Option.bind_eq_bind, Option.bind_some]
      split
      next => exact ⟨_, rfl⟩
      next => exact ⟨_, rfl⟩
  | release holder =>
      simp only [RedisAimdState.redisCall, RedisAimdState.release, slots,
        Option.bind_eq_bind, Option.bind_some]
      exact ⟨_, rfl⟩

theorem redisStep {state after : WindowState} {action : RedisAction}
    (typed : WellTyped shared state.redis)
    (stepped : shared.redisStep state action = some after) :
    WellTyped shared after.redis := by
  cases action with
  | call scope call =>
      obtain ⟨redis, answered, rfl⟩ := Option.map_eq_some_iff.mp stepped
      exact typed.redisCall answered
  | elapse millis =>
      cases stepped
      exact typed

end WellTyped

end Calls

/-- Whatever the tenants do, no script of any of them ever raises. -/
theorem redisRuns_answered {shared : RedisAimdState}
    (expiring : 0 < shared.ttlSeconds) {clock : Int} {finish : WindowState}
    {actions : List RedisAction}
    (execution : Runs shared.redisStep Always ⟨Redis.empty, clock⟩ actions
      finish) (action : RedisAction) :
    ∃ next, shared.redisStep finish action = some next := by
  have typed : WellTyped shared finish.redis := by
    have kept : ∀ {state : WindowState} {action : RedisAction}
        {next : WindowState}, WellTyped shared state.redis →
        Always state action → shared.redisStep state action = some next →
        WellTyped shared next.redis := by
      intro state action next typed _ stepped
      exact typed.redisStep stepped
    exact execution.invariant kept (WellTyped.empty shared)
  cases action with
  | call scope call =>
      obtain ⟨redis, answered⟩ :=
        typed.answered expiring finish.clock scope call
      exact ⟨{ finish with redis }, by
        simp [RedisAimdState.redisStep, answered]⟩
  | elapse millis => exact ⟨_, rfl⟩

/-- The action is no call of the scope. -/
def RedisAction.Elsewhere (scope : RedisScope) : RedisAction → Prop
  | .call other _ =>
      ¬ (scope.tenantId = other.tenantId ∧ scope.source = other.source)
  | .elapse _ => True

/-- What the others do, in any order and number, leaves a scope alone. -/
theorem redisRuns_sameScope {shared : RedisAimdState} {scope : RedisScope}
    {start finish : WindowState} {actions : List RedisAction}
    (execution : Runs shared.redisStep
      (fun _ action => action.Elsewhere scope) start actions finish) :
    SameScope shared scope start.redis finish.redis := by
  induction execution with
  | nil state => exact ⟨rfl, rfl⟩
  | @cons start middle finish action actions elsewhere stepped _ induction =>
      have first : SameScope shared scope start.redis middle.redis := by
        cases action with
        | call other call =>
            obtain ⟨redis, answered, rfl⟩ := Option.map_eq_some_iff.mp stepped
            exact redisCall_sameScope answered elsewhere
        | elapse millis =>
            cases stepped
            exact ⟨rfl, rfl⟩
      obtain ⟨window, slots⟩ := first
      obtain ⟨laterWindow, laterSlots⟩ := induction
      exact ⟨laterWindow.trans window, laterSlots.trans slots⟩

end FleetPrivacy
