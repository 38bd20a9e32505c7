import FleetPrivacy.Library.Transition
import Mathlib.Data.List.Sort
import Mathlib.Data.Rat.Floor

/-!
# Adaptive concurrency

`adaptive_concurrency.py`: the AIMD controller of one connector, and the window
and the slots that all workers share in Redis.  The two Lua scripts are atomic,
the doubles of the scripts and of the controller are exact rationals here, and
Redis and the workers read one clock in milliseconds.
-/

namespace FleetPrivacy

/-! ## The local controller -/

/-- `percentile`. -/
def percentile {α : Type} [LinearOrder α] [Zero α] (values : List α)
    (fraction : Rat) : α :=
  let ordered := values.insertionSort (· ≤ ·)
  let index := min (⌈(ordered.length : Rat) * fraction⌉ - 1)
    ((ordered.length : Int) - 1)
  ordered.getD index.toNat 0

structure AimdConcurrencyController where
  limit : Int
  minimum : Int
  maximum : Int
  targetP95Seconds : Rat
  additiveStep : Int
  decreaseRatio : Rat
  latencies : List Rat
  failures : Nat
  deriving DecidableEq, Repr

/-- The result of `adjust`. -/
structure AimdDecision where
  previousLimit : Int
  nextLimit : Int
  samples : Nat
  p95Seconds : Rat
  failureRate : Rat
  deriving DecidableEq, Repr

namespace AimdConcurrencyController

def observe (controller : AimdConcurrencyController) (latencySeconds : Rat)
    (succeeded : Bool) : AimdConcurrencyController :=
  { controller with
    latencies := controller.latencies ++ [latencySeconds]
    failures := controller.failures + (if succeeded then 0 else 1) }

def adjust (controller : AimdConcurrencyController) :
    AimdConcurrencyController × AimdDecision :=
  let samples := controller.latencies.length
  let p95 := percentile controller.latencies (95 / 100)
  let failureRate : Rat :=
    if samples = 0 then 0 else (controller.failures : Rat) / samples
  let limit :=
    if samples ≠ 0 ∧
        (0 < failureRate ∨ controller.targetP95Seconds < p95) then
      max controller.minimum
        ⌊(controller.limit : Rat) * controller.decreaseRatio⌋
    else if samples ≠ 0 then
      min controller.maximum (controller.limit + controller.additiveStep)
    else controller.limit
  ({ controller with limit, latencies := [], failures := 0 },
    { previousLimit := controller.limit, nextLimit := limit, samples
      p95Seconds := p95, failureRate })

end AimdConcurrencyController

/-! ## Redis -/

inductive RedisValue where
  | number (value : Int)
  /-- Members with their scores; a member occurs once. -/
  | sortedSet (members : List (String × Int))
  deriving DecidableEq, Repr

structure RedisEntry where
  value : RedisValue
  /-- Set by `EX` and `EXPIRE`. -/
  expiresAt : Int
  deriving DecidableEq, Repr

structure Redis where
  entries : String → Option RedisEntry

namespace Redis

def empty : Redis :=
  { entries := fun _ => none }

/-- Keys whose time to live is over are gone. -/
def read (redis : Redis) (now : Int) (key : String) : Option RedisValue :=
  match redis.entries key with
  | some entry => if now < entry.expiresAt then some entry.value else none
  | none => none

def write (redis : Redis) (key : String) (entry : Option RedisEntry) : Redis :=
  { entries := fun other => if other = key then entry else redis.entries other }

/-- `GET`; `none` when the key holds another kind of value (`WRONGTYPE`). -/
def get (redis : Redis) (now : Int) (key : String) : Option (Option Int) :=
  match redis.read now key with
  | some (.number value) => some (some value)
  | some (.sortedSet _) => none
  | none => some none

/-- The members of a sorted set; a missing key is the empty set. -/
def members (redis : Redis) (now : Int) (key : String) :
    Option (List (String × Int)) :=
  match redis.read now key with
  | some (.sortedSet members) => some members
  | some (.number _) => none
  | none => some []

/-- A sorted set is stored as long as it has members; writing keeps its time to
live. -/
def keepMembers (redis : Redis) (key : String)
    (members : List (String × Int)) : Redis :=
  redis.write key (match members, redis.entries key with
    | [], _ | _, none => none
    | members, some entry =>
        some { value := .sortedSet members, expiresAt := entry.expiresAt })

end Redis

/-- `ZREMRANGEBYSCORE key -inf now`. -/
def removeExpired (now : Int) (members : List (String × Int)) :
    List (String × Int) :=
  members.filter fun member => decide (now < member.2)

/-- `ZADD key score holder`. -/
def addMember (holder : String) (score : Int)
    (members : List (String × Int)) : List (String × Int) :=
  (members.filter fun member => decide (member.1 ≠ holder)) ++ [(holder, score)]

/-- The arguments of `REDIS_AIMD_LUA` after the key. -/
structure AimdArguments where
  defaultLimit : Int
  p95Seconds : Rat
  failureRate : Rat
  targetP95Seconds : Rat
  minimum : Int
  maximum : Int
  additiveStep : Int
  decreaseRatio : Rat
  deriving DecidableEq, Repr

def AimdArguments.nextLimit (arguments : AimdArguments) (current : Int) : Int :=
  if 0 < arguments.failureRate ∨
      arguments.targetP95Seconds < arguments.p95Seconds then
    max arguments.minimum ⌊(current : Rat) * arguments.decreaseRatio⌋
  else min arguments.maximum (current + arguments.additiveStep)

/-- `REDIS_AIMD_LUA`: the window before and after; `none` when the script
raises, which `SET … EX 0` does. -/
def redisAimd (redis : Redis) (now : Int) (key : String)
    (arguments : AimdArguments) (ttlSeconds : Nat) :
    Option (Redis × Int × Int) := do
  let stored ← redis.get now key
  let current := stored.getD arguments.defaultLimit
  let next := arguments.nextLimit current
  if ttlSeconds = 0 then none
  else
    some (redis.write key (some {
        value := .number next, expiresAt := now + ttlSeconds * 1000 }),
      current, next)

/-- `REDIS_ADMISSION_LUA`: whether the holder got a slot, and the window. -/
def redisAdmission (redis : Redis) (windowKey inflightKey : String)
    (now expires : Int) (holder : String) (defaultLimit : Int)
    (ttlSeconds : Nat) : Option (Redis × Bool × Int) := do
  let stored ← redis.get now windowKey
  let limit := stored.getD defaultLimit
  let members ← redis.members now inflightKey
  let active := removeExpired now members
  if limit ≤ (active.length : Int) then
    some (redis.keepMembers inflightKey active, false, limit)
  else
    some (redis.write inflightKey (some {
        value := .sortedSet (addMember holder expires active)
        expiresAt := now + ttlSeconds * 1000 }),
      true, limit)

/-! ## The shared state -/

/-- `prefix.rstrip(":")`. -/
def stripColons (text : String) : String :=
  String.ofList ((text.toList.reverse.dropWhile fun letter =>
    decide (letter = ':')).reverse)

structure RedisAimdState where
  keyPrefix : String
  ttlSeconds : Nat
  deriving DecidableEq, Repr

namespace RedisAimdState

/-- `__init__`. -/
def create (text : String) (ttlSeconds : Nat) : RedisAimdState :=
  { keyPrefix := stripColons text, ttlSeconds }

def key (shared : RedisAimdState) (tenantId source : String) : String :=
  shared.keyPrefix ++ ":" ++ tenantId ++ ":" ++ source

def inflightKey (shared : RedisAimdState) (tenantId source : String) : String :=
  shared.key tenantId source ++ ":inflight"

def getLimit (shared : RedisAimdState) (redis : Redis) (now : Int)
    (tenantId source : String) (defaultLimit : Int) : Option Int :=
  (redis.get now (shared.key tenantId source)).map fun stored =>
    stored.getD defaultLimit

def adjust (shared : RedisAimdState) (redis : Redis) (now : Int)
    (tenantId source : String) (arguments : AimdArguments) :
    Option (Redis × Int × Int) :=
  redisAimd redis now (shared.key tenantId source) arguments shared.ttlSeconds

/-- `int(lease_seconds * 1000)`. -/
def leaseMillis (leaseSeconds : Rat) : Int :=
  if 0 ≤ leaseSeconds then ⌊leaseSeconds * 1000⌋ else ⌈leaseSeconds * 1000⌉

def acquire (shared : RedisAimdState) (redis : Redis) (now : Int)
    (tenantId source holder : String) (defaultLimit : Int)
    (leaseSeconds : Rat) : Option (Redis × Bool × Int) :=
  redisAdmission redis (shared.key tenantId source)
    (shared.inflightKey tenantId source) now (now + leaseMillis leaseSeconds)
    holder defaultLimit shared.ttlSeconds

/-- `ZREM`. -/
def release (shared : RedisAimdState) (redis : Redis) (now : Int)
    (tenantId source holder : String) : Option Redis := do
  let key := shared.inflightKey tenantId source
  let members ← redis.members now key
  some (redis.keepMembers key
    (members.filter fun member => decide (member.1 ≠ holder)))

end RedisAimdState

theorem RedisAimdState.adjust_eq {shared : RedisAimdState} {redis : Redis}
    {now : Int} {tenantId source : String} {stored : Option Int}
    (read : redis.get now (shared.key tenantId source) = some stored)
    (accepted : 0 < shared.ttlSeconds) (arguments : AimdArguments) :
    shared.adjust redis now tenantId source arguments =
      some (redis.write (shared.key tenantId source) (some {
          value := .number
            (arguments.nextLimit (stored.getD arguments.defaultLimit))
          expiresAt := now + shared.ttlSeconds * 1000 }),
        stored.getD arguments.defaultLimit,
        arguments.nextLimit (stored.getD arguments.defaultLimit)) := by
  unfold RedisAimdState.adjust redisAimd
  rw [read, Option.bind_eq_bind, Option.bind_some,
    if_neg (Nat.pos_iff_ne_zero.mp accepted)]

/-! ## Slots -/

namespace Redis

/-- A set of slots holds a member, and is not dropped before `dropsAt`. -/
def Holds (redis : Redis) (key : String) (member : String × Int)
    (dropsAt : Int) : Prop :=
  ∃ members expiresAt,
    redis.entries key = some ⟨.sortedSet members, expiresAt⟩ ∧
      member ∈ members ∧ dropsAt ≤ expiresAt

/-- A member occurs in a sorted set once. -/
def SetsDistinct (redis : Redis) : Prop :=
  ∀ key members expiresAt,
    redis.entries key = some ⟨.sortedSet members, expiresAt⟩ →
    (members.map Prod.fst).Nodup

variable {redis : Redis} {key other : String} {member : String × Int}
  {dropsAt now : Int}

@[simp] theorem entries_write_self (redis : Redis) (key : String)
    (entry : Option RedisEntry) : (redis.write key entry).entries key = entry :=
  if_pos rfl

theorem entries_write_of_ne (different : other ≠ key)
    (entry : Option RedisEntry) :
    (redis.write key entry).entries other = redis.entries other :=
  if_neg different

theorem read_write_of_ne (different : other ≠ key)
    (entry : Option RedisEntry) :
    (redis.write key entry).read now other = redis.read now other := by
  unfold Redis.read
  rw [entries_write_of_ne different]

/-- A key that can be read later could be read before. -/
theorem read_earlier {later : Int} {value : RedisValue} (order : now ≤ later)
    (found : redis.read later key = some value) :
    redis.read now key = some value := by
  unfold Redis.read at found ⊢
  cases stored : redis.entries key with
  | none =>
      rw [stored] at found
      cases found
  | some entry =>
      rw [stored] at found
      dsimp only at found ⊢
      split at found
      next unexpired =>
        rw [if_pos (lt_of_le_of_lt order unexpired)]
        exact found
      next => cases found

/-- What is read of a key that was written. -/
theorem read_write_self {entry : RedisEntry} {value : RedisValue}
    (found : (redis.write key (some entry)).read now key = some value) :
    value = entry.value := by
  unfold Redis.read at found
  rw [entries_write_self] at found
  dsimp only at found
  split at found
  next =>
    cases found
    rfl
  next => cases found

/-- A set that is kept has the new members. -/
theorem value_of_keepMembers {members : List (String × Int)}
    {entry : RedisEntry}
    (found : (redis.keepMembers key members).entries key = some entry) :
    entry.value = .sortedSet members := by
  unfold Redis.keepMembers at found
  rw [entries_write_self] at found
  split at found
  next => cases found
  next => cases found
  next =>
    cases found
    rfl

theorem Holds.mem_members (holds : redis.Holds key member dropsAt)
    (live : now < dropsAt) {members : List (String × Int)}
    (current : redis.members now key = some members) : member ∈ members := by
  obtain ⟨stored, expiresAt, entry, inside, later⟩ := holds
  have unexpired : now < expiresAt := lt_of_lt_of_le live later
  simp only [Redis.members, Redis.read, entry, if_pos unexpired] at current
  cases current
  exact inside

theorem Holds.write_of_ne (holds : redis.Holds key member dropsAt)
    (different : key ≠ other) (entry : Option RedisEntry) :
    (redis.write other entry).Holds key member dropsAt := by
  obtain ⟨stored, expiresAt, found, inside, later⟩ := holds
  exact ⟨stored, expiresAt, (if_neg different).trans found, inside, later⟩

/-- Removing other members keeps a slot. -/
theorem Holds.keepMembers (holds : redis.Holds key member dropsAt)
    {members : List (String × Int)}
    (kept : key = other → member ∈ members) :
    (redis.keepMembers other members).Holds key member dropsAt := by
  by_cases same : key = other
  · obtain ⟨stored, expiresAt, found, _, later⟩ := holds
    have inside := kept same
    refine ⟨members, expiresAt, ?_, inside, later⟩
    cases members with
    | nil => cases inside
    | cons first rest => simp [Redis.keepMembers, Redis.write, ← same, found]
  · exact holds.write_of_ne same _

theorem SetsDistinct.members (distinct : redis.SetsDistinct)
    {members : List (String × Int)}
    (current : redis.members now key = some members) :
    (members.map Prod.fst).Nodup := by
  unfold Redis.members Redis.read at current
  split at current
  next stored isSet =>
    cases current
    split at isSet
    next entry found =>
      split at isSet
      next =>
        apply distinct key members entry.expiresAt
        rw [found]
        cases entry
        cases isSet
        rfl
      next => cases isSet
    next => cases isSet
  next => cases current
  next =>
    cases current
    exact List.nodup_nil

theorem SetsDistinct.write (distinct : redis.SetsDistinct)
    {entry : Option RedisEntry}
    (nodup : ∀ members expiresAt,
      entry = some ⟨.sortedSet members, expiresAt⟩ →
      (members.map Prod.fst).Nodup) :
    (redis.write key entry).SetsDistinct := by
  intro otherKey members expiresAt found
  simp only [Redis.write] at found
  split at found
  next => exact nodup members expiresAt found
  next => exact distinct otherKey members expiresAt found

theorem SetsDistinct.keepMembers (distinct : redis.SetsDistinct)
    {members : List (String × Int)} (nodup : (members.map Prod.fst).Nodup) :
    (redis.keepMembers key members).SetsDistinct := by
  apply distinct.write
  intro stored expiresAt found
  split at found
  next => cases found
  next => cases found
  next =>
    cases found
    exact nodup

end Redis

theorem nodup_addMember {members : List (String × Int)}
    (nodup : (members.map Prod.fst).Nodup) (holder : String) (score : Int) :
    ((addMember holder score members).map Prod.fst).Nodup := by
  unfold addMember
  rw [List.map_append, List.nodup_append]
  refine ⟨nodup.sublist (List.filter_sublist.map _), List.nodup_singleton _, ?_⟩
  intro first inOld second inNew same
  obtain ⟨member, filtered, rfl⟩ := List.mem_map.mp inOld
  have different := (List.mem_filter.mp filtered).2
  rw [List.mem_singleton.mp inNew] at same
  simp [same] at different

/-- What the admission script answers and leaves behind. -/
theorem redisAdmission_cases {redis next : Redis}
    {windowKey inflightKey holder : String} {now expires limit : Int}
    {defaultLimit : Int} {ttlSeconds : Nat} {admitted : Bool}
    (answer : redisAdmission redis windowKey inflightKey now expires holder
      defaultLimit ttlSeconds = some (next, admitted, limit)) :
    ∃ members, redis.members now inflightKey = some members ∧
      (admitted = false ∧
          next = redis.keepMembers inflightKey (removeExpired now members) ∨
        admitted = true ∧
          ((removeExpired now members).length : Int) < limit ∧
          next = redis.write inflightKey (some {
            value := .sortedSet
              (addMember holder expires (removeExpired now members))
            expiresAt := now + ttlSeconds * 1000 })) := by
  simp only [redisAdmission, Option.bind_eq_bind,
    Option.bind_eq_some_iff] at answer
  obtain ⟨stored, _, members, current, answer⟩ := answer
  refine ⟨members, current, ?_⟩
  split at answer
  next =>
    cases answer
    exact .inl ⟨rfl, rfl⟩
  next within =>
    cases answer
    exact .inr ⟨rfl, not_le.mp within, rfl⟩

end FleetPrivacy
