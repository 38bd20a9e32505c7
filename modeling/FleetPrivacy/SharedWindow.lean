import FleetPrivacy.AdaptiveConcurrency
import Mathlib.Data.List.Dedup
import Mathlib.Data.List.Induction

/-!
# The shared window of one tenant and source

Clients with common AIMD parameters move one window and take slots under it.
The members of the sorted set that have not lapsed are the holders whose last
admission has neither been released nor ended, so the admission script counts
the live holders exactly.
-/

namespace FleetPrivacy

open Transition

/-- The scope of a window and the parameters that its clients pass. -/
structure SharedWindow where
  shared : RedisAimdState
  tenantId : String
  source : String
  minimum : Int
  maximum : Int
  additiveStep : Int
  decreaseRatio : Rat
  positive : 1 ≤ minimum
  ordered : minimum ≤ maximum
  additive : 0 ≤ additiveStep
  ratio : 0 ≤ decreaseRatio ∧ decreaseRatio ≤ 1

structure WindowState where
  redis : Redis
  clock : Int

inductive WindowAction where
  | adjust (defaultLimit : Int) (p95Seconds failureRate targetP95Seconds : Rat)
  | acquire (holder : String) (defaultLimit : Int) (leaseSeconds : Rat)
  | release (holder : String)
  /-- Time passes; keys may expire. -/
  | elapse (millis : Nat)

/-- What happens to the slots. -/
inductive SlotEvent where
  | admitted (holder : String) (leaseEnds : Int)
  | released (holder : String)
  deriving DecidableEq

namespace SharedWindow

variable (window : SharedWindow)

def key : String :=
  window.shared.key window.tenantId window.source

def inflightKey : String :=
  window.shared.inflightKey window.tenantId window.source

def arguments (defaultLimit : Int)
    (p95Seconds failureRate targetP95Seconds : Rat) : AimdArguments :=
  { defaultLimit, p95Seconds, failureRate, targetP95Seconds
    minimum := window.minimum
    maximum := window.maximum
    additiveStep := window.additiveStep
    decreaseRatio := window.decreaseRatio }

/-- The answer to `acquire`. -/
def admission (state : WindowState) (holder : String) (defaultLimit : Int)
    (leaseSeconds : Rat) : Option (Redis × Bool × Int) :=
  window.shared.acquire state.redis state.clock window.tenantId window.source
    holder defaultLimit leaseSeconds

def step (state : WindowState) : WindowAction → Option WindowState
  | .adjust defaultLimit p95Seconds failureRate targetP95Seconds =>
      (window.shared.adjust state.redis state.clock window.tenantId
        window.source (window.arguments defaultLimit p95Seconds failureRate
          targetP95Seconds)).map fun result => { state with redis := result.1 }
  | .acquire holder defaultLimit leaseSeconds =>
      (window.admission state holder defaultLimit leaseSeconds).map
        fun result => { state with redis := result.1 }
  | .release holder =>
      (window.shared.release state.redis state.clock window.tenantId
        window.source holder).map fun redis => { state with redis }
  | .elapse millis => some { state with clock := state.clock + millis }

/-- Defaults lie in the window's range, and no lease outlives the keys. -/
def Allowed (_state : WindowState) : WindowAction → Prop
  | .adjust defaultLimit _ _ _ =>
      window.minimum ≤ defaultLimit ∧ defaultLimit ≤ window.maximum
  | .acquire _ defaultLimit leaseSeconds =>
      (window.minimum ≤ defaultLimit ∧ defaultLimit ≤ window.maximum) ∧
        leaseSeconds ≤ window.shared.ttlSeconds
  | .release _ | .elapse _ => True

instance (state : WindowState) (action : WindowAction) :
    Decidable (window.Allowed state action) :=
  match action with
  | .adjust defaultLimit _ _ _ =>
      inferInstanceAs (Decidable
        (window.minimum ≤ defaultLimit ∧ defaultLimit ≤ window.maximum))
  | .acquire _ defaultLimit leaseSeconds =>
      inferInstanceAs (Decidable
        ((window.minimum ≤ defaultLimit ∧ defaultLimit ≤ window.maximum) ∧
          leaseSeconds ≤ window.shared.ttlSeconds))
  | .release _ | .elapse _ => .isTrue trivial

/-- The admissions and releases of a step. -/
def slotEvents (state : WindowState) : WindowAction → List SlotEvent
  | .acquire holder defaultLimit leaseSeconds =>
      match window.admission state holder defaultLimit leaseSeconds with
      | some (_, true, _) =>
          [.admitted holder
            (state.clock + RedisAimdState.leaseMillis leaseSeconds)]
      | _ => []
  | .release holder => [.released holder]
  | .adjust _ _ _ _ | .elapse _ => []

end SharedWindow

/-! ## Live holders -/

def SlotEvent.holder : SlotEvent → String
  | .admitted holder _ => holder
  | .released holder => holder

/-- The end of the lease that an event leaves to its holder. -/
def SlotEvent.lease : SlotEvent → Option Int
  | .admitted _ leaseEnds => some leaseEnds
  | .released _ => none

/-- The end of a holder's most recently admitted lease, unless it was released
since. -/
def lastLease (past : List SlotEvent) (holder : String) : Option Int :=
  past.foldl (fun lease event =>
    if event.holder = holder then event.lease else lease) none

def isLive (past : List SlotEvent) (now : Int) (holder : String) : Bool :=
  (lastLease past holder).any fun leaseEnds => decide (now < leaseEnds)

/-- The holders that were admitted, have not been released since and whose
last lease ends after `now`. -/
def liveHolders (past : List SlotEvent) (now : Int) : List String :=
  (past.map SlotEvent.holder).dedup.filter (isLive past now)

theorem lastLease_append (past : List SlotEvent) (event : SlotEvent)
    (holder : String) :
    lastLease (past ++ [event]) holder =
      if event.holder = holder then event.lease else lastLease past holder := by
  unfold lastLease
  rw [List.foldl_append, List.foldl_cons, List.foldl_nil]

theorem isLive_iff {past : List SlotEvent} {now : Int} {holder : String} :
    isLive past now holder = true ↔
      ∃ leaseEnds, lastLease past holder = some leaseEnds ∧
        now < leaseEnds := by
  simp [isLive, Option.any_eq_true]

/-- A holder without events has no lease. -/
theorem holder_mem_of_lastLease {past : List SlotEvent} {holder : String}
    {leaseEnds : Int} (leased : lastLease past holder = some leaseEnds) :
    holder ∈ past.map SlotEvent.holder := by
  induction past using List.reverseRecOn with
  | nil => cases leased
  | append_singleton past event induction =>
      rw [lastLease_append] at leased
      rw [List.map_append, List.mem_append]
      split at leased
      next same => exact .inr (List.mem_singleton.mpr same.symm)
      next => exact .inl (induction leased)

theorem mem_liveHolders {past : List SlotEvent} {now : Int} {holder : String} :
    holder ∈ liveHolders past now ↔
      ∃ leaseEnds, lastLease past holder = some leaseEnds ∧
        now < leaseEnds := by
  unfold liveHolders
  rw [List.mem_filter, isLive_iff, List.mem_dedup]
  constructor
  · intro ⟨_, live⟩
    exact live
  · intro ⟨leaseEnds, leased, later⟩
    exact ⟨holder_mem_of_lastLease leased, leaseEnds, leased, later⟩

theorem nodup_liveHolders (past : List SlotEvent) (now : Int) :
    (liveHolders past now).Nodup :=
  (List.nodup_dedup _).filter _

/-- An admission adds at most one live holder. -/
theorem length_liveHolders_admitted (past : List SlotEvent) (now : Int)
    (holder : String) (leaseEnds : Int) :
    (liveHolders (past ++ [.admitted holder leaseEnds]) now).length ≤
      (liveHolders past now).length + 1 := by
  have inside : liveHolders (past ++ [.admitted holder leaseEnds]) now ⊆
      holder :: liveHolders past now := by
    intro other live
    obtain ⟨ends, leased, later⟩ := mem_liveHolders.mp live
    rw [lastLease_append] at leased
    split at leased
    next same =>
      rw [← same]
      exact List.mem_cons_self
    next =>
      apply List.mem_cons_of_mem
      exact mem_liveHolders.mpr ⟨ends, leased, later⟩
  have counted := (List.subperm_of_subset (nodup_liveHolders _ now)
    inside).length_le
  rwa [List.length_cons] at counted

/-! ## The invariant -/

namespace SharedWindow

variable {window : SharedWindow}

def InRange (window : SharedWindow) (limit : Int) : Prop :=
  window.minimum ≤ limit ∧ limit ≤ window.maximum

theorem key_ne_inflightKey (window : SharedWindow) :
    window.key ≠ window.inflightKey := by
  intro same
  have lengths := congrArg String.length same
  simp only [key, inflightKey, RedisAimdState.inflightKey,
    String.length_append] at lengths
  have suffix : ":inflight".length = 9 := rfl
  omega

/-- The AIMD step keeps a limit in range. -/
theorem nextLimit_inRange {current : Int} (inRange : window.InRange current)
    (defaultLimit : Int) (p95Seconds failureRate targetP95Seconds : Rat) :
    window.InRange ((window.arguments defaultLimit p95Seconds failureRate
      targetP95Seconds).nextLimit current) := by
  obtain ⟨above, below⟩ := inRange
  have positive := window.positive
  have ordered := window.ordered
  have additive := window.additive
  obtain ⟨_, small⟩ := window.ratio
  unfold AimdArguments.nextLimit
  split
  next =>
    have nonnegative : (0 : Rat) ≤ current := by
      exact_mod_cast (by omega : (0 : Int) ≤ current)
    have shrunk : (current : Rat) * window.decreaseRatio ≤ current :=
      mul_le_of_le_one_right nonnegative small
    have floored : ⌊(current : Rat) * window.decreaseRatio⌋ ≤ current := by
      have := Int.floor_le_floor shrunk
      rwa [Int.floor_intCast] at this
    simp only [InRange, arguments]
    omega
  next =>
    simp only [InRange, arguments]
    omega

/-- The keys of the scope agree with the events so far. -/
structure Agrees (window : SharedWindow) (past : List SlotEvent)
    (state : WindowState) : Prop where
  stored : ∀ entry, state.redis.entries window.key = some entry →
    ∃ limit, entry.value = .number limit ∧ window.InRange limit
  slots : ∀ entry, state.redis.entries window.inflightKey = some entry →
    ∃ members, entry.value = .sortedSet members ∧
      (members.map Prod.fst).Nodup ∧
      ∀ member ∈ members, lastLease past member.1 = some member.2
  held : ∀ holder leaseEnds, lastLease past holder = some leaseEnds →
    state.clock < leaseEnds →
    state.redis.Holds window.inflightKey (holder, leaseEnds) leaseEnds
  bounded : ∀ holder leaseEnds, lastLease past holder = some leaseEnds →
    leaseEnds ≤ state.clock + window.shared.ttlSeconds * 1000

namespace Agrees

variable {past : List SlotEvent} {state : WindowState}

/-- `GET` finds no window, or one in range. -/
theorem get (agrees : window.Agrees past state) :
    ∃ stored, state.redis.get state.clock window.key = some stored ∧
      ∀ limit ∈ stored, window.InRange limit := by
  unfold Redis.get Redis.read
  cases found : state.redis.entries window.key with
  | none => exact ⟨none, rfl, by simp⟩
  | some entry =>
      obtain ⟨limit, isNumber, inRange⟩ := agrees.stored entry found
      simp only [isNumber]
      split
      next value present =>
        split at present
        next =>
          cases present
          exact ⟨some limit, rfl, by simpa using inRange⟩
        next => cases present
      next members present =>
        split at present
        next => cases present
        next => cases present
      next => exact ⟨none, rfl, by simp⟩

/-- The slots of the scope can be read. -/
theorem members (agrees : window.Agrees past state) :
    ∃ members, state.redis.members state.clock window.inflightKey =
      some members := by
  unfold Redis.members Redis.read
  cases found : state.redis.entries window.inflightKey with
  | none => exact ⟨[], rfl⟩
  | some entry =>
      obtain ⟨members, isSet, _⟩ := agrees.slots entry found
      simp only [isSet]
      split
      next members _ => exact ⟨members, rfl⟩
      next value present =>
        split at present
        next => cases present
        next => cases present
      next => exact ⟨[], rfl⟩

/-- Every slot that is read has the last lease of its holder. -/
theorem of_members (agrees : window.Agrees past state)
    {members : List (String × Int)}
    (current : state.redis.members state.clock window.inflightKey =
      some members) :
    (members.map Prod.fst).Nodup ∧
      ∀ member ∈ members, lastLease past member.1 = some member.2 := by
  unfold Redis.members Redis.read at current
  cases found : state.redis.entries window.inflightKey with
  | none =>
      simp only [found] at current
      cases current
      exact ⟨List.nodup_nil, by simp⟩
  | some entry =>
      obtain ⟨stored, isSet, nodup, leases⟩ := agrees.slots entry found
      simp only [found, isSet] at current
      by_cases unexpired : state.clock < entry.expiresAt
      · simp only [if_pos unexpired] at current
        cases current
        exact ⟨nodup, leases⟩
      · simp only [if_neg unexpired] at current
        cases current
        exact ⟨List.nodup_nil, by simp⟩

/-- The members that the script counts are the live holders. -/
theorem active_perm (agrees : window.Agrees past state)
    {members : List (String × Int)}
    (current : state.redis.members state.clock window.inflightKey =
      some members) :
    ((removeExpired state.clock members).map Prod.fst).Perm
      (liveHolders past state.clock) := by
  obtain ⟨nodup, leases⟩ := agrees.of_members current
  have distinct : ((removeExpired state.clock members).map Prod.fst).Nodup :=
    nodup.sublist (List.filter_sublist.map Prod.fst)
  rw [List.perm_ext_iff_of_nodup distinct (nodup_liveHolders past _)]
  intro holder
  rw [mem_liveHolders]
  constructor
  · intro inside
    obtain ⟨member, active, rfl⟩ := List.mem_map.mp inside
    obtain ⟨inMembers, later⟩ := List.mem_filter.mp active
    exact ⟨member.2, leases member inMembers, of_decide_eq_true later⟩
  · intro ⟨leaseEnds, leased, later⟩
    have inMembers := (agrees.held holder leaseEnds leased later).mem_members
      later current
    apply List.mem_map.mpr
    exact ⟨(holder, leaseEnds),
      List.mem_filter.mpr ⟨inMembers, decide_eq_true later⟩, rfl⟩

theorem length_active (agrees : window.Agrees past state)
    {members : List (String × Int)}
    (current : state.redis.members state.clock window.inflightKey =
      some members) :
    (removeExpired state.clock members).length =
      (liveHolders past state.clock).length := by
  have counted := (agrees.active_perm current).length_eq
  rwa [List.length_map] at counted

/-- Some slots are removed: those that lapsed, or those of a released
holder. -/
theorem keepMembers (agrees : window.Agrees past state)
    {members kept : List (String × Int)} {next : List SlotEvent}
    (current : state.redis.members state.clock window.inflightKey =
      some members)
    (fewer : kept.Sublist members)
    (leases : ∀ member ∈ kept, lastLease next member.1 = some member.2)
    (live : ∀ holder leaseEnds, lastLease next holder = some leaseEnds →
      lastLease past holder = some leaseEnds ∧
        (state.clock < leaseEnds → (holder, leaseEnds) ∈ members →
          (holder, leaseEnds) ∈ kept)) :
    window.Agrees next { state with
      redis := state.redis.keepMembers window.inflightKey kept } := by
  obtain ⟨nodup, _⟩ := agrees.of_members current
  refine ⟨?_, ?_, ?_, ?_⟩
  · intro entry found
    apply agrees.stored entry
    unfold Redis.keepMembers at found
    rwa [Redis.entries_write_of_ne window.key_ne_inflightKey] at found
  · intro entry found
    exact ⟨kept, Redis.value_of_keepMembers found,
      nodup.sublist (fewer.map Prod.fst), leases⟩
  · intro holder leaseEnds leased later
    obtain ⟨before, stays⟩ := live holder leaseEnds leased
    have holds := agrees.held holder leaseEnds before later
    apply holds.keepMembers
    intro _
    exact stays later (holds.mem_members later current)
  · intro holder leaseEnds leased
    exact agrees.bounded holder leaseEnds (live holder leaseEnds leased).1

/-- The window moves. -/
theorem adjusted (agrees : window.Agrees past state) {limit : Int}
    (inRange : window.InRange limit) (expiresAt : Int) :
    window.Agrees past { state with
      redis := state.redis.write window.key (some {
        value := .number limit, expiresAt }) } := by
  have different := window.key_ne_inflightKey
  refine ⟨?_, ?_, ?_, agrees.bounded⟩
  · intro entry found
    rw [Redis.entries_write_self] at found
    cases found
    exact ⟨limit, rfl, inRange⟩
  · intro entry found
    rw [Redis.entries_write_of_ne different.symm] at found
    exact agrees.slots entry found
  · intro holder leaseEnds leased later
    exact (agrees.held holder leaseEnds leased later).write_of_ne
      different.symm _

/-- A holder gets a slot: a new one, or a new lease for the one it has. -/
theorem admitted (agrees : window.Agrees past state)
    {members : List (String × Int)}
    (current : state.redis.members state.clock window.inflightKey =
      some members)
    (holder : String) {leaseEnds : Int}
    (within : leaseEnds ≤ state.clock + window.shared.ttlSeconds * 1000) :
    window.Agrees (past ++ [.admitted holder leaseEnds]) { state with
      redis := state.redis.write window.inflightKey (some {
        value := .sortedSet (addMember holder leaseEnds
          (removeExpired state.clock members))
        expiresAt := state.clock + window.shared.ttlSeconds * 1000 }) } := by
  obtain ⟨nodup, leases⟩ := agrees.of_members current
  refine ⟨?_, ?_, ?_, ?_⟩
  · intro entry found
    rw [Redis.entries_write_of_ne window.key_ne_inflightKey] at found
    exact agrees.stored entry found
  · intro entry found
    rw [Redis.entries_write_self] at found
    cases found
    refine ⟨_, rfl, ?_, ?_⟩
    · apply nodup_addMember
      exact nodup.sublist (List.filter_sublist.map Prod.fst)
    · intro member inside
      rw [lastLease_append]
      rcases List.mem_append.mp inside with old | new
      · obtain ⟨active, other⟩ := List.mem_filter.mp old
        refine (if_neg (Ne.symm (of_decide_eq_true other))).trans ?_
        exact leases member (List.mem_filter.mp active).1
      · rw [List.mem_singleton.mp new]
        exact if_pos rfl
  · intro other ends leased later
    rw [lastLease_append] at leased
    refine ⟨_, _, Redis.entries_write_self _ _ _, ?_, ?_⟩
    · split at leased
      next mine =>
        cases mine
        cases leased
        exact List.mem_append_right _ (List.mem_singleton_self _)
      next different =>
        have inMembers := (agrees.held other ends leased later).mem_members
          later current
        apply List.mem_append_left
        refine List.mem_filter.mpr ⟨?_, decide_eq_true (Ne.symm different)⟩
        exact List.mem_filter.mpr ⟨inMembers, decide_eq_true later⟩
    · split at leased
      next =>
        cases leased
        exact within
      next => exact agrees.bounded other ends leased
  · intro other ends leased
    rw [lastLease_append] at leased
    split at leased
    next =>
      cases leased
      exact within
    next => exact agrees.bounded other ends leased

/-- What `acquire` answers: the window or the default, and a slot if and only
if the live holders leave one. -/
theorem admission (agrees : window.Agrees past state) (holder : String)
    (defaultLimit : Int) (leaseSeconds : Rat) :
    ∃ stored members,
      state.redis.get state.clock window.key = some stored ∧
      state.redis.members state.clock window.inflightKey = some members ∧
      window.admission state holder defaultLimit leaseSeconds =
        if stored.getD defaultLimit ≤
            ((liveHolders past state.clock).length : Int) then
          some (state.redis.keepMembers window.inflightKey
            (removeExpired state.clock members), false,
              stored.getD defaultLimit)
        else
          some (state.redis.write window.inflightKey (some {
              value := .sortedSet (addMember holder
                (state.clock + RedisAimdState.leaseMillis leaseSeconds)
                (removeExpired state.clock members))
              expiresAt :=
                state.clock + window.shared.ttlSeconds * 1000 }), true,
            stored.getD defaultLimit) := by
  obtain ⟨stored, isStored, _⟩ := agrees.get
  obtain ⟨members, current⟩ := agrees.members
  refine ⟨stored, members, isStored, current, ?_⟩
  rw [← agrees.length_active current]
  unfold SharedWindow.admission RedisAimdState.acquire redisAdmission
  unfold SharedWindow.key at isStored
  unfold SharedWindow.inflightKey at current
  rw [isStored, Option.bind_eq_bind, Option.bind_some, current,
    Option.bind_eq_bind, Option.bind_some]
  rfl

end Agrees

theorem leaseMillis_le {leaseSeconds : Rat} {ttlSeconds : Nat}
    (within : leaseSeconds ≤ ttlSeconds) :
    RedisAimdState.leaseMillis leaseSeconds ≤ ttlSeconds * 1000 := by
  unfold RedisAimdState.leaseMillis
  split
  next =>
    have scaled : leaseSeconds * 1000 ≤ ((ttlSeconds * 1000 : Int) : Rat) := by
      push_cast
      linarith
    have floored := Int.floor_le_floor scaled
    rwa [Int.floor_intCast] at floored
  next negative =>
    have scaled : leaseSeconds * 1000 ≤ ((0 : Int) : Rat) := by
      push_cast
      linarith
    have ceiling := Int.ceil_le.mpr scaled
    omega

/-- One step of any client, and the events it shows. -/
theorem Agrees.step {past : List SlotEvent} {state next : WindowState}
    {action : WindowAction} (agrees : window.Agrees past state)
    (allowed : window.Allowed state action)
    (stepped : window.step state action = some next) :
    window.Agrees (past ++ window.slotEvents state action) next := by
  cases action with
  | adjust defaultLimit p95Seconds failureRate targetP95Seconds =>
      rw [slotEvents, List.append_nil]
      obtain ⟨stored, isStored, inRange⟩ := agrees.get
      obtain ⟨⟨redis, before, limit⟩, script, rfl⟩ :=
        Option.map_eq_some_iff.mp stepped
      unfold RedisAimdState.adjust redisAimd at script
      unfold SharedWindow.key at isStored
      rw [isStored, Option.bind_eq_bind, Option.bind_some] at script
      split at script
      next => cases script
      next =>
        cases script
        apply agrees.adjusted
        apply nextLimit_inRange
        cases stored with
        | none => exact allowed
        | some current => exact inRange current rfl
  | acquire holder defaultLimit leaseSeconds =>
      obtain ⟨stored, members, _, current, answer⟩ :=
        agrees.admission holder defaultLimit leaseSeconds
      obtain ⟨⟨redis, isAdmitted, limit⟩, script, rfl⟩ :=
        Option.map_eq_some_iff.mp stepped
      simp only [slotEvents, script]
      rw [script] at answer
      obtain ⟨_, leases⟩ := agrees.of_members current
      split at answer
      next =>
        cases answer
        rw [List.append_nil]
        apply agrees.keepMembers current List.filter_sublist
        · intro member inside
          exact leases member (List.mem_filter.mp inside).1
        · intro other leaseEnds leased
          refine ⟨leased, ?_⟩
          intro later inside
          exact List.mem_filter.mpr ⟨inside, decide_eq_true later⟩
      next =>
        cases answer
        apply agrees.admitted current
        have within := leaseMillis_le allowed.2
        omega
  | release holder =>
      obtain ⟨members, current⟩ := agrees.members
      obtain ⟨_, leases⟩ := agrees.of_members current
      obtain ⟨redis, script, rfl⟩ := Option.map_eq_some_iff.mp stepped
      unfold SharedWindow.inflightKey at current
      simp only [RedisAimdState.release, current, Option.bind_eq_bind,
        Option.bind_some] at script
      cases script
      apply agrees.keepMembers current List.filter_sublist
      · intro member inside
        obtain ⟨inMembers, other⟩ := List.mem_filter.mp inside
        rw [slotEvents, lastLease_append]
        refine (if_neg (Ne.symm (of_decide_eq_true other))).trans ?_
        exact leases member inMembers
      · intro other leaseEnds leased
        rw [slotEvents, lastLease_append] at leased
        split at leased
        next => cases leased
        next different =>
          refine ⟨leased, ?_⟩
          intro _ inside
          exact List.mem_filter.mpr
            ⟨inside, decide_eq_true (Ne.symm different)⟩
  | elapse millis =>
      cases stepped
      rw [slotEvents, List.append_nil]
      refine ⟨agrees.stored, agrees.slots, ?_, ?_⟩
      · intro holder leaseEnds leased later
        apply agrees.held holder leaseEnds leased
        have before : state.clock + millis < leaseEnds := later
        omega
      · intro holder leaseEnds leased
        have bound := agrees.bounded holder leaseEnds leased
        show leaseEnds ≤ state.clock + millis +
          window.shared.ttlSeconds * 1000
        omega

/-- No client has used the scope. -/
def Unused (window : SharedWindow) (state : WindowState) : Prop :=
  state.redis.entries window.key = none ∧
    state.redis.entries window.inflightKey = none

theorem Unused.agrees {state : WindowState} (unused : window.Unused state) :
    window.Agrees [] state := by
  obtain ⟨noWindow, noSlots⟩ := unused
  refine ⟨?_, ?_, ?_, ?_⟩
  · intro entry found
    rw [noWindow] at found
    cases found
  · intro entry found
    rw [noSlots] at found
    cases found
  · intro holder leaseEnds leased
    cases leased
  · intro holder leaseEnds leased
    cases leased

/-- Every run keeps the scope in agreement with its events. -/
theorem Unused.agrees_run {start state : WindowState}
    {actions : List WindowAction} (unused : window.Unused start)
    (execution : Runs window.step window.Allowed start actions state) :
    window.Agrees (history window.step window.slotEvents start actions)
      state := by
  exact execution.invariant_with_history
    (fun agrees allowed stepped => Agrees.step agrees allowed stepped)
    unused.agrees

end SharedWindow

/-- After any run of the clients the window lies in its range, and `acquire`
admits if and only if the live holders are fewer than the window, or the
default without one; an admission leaves at most as many of them as the
window, and where none is live there is always one. -/
theorem shared_window_admits_exactly (window : SharedWindow)
    {start state : WindowState} {actions : List WindowAction}
    (unused : window.Unused start)
    (execution : Runs window.step window.Allowed start actions state) :
    ∃ stored, state.redis.get state.clock window.key = some stored ∧
      (∀ limit ∈ stored, window.minimum ≤ limit ∧ limit ≤ window.maximum) ∧
      ∀ holder defaultLimit leaseSeconds,
        window.Allowed state (.acquire holder defaultLimit leaseSeconds) →
        ∃ redis admitted,
          window.admission state holder defaultLimit leaseSeconds =
            some (redis, admitted, stored.getD defaultLimit) ∧
          (admitted = true ↔
            ((liveHolders (history window.step window.slotEvents start actions)
              state.clock).length : Int) < stored.getD defaultLimit) ∧
          (admitted = true →
            ((liveHolders (history window.step window.slotEvents start actions
              ++ window.slotEvents state
                (.acquire holder defaultLimit leaseSeconds))
              state.clock).length : Int) ≤ stored.getD defaultLimit) ∧
          (liveHolders (history window.step window.slotEvents start actions)
            state.clock = [] → admitted = true) := by
  have agrees := unused.agrees_run execution
  obtain ⟨stored, isStored, inRange⟩ := agrees.get
  refine ⟨stored, isStored, inRange, ?_⟩
  intro holder defaultLimit leaseSeconds allowed
  obtain ⟨found, members, isFound, _, answer⟩ :=
    agrees.admission holder defaultLimit leaseSeconds
  cases isFound.symm.trans isStored
  have positive : 1 ≤ stored.getD defaultLimit := by
    have least := window.positive
    cases stored with
    | none => exact le_trans least allowed.1.1
    | some limit => exact le_trans least (inRange limit rfl).1
  split at answer
  next full =>
    refine ⟨_, false, answer, ?_, ?_, ?_⟩
    · exact iff_of_false (by decide) (not_lt.mpr full)
    · intro isAdmitted
      cases isAdmitted
    · intro nobody
      rw [nobody, List.length_nil] at full
      omega
  next free =>
    refine ⟨_, true, answer, ?_, ?_, ?_⟩
    · exact iff_of_true rfl (not_le.mp free)
    · intro _
      simp only [SharedWindow.slotEvents, answer]
      have counted := length_liveHolders_admitted
        (history window.step window.slotEvents start actions) state.clock
        holder (state.clock + RedisAimdState.leaseMillis leaseSeconds)
      omega
    · intro _
      rfl

/-! Two holders fill a window of two; the lease of the one that asks again
ends later, and a slot is free from the moment the other one ends. -/

private def demoWindow : SharedWindow :=
  { shared := .create "privacy:aimd" 900, tenantId := "t", source := "jobs"
    minimum := 1, maximum := 2, additiveStep := 1, decreaseRatio := 1 / 2
    positive := by decide, ordered := by decide, additive := by decide
    ratio := by decide +kernel }

private def lapsingSlot : List WindowAction :=
  [.acquire "a" 2 35, .elapse 10000, .acquire "a" 2 35, .acquire "b" 2 10,
    .adjust 2 (1 / 2) 0 1, .elapse 10000]

theorem ended_lease_frees_its_slot :
    ∃ state redis, Runs demoWindow.step demoWindow.Allowed ⟨.empty, 0⟩
        lapsingSlot state ∧
      liveHolders (history demoWindow.step demoWindow.slotEvents ⟨.empty, 0⟩
        lapsingSlot) state.clock = ["a"] ∧
      demoWindow.admission state "c" 2 35 = some (redis, true, 2) := by
  have evaluated : (run demoWindow.step demoWindow.Allowed ⟨.empty, 0⟩
      lapsingSlot).map (fun state =>
        (liveHolders (history demoWindow.step demoWindow.slotEvents ⟨.empty, 0⟩
          lapsingSlot) state.clock,
          state.redis.get state.clock demoWindow.key)) =
      some (["a"], some (some 2)) := by
    decide +kernel
  obtain ⟨state, result, columns⟩ := Option.map_eq_some_iff.mp evaluated
  simp only [Prod.mk.injEq] at columns
  obtain ⟨live, two⟩ := columns
  have execution := runs_of_run result
  obtain ⟨stored, isStored, _, acquires⟩ :=
    shared_window_admits_exactly demoWindow ⟨rfl, rfl⟩ execution
  cases isStored.symm.trans two
  obtain ⟨redis, admitted, answer, counted, _⟩ :=
    acquires "c" 2 35 ⟨⟨by decide, by decide⟩, by decide +kernel⟩
  rw [live] at counted
  have isAdmitted : admitted = true := counted.mpr (by decide)
  rw [isAdmitted] at answer
  exact ⟨state, redis, execution, live, answer⟩

end FleetPrivacy
