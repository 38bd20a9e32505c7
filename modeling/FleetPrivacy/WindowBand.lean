import FleetPrivacy.Library.AdditiveIncrease
import FleetPrivacy.RedisKeys
import FleetPrivacy.SharedWindow

/-!
# Where the shared window settles

All clients of a tenant and source move one window, by a step after a call that
went well and by the decrease ratio after one that failed or was slow.  If the
source carries every load up to one mark and no load above another, the window
settles around the two, whoever reports and in whatever order.  The arithmetic
of the script is that of exact rationals, as in the definitions it rests on.
-/

namespace FleetPrivacy

open Transition

namespace SharedWindow

variable (window : SharedWindow)

/-- The AIMD step of the clients' parameters. -/
def rule : AdditiveIncrease.Rule :=
  { least := window.minimum
    most := window.maximum
    step := window.additiveStep
    shrink := fun limit => ⌊(limit : Rat) * window.decreaseRatio⌋
    ordered := window.ordered
    grows := window.additive
    monotone := by
      intro first second order
      apply Int.floor_le_floor
      exact mul_le_mul_of_nonneg_right (Int.cast_le.mpr order) window.ratio.1
    shrinks := by
      intro limit above
      have positive := window.positive
      have nonnegative : (0 : Rat) ≤ limit := by
        exact_mod_cast (by omega : (0 : Int) ≤ limit)
      have floored := Int.floor_le_floor
        (mul_le_of_le_one_right nonnegative window.ratio.2)
      rwa [Int.floor_intCast] at floored }

theorem nextLimit_eq (defaultLimit limit : Int)
    (p95Seconds failureRate targetP95Seconds : Rat) :
    (window.arguments defaultLimit p95Seconds failureRate
        targetP95Seconds).nextLimit limit =
      window.rule.next
        (decide (0 < failureRate ∨ targetP95Seconds < p95Seconds)) limit := by
  unfold AimdArguments.nextLimit AdditiveIncrease.Rule.next
  by_cases overloaded : 0 < failureRate ∨ targetP95Seconds < p95Seconds
  · rw [decide_eq_true overloaded]
    exact if_pos overloaded
  · rw [decide_eq_false overloaded]
    exact if_neg overloaded

/-- A ratio below one takes at least one slot away. -/
theorem shrink_lt (strict : window.decreaseRatio < 1) (limit : Int)
    (above : window.minimum < limit) : window.rule.shrink limit < limit := by
  have positive := window.positive
  have isPositive : (0 : Rat) < limit := by
    exact_mod_cast (by omega : (0 : Int) < limit)
  exact Int.floor_lt.mpr (mul_lt_of_lt_one_right isPositive strict)

/-- The window that is stored. -/
def current (state : WindowState) : Option Int :=
  (state.redis.get state.clock window.key).bind id

end SharedWindow

/-- What an `adjust` reports. -/
def WindowAction.answer : WindowAction → Option Bool
  | .adjust _ p95Seconds failureRate targetP95Seconds =>
      some (decide (0 < failureRate ∨ targetP95Seconds < p95Seconds))
  | .acquire _ _ _ | .release _ | .elapse _ => none

def answers (actions : List WindowAction) : List Bool :=
  actions.filterMap WindowAction.answer

namespace SharedWindow

/-- Loads up to `low` go well and loads above `high` do not; reports come often
enough for the window not to expire. -/
def Responsive (window : SharedWindow) (low high : Int) (state : WindowState)
    (action : WindowAction) : Prop :=
  (∀ overloaded ∈ action.answer, ∀ limit ∈ window.current state,
    (limit ≤ low → overloaded = false) ∧
      (high < limit → overloaded = true)) ∧
  match action with
  | .elapse millis => window.current
      { state with clock := state.clock + millis } = window.current state
  | .adjust _ _ _ _ | .acquire _ _ _ | .release _ => True

instance (window : SharedWindow) (low high : Int) (state : WindowState)
    (action : WindowAction) :
    Decidable (window.Responsive low high state action) := by
  unfold Responsive
  cases action <;> infer_instance

section Step

variable {window : SharedWindow} {low high limit : Int}
  {state next : WindowState}

theorem current_eq_some :
    window.current state = some limit ↔
      state.redis.get state.clock window.key = some (some limit) := by
  unfold current
  cases state.redis.get state.clock window.key with
  | none => simp
  | some stored => simp

/-- Writing the slots leaves the window. -/
theorem current_write (entry : Option RedisEntry) :
    window.current { state with
      redis := state.redis.write window.inflightKey entry } =
      window.current state := by
  unfold current Redis.get
  rw [Redis.read_write_of_ne window.key_ne_inflightKey]

theorem current_keepMembers (members : List (String × Int)) :
    window.current { state with
      redis := state.redis.keepMembers window.inflightKey members } =
      window.current state := by
  obtain ⟨entry, written, _⟩ :=
    state.redis.keepMembers_eq_write window.inflightKey members
  rw [written, current_write]

/-- One step of any client. -/
theorem current_step {action : WindowAction}
    (shown : window.current state = some limit)
    (responsive : window.Responsive low high state action)
    (stepped : window.step state action = some next) :
    window.current next = some (match action.answer with
      | some overloaded => window.rule.next overloaded limit
      | none => limit) := by
  cases action with
  | adjust defaultLimit p95Seconds failureRate targetP95Seconds =>
      obtain ⟨⟨redis, before, after⟩, script, rfl⟩ :=
        Option.map_eq_some_iff.mp stepped
      have accepted : 0 < window.shared.ttlSeconds := by
        by_contra zero
        obtain ⟨_, _, stored⟩ := Option.bind_eq_some_iff.mp script
        rw [if_pos (by omega)] at stored
        cases stored
      rw [RedisAimdState.adjust_eq (current_eq_some.mp shown) accepted]
        at script
      cases script
      rw [current_eq_some]
      have later : state.clock <
          state.clock + window.shared.ttlSeconds * 1000 := by
        omega
      unfold Redis.get Redis.read SharedWindow.key
      rw [Redis.entries_write_self]
      simp only [if_pos later, WindowAction.answer, Option.getD_some,
        nextLimit_eq]
  | acquire holder defaultLimit leaseSeconds =>
      obtain ⟨⟨redis, admitted, before⟩, script, rfl⟩ :=
        Option.map_eq_some_iff.mp stepped
      obtain ⟨members, _, refused | granted⟩ := redisAdmission_cases script
      · obtain ⟨_, rfl⟩ := refused
        exact (current_keepMembers _).trans shown
      · obtain ⟨_, _, rfl⟩ := granted
        exact (current_write _).trans shown
  | release holder =>
      obtain ⟨redis, script, rfl⟩ := Option.map_eq_some_iff.mp stepped
      obtain ⟨members, _, written⟩ := Option.bind_eq_some_iff.mp script
      cases written
      exact (current_keepMembers _).trans shown
  | elapse millis =>
      cases stepped
      exact responsive.2.trans shown

/-- A run answers the rule. -/
theorem current_follow {actions : List WindowAction}
    (shown : window.current state = some limit)
    (execution : Runs window.step (window.Responsive low high) state actions
      next) :
    window.rule.Answers low high (answers actions) limit ∧
      window.current next = some (window.rule.follow (answers actions)
        limit) := by
  induction execution generalizing limit with
  | nil => exact ⟨trivial, shown⟩
  | @cons start middle finish action actions responsive stepped _ induction =>
      have after := current_step shown responsive stepped
      cases answer : action.answer with
      | none =>
          rw [answer] at after
          have rest := induction after
          unfold answers at rest ⊢
          rw [List.filterMap_cons_none answer]
          exact rest
      | some overloaded =>
          rw [answer] at after
          obtain ⟨answered, final⟩ := induction after
          obtain ⟨carried, refused⟩ := responsive.1 overloaded answer limit
            shown
          unfold answers at answered final ⊢
          rw [List.filterMap_cons_some answer]
          exact ⟨⟨carried, refused, answered⟩, final⟩

end Step

end SharedWindow

/-- From any state that the clients of an unused scope reach: after as many
reports as the window is away from the band, it is in the band and stays there;
and every overload is paid for by reports that went well. -/
theorem shared_window_settles (window : SharedWindow)
    (strict : window.decreaseRatio < 1) {low high limit : Int}
    {initial start middle finish : WindowState}
    {past settling later : List WindowAction}
    (unused : window.Unused initial)
    (before : Runs window.step window.Allowed initial past start)
    (shown : window.current start = some limit)
    (warmup : Runs window.step (window.Responsive low high) start settling
      middle)
    (risen : window.rule.floor low ≤
      limit + window.additiveStep * (answers settling).length)
    (fallen : limit ≤
      window.rule.ceiling high + (answers settling).length)
    (steady : Runs window.step (window.Responsive low high) middle later
      finish) :
    ∃ final, window.current finish = some final ∧
      window.rule.floor low ≤ final ∧ final ≤ window.rule.ceiling high ∧
      (low + 1 - max window.minimum (window.rule.shrink
          (window.rule.ceiling high))) * (answers later).countP id ≤
        window.rule.ceiling high - window.rule.floor low +
          window.additiveStep * (answers later).countP not := by
  have inside : window.minimum ≤ limit := by
    obtain ⟨stored, isStored, inRange⟩ := (unused.agrees_run before).get
    rw [SharedWindow.current_eq_some.mp shown] at isStored
    cases isStored
    exact (inRange limit rfl).1
  obtain ⟨answered, middleShown⟩ := SharedWindow.current_follow shown warmup
  obtain ⟨above, below⟩ := AdditiveIncrease.Rule.follow_settles
    (window.shrink_lt strict) answered inside risen fallen
  have middleInside : window.rule.least ≤
      window.rule.follow (answers settling) limit :=
    AdditiveIncrease.Rule.least_le_follow (answers settling) inside
  obtain ⟨answeredLater, finishShown⟩ :=
    SharedWindow.current_follow middleShown steady
  obtain ⟨finalAbove, finalBelow⟩ := AdditiveIncrease.Rule.follow_mem_band
    answeredLater middleInside above below
  have paid := AdditiveIncrease.Rule.overloads_le answeredLater middleInside
    above below
  refine ⟨_, finishShown, finalAbove, finalBelow, ?_⟩
  simp only [SharedWindow.rule] at *
  omega

/-! A source that carries ten calls: two reports lift a young window into the
band, four more lead to an overload. -/

theorem settlingWindow_positive : (1 : Int) ≤ 1 := by decide

theorem settlingWindow_ordered : (1 : Int) ≤ 64 := by decide

theorem settlingWindow_additive : (0 : Int) ≤ 1 := by decide

theorem settlingWindow_ratio :
    0 ≤ (65 / 100 : Rat) ∧ (65 / 100 : Rat) ≤ 1 := by
  decide +kernel

def settlingWindow : SharedWindow :=
  { shared := .create "privacy:aimd" 900, tenantId := "t", source := "jobs"
    minimum := 1, maximum := 64, additiveStep := 1, decreaseRatio := 65 / 100
    positive := settlingWindow_positive
    ordered := settlingWindow_ordered
    additive := settlingWindow_additive
    ratio := settlingWindow_ratio }

def goodReport : WindowAction :=
  .adjust 4 (1 / 2) 0 (4 / 5)

def slowReport : WindowAction :=
  .adjust 4 1 0 (4 / 5)

theorem window_settles_around_ten :
    ∃ finish final, settlingWindow.current finish = some final ∧
      7 ≤ final ∧ final ≤ 11 := by
  have evaluated : ((run settlingWindow.step settlingWindow.Allowed ⟨.empty, 0⟩
      [goodReport]).bind fun start =>
        (run settlingWindow.step (settlingWindow.Responsive 10 10) start
          [goodReport, .acquire "a" 4 35, goodReport]).bind fun middle =>
        (run settlingWindow.step (settlingWindow.Responsive 10 10) middle
          [goodReport, .elapse 1000, goodReport, .release "a", goodReport,
            goodReport, slowReport]).map fun finish =>
        (settlingWindow.current start, settlingWindow.current finish)) =
      some (some 5, some 7) := by
    decide +kernel
  obtain ⟨start, first, rest⟩ := Option.bind_eq_some_iff.mp evaluated
  obtain ⟨middle, second, rest⟩ := Option.bind_eq_some_iff.mp rest
  obtain ⟨finish, third, columns⟩ := Option.map_eq_some_iff.mp rest
  obtain ⟨final, shown, above, below, _⟩ := shared_window_settles
    settlingWindow (by decide +kernel) ⟨rfl, rfl⟩ (runs_of_run first)
    (congrArg Prod.fst columns) (runs_of_run second) (by decide +kernel)
    (by decide +kernel) (runs_of_run third)
  have seven : settlingWindow.rule.floor 10 = 7 := by decide +kernel
  have eleven : settlingWindow.rule.ceiling 10 = 11 := by decide +kernel
  rw [seven] at above
  rw [eleven] at below
  exact ⟨finish, final, shown, above, below⟩

end FleetPrivacy
