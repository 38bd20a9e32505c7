import Mathlib.Algebra.BigOperators.Group.List.Basic
import Mathlib.Algebra.Ring.Nat
import Mathlib.Data.List.Basic

/-!
# Labelled transition systems with a partial step function

A system is a function `step : σ → α → Option σ`: an action is either enabled
and has one result, or disabled.  Nondeterminism lives in the choice of the
actions.  `Runs step allowed` are the runs all of whose steps satisfy a
condition on the state before the step and the action taken; an unrestricted
system uses `Always`.
-/

namespace Transition

universe u v w

variable {σ : Type u} {α : Type v}

/-- The condition that excludes no step. -/
def Always (_state : σ) (_action : α) : Prop := True

/-- `Runs step allowed start actions finish`: the actions lead from `start` to
`finish`, and every step on the way satisfies `allowed`. -/
inductive Runs (step : σ → α → Option σ) (allowed : σ → α → Prop) :
    σ → List α → σ → Prop where
  | nil (state : σ) : Runs step allowed state [] state
  | cons {start middle finish : σ} {action : α} {actions : List α} :
      allowed start action →
      step start action = some middle →
      Runs step allowed middle actions finish →
      Runs step allowed start (action :: actions) finish

/-- Executable counterpart of `Runs` for a decidable condition. -/
def run (step : σ → α → Option σ) (allowed : σ → α → Prop)
    [∀ state action, Decidable (allowed state action)] :
    σ → List α → Option σ
  | state, [] => some state
  | state, action :: actions =>
      if allowed state action then
        match step state action with
        | some next => run step allowed next actions
        | none => none
      else none

instance (state : σ) (action : α) : Decidable (Always state action) :=
  .isTrue trivial

section Runs

variable {step : σ → α → Option σ} {allowed : σ → α → Prop}

theorem runs_of_run [∀ state action, Decidable (allowed state action)]
    {start finish : σ} {actions : List α}
    (result : run step allowed start actions = some finish) :
    Runs step allowed start actions finish := by
  induction actions generalizing start with
  | nil =>
      cases result
      exact .nil _
  | cons action actions induction =>
      simp only [run] at result
      split at result
      next permitted =>
        split at result
        next next stepped => exact .cons permitted stepped (induction result)
        next => cases result
      next => cases result

namespace Runs

/-- A run under one condition is a run under a weaker one. -/
theorem weaken {weaker : σ → α → Prop}
    (implied : ∀ state action, allowed state action → weaker state action)
    {start finish : σ} {actions : List α}
    (execution : Runs step allowed start actions finish) :
    Runs step weaker start actions finish := by
  induction execution with
  | nil state => exact .nil state
  | cons permitted stepped _ induction =>
      exact .cons (implied _ _ permitted) stepped induction

/-- A property that every permitted step preserves holds at the end of every
run that starts in it. -/
theorem invariant {property : σ → Prop}
    (preserved : ∀ {state action next}, property state →
      allowed state action → step state action = some next → property next)
    {start finish : σ} {actions : List α}
    (execution : Runs step allowed start actions finish)
    (initially : property start) : property finish := by
  induction execution with
  | nil => exact initially
  | cons permitted stepped _ induction =>
      exact induction (preserved initially permitted stepped)

/-- A reflexive and transitive relation that every permitted step satisfies,
from states with an invariant, relates both ends of every run. -/
theorem related {property : σ → Prop} {relation : σ → σ → Prop}
    (reflexive : ∀ state, relation state state)
    (transitive : ∀ {first second third}, relation first second →
      relation second third → relation first third)
    (preserved : ∀ {state action next}, property state →
      allowed state action → step state action = some next →
      property next ∧ relation state next)
    {start finish : σ} {actions : List α}
    (execution : Runs step allowed start actions finish)
    (initially : property start) : relation start finish := by
  induction execution with
  | nil state => exact reflexive state
  | cons permitted stepped _ induction =>
      obtain ⟨next, related⟩ := preserved initially permitted stepped
      exact transitive related (induction next)

/-- Steps of one kind lower a measure that no step raises: a run has at most as
many of them as the measure of its start. -/
theorem countP_add_le {property : σ → Prop} (measure : σ → Nat)
    (counted : α → Bool)
    (preserved : ∀ {state action next}, property state →
      allowed state action → step state action = some next →
      property next ∧
        (if counted action then 1 else 0) + measure next ≤ measure state)
    {start finish : σ} {actions : List α}
    (execution : Runs step allowed start actions finish)
    (initially : property start) :
    actions.countP counted + measure finish ≤ measure start := by
  induction execution with
  | nil state => simp
  | cons permitted stepped _ induction =>
      obtain ⟨next, lowered⟩ := preserved initially permitted stepped
      have later := induction next
      rw [List.countP_cons]
      omega

/-- A run can go on. -/
theorem append {start middle finish : σ} {before after : List α}
    (first : Runs step allowed start before middle)
    (second : Runs step allowed middle after finish) :
    Runs step allowed start (before ++ after) finish := by
  induction first with
  | nil => exact second
  | cons permitted stepped _ induction =>
      exact .cons permitted stepped (induction second)

end Runs

/-- Some run leads from one state to the other. -/
def Reaches (step : σ → α → Option σ) (allowed : σ → α → Prop)
    (start finish : σ) : Prop :=
  ∃ actions, Runs step allowed start actions finish

namespace Reaches

theorem refl (state : σ) : Reaches step allowed state state :=
  ⟨[], .nil state⟩

theorem single {start finish : σ} {action : α}
    (permitted : allowed start action)
    (stepped : step start action = some finish) :
    Reaches step allowed start finish :=
  ⟨[action], .cons permitted stepped (.nil finish)⟩

theorem trans {start middle finish : σ}
    (first : Reaches step allowed start middle)
    (second : Reaches step allowed middle finish) :
    Reaches step allowed start finish := by
  obtain ⟨before, firstRun⟩ := first
  obtain ⟨after, secondRun⟩ := second
  exact ⟨before ++ after, firstRun.append secondRun⟩

theorem invariant {property : σ → Prop}
    (preserved : ∀ {state action next}, property state →
      allowed state action → step state action = some next → property next)
    {start finish : σ} (reaches : Reaches step allowed start finish)
    (initially : property start) : property finish := by
  obtain ⟨actions, execution⟩ := reaches
  exact execution.invariant preserved initially

end Reaches

end Runs

section History

variable {ε : Type w}

/-- Everything an observer records along a run: `observe` says what one step
shows, from the state before it. -/
def history (step : σ → α → Option σ) (observe : σ → α → List ε) :
    σ → List α → List ε
  | _, [] => []
  | state, action :: actions =>
      observe state action ++
        match step state action with
        | some next => history step observe next actions
        | none => []

variable {step : σ → α → Option σ} {allowed : σ → α → Prop}
  {observe : σ → α → List ε}

/-- What is recorded along a run that goes on. -/
theorem Runs.history_append {start middle : σ} {before : List α}
    (execution : Runs step allowed start before middle) (after : List α) :
    history step observe start (before ++ after) =
      history step observe start before ++
        history step observe middle after := by
  induction execution with
  | nil => rfl
  | cons _ stepped _ induction =>
      simp only [List.cons_append, history, stepped, induction,
        List.append_assoc]

/-- An observer that shows less. -/
theorem history_map {γ : Type*} (shown : ε → γ) (start : σ)
    (actions : List α) :
    history step (fun state action => (observe state action).map shown) start
        actions =
      (history step observe start actions).map shown := by
  induction actions generalizing start with
  | nil => rfl
  | cons action actions induction =>
      rw [history, history, List.map_append]
      cases step start action with
      | none => rfl
      | some next =>
          exact congrArg ((observe start action).map shown ++ ·)
            (induction next)

/-- The rule for invariants that speak about the past: what was recorded so
far is an argument of the property. -/
theorem Runs.invariant_with_history {property : List ε → σ → Prop}
    (preserved : ∀ {past state action next}, property past state →
      allowed state action → step state action = some next →
      property (past ++ observe state action) next)
    {start finish : σ} {actions : List α}
    (execution : Runs step allowed start actions finish) {past : List ε}
    (initially : property past start) :
    property (past ++ history step observe start actions) finish := by
  induction execution generalizing past with
  | nil => simpa [history] using initially
  | cons permitted stepped _ induction =>
      have later := induction (preserved initially permitted stepped)
      simpa [history, stepped] using later

end History

/-! ## Processes in fixed slots

The local states of the parties are kept in a list; a step of party `index`
overwrites its slot. -/

section Slots

variable {β : Type w}

theorem getElem?_set_slot {slots : List β} {index : Nat} {old : β}
    (occupied : slots[index]? = some old) (new : β) (other : Nat) :
    (slots.set index new)[other]? =
      if other = index then some new else slots[other]? := by
  have bound : index < slots.length := by
    by_contra outside
    rw [List.getElem?_eq_none (Nat.le_of_not_lt outside)] at occupied
    cases occupied
  by_cases same : other = index
  · subst same
    simp [bound]
  · simp [same, List.getElem?_set_ne (Ne.symm same)]

theorem getElem?_append_slot (slots : List β) (new : β) (other : Nat) :
    (slots ++ [new])[other]? =
      if other = slots.length then some new else slots[other]? := by
  rcases Nat.lt_trichotomy other slots.length with before | same | after
  · simp [List.getElem?_append_left before, Nat.ne_of_lt before]
  · simp [same]
  · have beyond : slots[other]? = none :=
      List.getElem?_eq_none (Nat.le_of_lt after)
    have outside : (slots ++ [new])[other]? = none :=
      List.getElem?_eq_none (by simp; omega)
    simp [beyond, outside, Nat.ne_of_gt after]

/-- A step that keeps what `column` reads of a party. -/
theorem map_set_slot {γ : Type u} {slots : List β} {index : Nat} {old new : β}
    (occupied : slots[index]? = some old) (column : β → γ)
    (same : column new = column old) :
    (slots.set index new).map column = slots.map column := by
  apply List.ext_getElem?
  intro other
  rw [List.getElem?_map, List.getElem?_map, getElem?_set_slot occupied]
  split
  next here => rw [here, occupied, Option.map_some, Option.map_some, same]
  next => rfl

/-- The weight of one slot changes. -/
theorem sum_map_set_slot {slots : List β} {index : Nat} {old : β}
    (occupied : slots[index]? = some old) (new : β) (weight : β → Nat) :
    ((slots.set index new).map weight).sum + weight old =
      (slots.map weight).sum + weight new := by
  induction slots generalizing index with
  | nil => cases occupied
  | cons first slots induction =>
      cases index with
      | zero =>
          cases occupied
          simp only [List.set_cons_zero, List.map_cons, List.sum_cons]
          omega
      | succ index =>
          have tail := induction occupied
          simp only [List.set_cons_succ, List.map_cons, List.sum_cons]
          omega

theorem countP_set_slot {slots : List β} {index : Nat} {old : β}
    (occupied : slots[index]? = some old) (new : β) (counted : β → Bool) :
    (slots.set index new).countP counted + (if counted old then 1 else 0) =
      slots.countP counted + (if counted new then 1 else 0) := by
  obtain ⟨bound, rfl⟩ := List.getElem?_eq_some_iff.mp occupied
  have present : counted slots[index] = true → 0 < slots.countP counted :=
    fun hit => List.countP_pos_iff.mpr ⟨_, List.getElem_mem bound, hit⟩
  rw [List.countP_set bound]
  split
  next hit =>
    have positive := present hit
    omega
  next => omega

/-- At most one slot is counted. -/
theorem countP_le_one_of_unique {slots : List β} {counted : β → Bool}
    (unique : ∀ (first second : Nat) (left right : β),
      slots[first]? = some left → slots[second]? = some right →
      counted left = true → counted right = true → first = second) :
    slots.countP counted ≤ 1 := by
  induction slots with
  | nil => exact Nat.zero_le 1
  | cons slot slots induction =>
      by_cases hit : counted slot = true
      · have none : slots.countP counted = 0 := by
          rw [List.countP_eq_zero]
          intro other member counts
          obtain ⟨position, located⟩ := List.getElem?_of_mem member
          have same := unique 0 (position + 1) slot other rfl located hit counts
          omega
        rw [List.countP_cons_of_pos hit]
        omega
      · rw [List.countP_cons_of_neg hit]
        apply induction
        intro first second left right atFirst atSecond leftHit rightHit
        have same := unique (first + 1) (second + 1) left right atFirst atSecond
          leftHit rightHit
        omega

/-- A total is bounded by another one and two counts if each weight is. -/
theorem sum_map_le_add_countP {slots : List β} {weight bound : β → Nat}
    {first second : β → Bool}
    (each : ∀ slot ∈ slots, weight slot ≤ bound slot +
      (if first slot then 1 else 0) + (if second slot then 1 else 0)) :
    (slots.map weight).sum ≤
      (slots.map bound).sum + slots.countP first + slots.countP second := by
  induction slots with
  | nil => exact Nat.le_refl 0
  | cons slot slots induction =>
      have head := each slot List.mem_cons_self
      have tail := induction fun other member =>
        each other (List.mem_cons_of_mem slot member)
      simp only [List.map_cons, List.sum_cons, List.countP_cons]
      omega

end Slots

end Transition
