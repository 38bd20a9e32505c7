import Mathlib.Data.List.Sort
import Mathlib.Data.Rat.Floor

/-!
# Quantiles of finite lists

The quantile for a demand is the least bound that so many of the values obey.
Said as an equivalence between bounds and counts, this determines the value,
and every order property of quantiles is one of the counts.
-/

namespace Quantile

universe u

variable {α : Type u} [LinearOrder α]

/-- How many of the values are at most a bound. -/
def rank (values : List α) (bound : α) : Nat :=
  values.countP fun value => decide (value ≤ bound)

/-- The least bound that at least `demand` of the values obey. -/
def IsQuantile (values : List α) (demand : Rat) (quantile : α) : Prop :=
  ∀ bound, quantile ≤ bound ↔ demand ≤ (rank values bound : Rat)

/-! ## Counts -/

/-- Increasing one value of a list. -/
theorem forall₂_set {values : List α} {position : Nat}
    (inside : position < values.length) {value : α}
    (increased : values[position] ≤ value) :
    List.Forall₂ (· ≤ ·) values (values.set position value) := by
  apply List.forall₂_iff_get.mpr
  refine ⟨List.length_set.symm, ?_⟩
  intro index before _
  rw [List.get_eq_getElem, List.get_eq_getElem, List.getElem_set]
  split
  next same =>
    subst same
    exact increased
  next => exact le_refl _

theorem rank_perm {values other : List α} (same : values.Perm other)
    (bound : α) : rank values bound = rank other bound :=
  same.countP_eq _

theorem rank_cons_of_le {head bound : α} (within : head ≤ bound)
    (tail : List α) : rank (head :: tail) bound = rank tail bound + 1 := by
  simp [rank, within]

theorem rank_cons_of_lt {head bound : α} (beyond : bound < head)
    (tail : List α) : rank (head :: tail) bound = rank tail bound := by
  simp [rank, beyond]

/-- Raising values can only take them out of a bound. -/
theorem rank_raised {values raised : List α}
    (larger : List.Forall₂ (· ≤ ·) values raised) (bound : α) :
    rank raised bound ≤ rank values bound := by
  induction larger with
  | nil => exact Nat.le_refl 0
  | @cons value more values raised le _ induction =>
      rcases le_or_gt more bound with within | beyond
      · rw [rank_cons_of_le within, rank_cons_of_le (le.trans within)]
        exact Nat.succ_le_succ induction
      · rw [rank_cons_of_lt beyond]
        apply induction.trans
        rcases le_or_gt value bound with inside | outside
        · rw [rank_cons_of_le inside]
          exact Nat.le_succ _
        · rw [rank_cons_of_lt outside]

theorem rank_eq_zero {values : List α} {bound : α}
    (beyond : ∀ value ∈ values, bound < value) : rank values bound = 0 := by
  apply List.countP_eq_zero.mpr
  intro value member
  simpa using beyond value member

/-- In a sorted list the values within a bound come first. -/
theorem getElem_le_iff {values : List α} (sorted : values.Pairwise (· ≤ ·))
    {index : Nat} (inside : index < values.length) (bound : α) :
    values[index] ≤ bound ↔ index < rank values bound := by
  induction values generalizing index with
  | nil => cases inside
  | cons head tail induction =>
      obtain ⟨least, tailSorted⟩ := List.pairwise_cons.mp sorted
      rcases le_or_gt head bound with within | beyond
      · rw [rank_cons_of_le within]
        cases index with
        | zero => simpa using within
        | succ index =>
            have inTail : index < tail.length := Nat.lt_of_succ_lt_succ inside
            have later := induction tailSorted inTail
            simpa using later
      · have none : rank (head :: tail) bound = 0 := by
          apply rank_eq_zero
          intro value member
          rcases List.mem_cons.mp member with rfl | inTail
          · exact beyond
          · exact beyond.trans_le (least value inTail)
        have above : bound < (head :: tail)[index] := by
          cases index with
          | zero => exact beyond
          | succ index => exact beyond.trans_le (least _ (List.getElem_mem _))
        rw [none]
        constructor
        · intro within
          exact absurd within (not_le_of_gt above)
        · intro counted
          exact absurd counted (Nat.not_lt_zero index)

/-! ## Quantiles -/

namespace IsQuantile

variable {values other : List α} {demand higher : Rat} {quantile another : α}

theorem attained (least : IsQuantile values demand quantile) :
    demand ≤ (rank values quantile : Rat) :=
  (least quantile).mp (le_refl quantile)

theorem missed (least : IsQuantile values demand quantile) {bound : α}
    (below : bound < quantile) : (rank values bound : Rat) < demand := by
  apply lt_of_not_ge
  intro enough
  exact absurd ((least bound).mpr enough) (not_le_of_gt below)

theorem perm (least : IsQuantile values demand quantile)
    (same : values.Perm other) : IsQuantile other demand quantile := by
  intro bound
  rw [← rank_perm same]
  exact least bound

/-- A higher demand and larger values give a larger quantile. -/
theorem le_of_raised (least : IsQuantile values demand quantile)
    (also : IsQuantile other higher another) (more : demand ≤ higher)
    (larger : List.Forall₂ (· ≤ ·) values other) : quantile ≤ another := by
  apply (least another).mpr
  calc demand
      ≤ higher := more
    _ ≤ (rank other another : Rat) := also.attained
    _ ≤ (rank values another : Rat) := by
        exact_mod_cast rank_raised larger another

/-- The nearest rank: the entry of the sorted list where the demand is met. -/
theorem of_sorted (sorted : values.Pairwise (· ≤ ·)) {index : Nat}
    (inside : index < values.length) (before : (index : Rat) < demand)
    (reached : demand ≤ (index : Rat) + 1) :
    IsQuantile values demand values[index] := by
  intro bound
  rw [getElem_le_iff sorted inside]
  constructor
  · intro counted
    apply reached.trans
    exact_mod_cast Nat.succ_le_of_lt counted
  · intro enough
    exact_mod_cast before.trans_le enough

end IsQuantile

end Quantile
