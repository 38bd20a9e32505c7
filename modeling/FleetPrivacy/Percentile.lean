import FleetPrivacy.AdaptiveConcurrency
import FleetPrivacy.Library.Quantile
import Mathlib.Data.List.GetD

/-!
# The percentile of the observed latencies

`percentile` sorts a copy and picks the entry at the nearest rank.  Up to the
whole list the two clamps only matter for an empty one, and the entry is the
quantile for `n * fraction` of the values.
-/

namespace FleetPrivacy

open Quantile

variable {α : Type} [LinearOrder α] [Zero α]

theorem percentile_perm {left right : List α} (same : left.Perm right)
    (fraction : Rat) : percentile left fraction = percentile right fraction := by
  have sorted : left.insertionSort (· ≤ ·) = right.insertionSort (· ≤ ·) := by
    apply List.Perm.eq_of_sortedLE List.sortedLE_insertionSort
      List.sortedLE_insertionSort
    exact (List.perm_insertionSort _ left).trans
      (same.trans (List.perm_insertionSort _ right).symm)
  unfold percentile
  rw [sorted]

/-- Where `percentile` looks in the sorted copy. -/
theorem percentile_position {length : Nat} (positive : 0 < length)
    {fraction : Rat} (above : 0 < fraction) (atMost : fraction ≤ 1) :
    ∃ index : Nat, index < length ∧
      min (⌈(length : Rat) * fraction⌉ - 1) ((length : Int) - 1) = index ∧
      (index : Rat) < length * fraction ∧
      (length : Rat) * fraction ≤ (index : Rat) + 1 := by
  have lengthPositive : (0 : Rat) < length := by exact_mod_cast positive
  have demandPositive : (0 : Rat) < length * fraction :=
    mul_pos lengthPositive above
  have demandWithin : (length : Rat) * fraction ≤ length :=
    mul_le_of_le_one_right lengthPositive.le atMost
  have first : 0 < ⌈(length : Rat) * fraction⌉ := Int.ceil_pos.mpr demandPositive
  have last : ⌈(length : Rat) * fraction⌉ ≤ (length : Int) :=
    Int.ceil_le.mpr (by exact_mod_cast demandWithin)
  obtain ⟨index, located⟩ := Int.eq_ofNat_of_zero_le (Int.le_sub_one_of_lt first)
  refine ⟨index, by omega, by omega, ?_, ?_⟩
  · have before : (index : Int) < ⌈(length : Rat) * fraction⌉ := by omega
    exact_mod_cast Int.lt_ceil.mp before
  · have reached : ⌈(length : Rat) * fraction⌉ ≤ (index : Int) + 1 := by omega
    exact_mod_cast Int.ceil_le.mp reached

/-- `percentile` is one of the values and their quantile. -/
theorem percentile_spec {values : List α} (observed : values ≠ [])
    {fraction : Rat} (above : 0 < fraction) (atMost : fraction ≤ 1) :
    percentile values fraction ∈ values ∧
      IsQuantile values (values.length * fraction)
        (percentile values fraction) := by
  have sorted := List.pairwise_insertionSort (· ≤ ·) values
  have same := List.perm_insertionSort (· ≤ ·) values
  have sameLength := same.length_eq
  obtain ⟨index, inside, located, before, reached⟩ :=
    percentile_position (List.length_pos_iff.mpr observed) above atMost
  have inOrdered : index < (values.insertionSort (· ≤ ·)).length := by
    rw [sameLength]
    exact inside
  have picked : percentile values fraction =
      (values.insertionSort (· ≤ ·))[index] := by
    simp only [percentile, sameLength, located, Int.toNat_natCast]
    exact List.getD_eq_getElem _ 0 inOrdered
  rw [picked]
  constructor
  · exact same.mem_iff.mp (List.getElem_mem inOrdered)
  · exact (IsQuantile.of_sorted sorted inOrdered before reached).perm same

/-- A larger fraction of larger values has a larger percentile. -/
theorem percentile_le_percentile {values raised : List α}
    (larger : List.Forall₂ (· ≤ ·) values raised) (observed : values ≠ [])
    {fraction more : Rat} (above : 0 < fraction) (le : fraction ≤ more)
    (atMost : more ≤ 1) :
    percentile values fraction ≤ percentile raised more := by
  have raisedObserved : raised ≠ [] := by
    rintro rfl
    cases larger
    exact observed rfl
  obtain ⟨_, quantile⟩ := percentile_spec observed above (le.trans atMost)
  obtain ⟨_, raisedQuantile⟩ :=
    percentile_spec raisedObserved (above.trans_le le) atMost
  apply quantile.le_of_raised raisedQuantile _ larger
  rw [← larger.length_eq]
  exact mul_le_mul_of_nonneg_left le (Nat.cast_nonneg _)

/-- The nearest-rank quantile. -/
theorem percentile_nearestRank (values : List α) (observed : values ≠ [])
    (fraction : Rat) (above : 0 < fraction) (atMost : fraction ≤ 1) :
    percentile values fraction ∈ values ∧
      (values.length * fraction ≤
        (values.countP fun value =>
          decide (value ≤ percentile values fraction) : Nat)) ∧
      (∀ bound, bound < percentile values fraction →
        ((values.countP fun value => decide (value ≤ bound) : Nat) : Rat) <
          values.length * fraction) ∧
      (∀ other, values.Perm other →
        percentile other fraction = percentile values fraction) ∧
      (∀ more, fraction ≤ more → more ≤ 1 →
        percentile values fraction ≤ percentile values more) ∧
      ∀ (position : Nat) (inside : position < values.length) (value : α),
        values[position] ≤ value →
        percentile values fraction ≤
          percentile (values.set position value) fraction := by
  obtain ⟨member, quantile⟩ := percentile_spec observed above atMost
  refine ⟨member, quantile.attained, ?_, ?_, ?_, ?_⟩
  · intro bound below
    exact quantile.missed below
  · intro other same
    exact (percentile_perm same fraction).symm
  · intro more le within
    have same : List.Forall₂ (· ≤ ·) values values :=
      List.forall₂_same.mpr fun value _ => le_refl value
    exact percentile_le_percentile same observed above le within
  · intro position inside value increased
    exact percentile_le_percentile (forall₂_set inside increased) observed
      above (le_refl fraction) atMost

theorem percentile_nearestRank_four :
    percentile [3, 1, 2, (2 : Int)] (3 / 4) ∈ [3, 1, 2, (2 : Int)] := by
  obtain ⟨member, _⟩ := percentile_nearestRank [3, 1, 2, (2 : Int)]
    (List.cons_ne_nil _ _) (3 / 4) (by norm_num) (by norm_num)
  exact member

/-! ## The controller's decision -/

namespace AimdConcurrencyController

/-- The latency is over its target when less than 95% of the samples keep it. -/
theorem overloaded_iff (controller : AimdConcurrencyController)
    (observed : controller.latencies ≠ []) :
    controller.targetP95Seconds <
        percentile controller.latencies (95 / 100) ↔
      (rank controller.latencies controller.targetP95Seconds : Rat) <
        controller.latencies.length * (95 / 100) := by
  have above : (0 : Rat) < 95 / 100 := by norm_num
  have atMost : (95 / 100 : Rat) ≤ 1 := by norm_num
  obtain ⟨_, quantile⟩ := percentile_spec observed above atMost
  rw [← not_le, quantile controller.targetP95Seconds, not_le]

end AimdConcurrencyController

end FleetPrivacy
