import Mathlib.Algebra.Order.Group.Int
import Mathlib.Data.List.Basic

/-!
# Additive increase, multiplicative decrease

A window grows by a step as long as its load is answered and shrinks when it is
overloaded.  If there is no overload up to `low` and always one above `high`,
the window enters a band around these two marks and stays there, and every
overload is paid for by increases.
-/

namespace AdditiveIncrease

structure Rule where
  least : Int
  most : Int
  step : Int
  shrink : Int → Int
  ordered : least ≤ most
  grows : 0 ≤ step
  monotone : ∀ first second, first ≤ second → shrink first ≤ shrink second
  shrinks : ∀ window, least ≤ window → shrink window ≤ window

namespace Rule

variable (rule : Rule)

def next (overloaded : Bool) (window : Int) : Int :=
  if overloaded then max rule.least (rule.shrink window)
  else min rule.most (window + rule.step)

/-- The window after successive answers. -/
def follow : List Bool → Int → Int
  | [], window => window
  | overloaded :: later, window => follow later (rule.next overloaded window)

/-- A load up to `low` is carried, one above `high` is not. -/
def Answers (low high : Int) : List Bool → Int → Prop
  | [], _ => True
  | overloaded :: later, window =>
      (window ≤ low → overloaded = false) ∧
        (high < window → overloaded = true) ∧
        Answers low high later (rule.next overloaded window)

/-- The least window that a decrease leaves. -/
def floor (low : Int) : Int :=
  min rule.most (max rule.least (rule.shrink (low + 1)))

/-- The largest window that an increase reaches. -/
def ceiling (high : Int) : Int :=
  max rule.least (min rule.most (high + rule.step))

variable {rule} {low high window : Int}

theorem next_of_overload (window : Int) :
    rule.next true window = max rule.least (rule.shrink window) :=
  rfl

theorem next_of_success (window : Int) :
    rule.next false window = min rule.most (window + rule.step) :=
  rfl

/-- One answer lifts the window to the floor of the band, or by a step. -/
theorem floor_le_next (rule : Rule) {overloaded : Bool}
    (carried : window ≤ low → overloaded = false) :
    min (rule.floor low) (window + rule.step) ≤
      rule.next overloaded window := by
  have ordered := rule.ordered
  cases overloaded with
  | true =>
      have above : low + 1 ≤ window := by
        by_contra below
        cases carried (by omega)
      have shrunk := rule.monotone _ _ above
      rw [next_of_overload, floor]
      omega
  | false =>
      rw [next_of_success, floor]
      omega

/-- One answer leaves the window at the ceiling of the band at most, or below
where it was. -/
theorem next_le_ceiling (rule : Rule) {overloaded : Bool}
    (refused : high < window → overloaded = true) :
    rule.next overloaded window ≤
      max (rule.ceiling high) (rule.shrink window) := by
  cases overloaded with
  | true =>
      rw [next_of_overload, ceiling]
      omega
  | false =>
      have below : window ≤ high := by
        by_contra above
        cases refused (by omega)
      rw [next_of_success, ceiling]
      omega

theorem least_le_next (overloaded : Bool) (inside : rule.least ≤ window) :
    rule.least ≤ rule.next overloaded window := by
  have ordered := rule.ordered
  have grows := rule.grows
  cases overloaded with
  | true =>
      rw [next_of_overload]
      omega
  | false =>
      rw [next_of_success]
      omega

theorem least_le_follow (answers : List Bool) (inside : rule.least ≤ window) :
    rule.least ≤ rule.follow answers window := by
  induction answers generalizing window with
  | nil => exact inside
  | cons overloaded later induction =>
      exact induction (least_le_next overloaded inside)

/-- The window rises to the band. -/
theorem floor_le_follow {answers : List Bool}
    (answered : rule.Answers low high answers window) :
    min (rule.floor low) (window + rule.step * answers.length) ≤
      rule.follow answers window := by
  have grows := rule.grows
  induction answers generalizing window with
  | nil =>
      rw [follow]
      simp
  | cons overloaded later induction =>
      obtain ⟨carried, _, rest⟩ := answered
      have one := rule.floor_le_next carried
      have more := induction rest
      have nonnegative : 0 ≤ rule.step * (later.length : Int) :=
        Int.mul_nonneg grows (Int.natCast_nonneg _)
      rw [follow, List.length_cons]
      rw [Int.natCast_succ, Int.mul_add, Int.mul_one]
      omega

/-- The window falls to the band. -/
theorem follow_le_ceiling (strict : ∀ window, rule.least < window →
      rule.shrink window < window) {answers : List Bool}
    (inside : rule.least ≤ window)
    (answered : rule.Answers low high answers window) :
    rule.follow answers window ≤
      max (rule.ceiling high) (window - answers.length) := by
  induction answers generalizing window with
  | nil =>
      rw [follow]
      simp
  | cons overloaded later induction =>
      obtain ⟨_, refused, rest⟩ := answered
      have one := rule.next_le_ceiling refused
      have more := induction (least_le_next overloaded inside) rest
      have lower : rule.least ≤ rule.ceiling high := by
        rw [ceiling]
        omega
      have falls : rule.shrink window ≤
          max (rule.ceiling high) (window - 1) := by
        by_cases above : rule.least < window
        · have less := strict window above
          omega
        · have same := rule.shrinks window inside
          omega
      rw [follow, List.length_cons, Int.natCast_succ]
      omega

/-- In the band the window stays in it. -/
theorem follow_mem_band {answers : List Bool}
    (answered : rule.Answers low high answers window)
    (inside : rule.least ≤ window) (above : rule.floor low ≤ window)
    (below : window ≤ rule.ceiling high) :
    rule.floor low ≤ rule.follow answers window ∧
      rule.follow answers window ≤ rule.ceiling high := by
  have grows := rule.grows
  induction answers generalizing window with
  | nil => exact ⟨above, below⟩
  | cons overloaded later induction =>
      obtain ⟨carried, refused, rest⟩ := answered
      have rises := rule.floor_le_next carried
      have falls := rule.next_le_ceiling refused
      have shrunk := rule.shrinks window inside
      apply induction rest (least_le_next overloaded inside)
      · omega
      · omega

/-- After as many answers as the window is away from it, the window is in the
band. -/
theorem follow_settles (strict : ∀ window, rule.least < window →
      rule.shrink window < window) {answers : List Bool}
    (answered : rule.Answers low high answers window)
    (inside : rule.least ≤ window)
    (risen : rule.floor low ≤ window + rule.step * answers.length)
    (fallen : window ≤ rule.ceiling high + answers.length) :
    rule.floor low ≤ rule.follow answers window ∧
      rule.follow answers window ≤ rule.ceiling high := by
  have rises := floor_le_follow answered
  have falls := follow_le_ceiling strict inside answered
  constructor
  · omega
  · omega

/-- Each overload takes at least `low + 1` down to what a decrease from the
ceiling leaves, and the increases in between make up for it. -/
theorem overloads_le {answers : List Bool}
    (answered : rule.Answers low high answers window)
    (inside : rule.least ≤ window) (above : rule.floor low ≤ window)
    (below : window ≤ rule.ceiling high) :
    (low + 1 - max rule.least (rule.shrink (rule.ceiling high))) *
          answers.countP id + rule.follow answers window ≤
      window + rule.step * answers.countP not := by
  have grows := rule.grows
  induction answers generalizing window with
  | nil =>
      rw [follow]
      simp
  | cons overloaded later induction =>
      obtain ⟨carried, refused, rest⟩ := answered
      have rises := rule.floor_le_next carried
      have falls := rule.next_le_ceiling refused
      have shrunk := rule.shrinks window inside
      have more := induction rest (least_le_next overloaded inside)
        (by omega) (by omega)
      rw [follow]
      cases overloaded with
      | true =>
          have loaded : low + 1 ≤ window := by
            by_contra small
            cases carried (by omega)
          have drop := rule.monotone _ _ below
          rw [next_of_overload] at more ⊢
          rw [List.countP_cons_of_pos rfl, List.countP_cons_of_neg (by simp),
            Int.natCast_succ, Int.mul_add, Int.mul_one]
          omega
      | false =>
          rw [next_of_success] at more ⊢
          rw [List.countP_cons_of_neg (by simp), List.countP_cons_of_pos rfl,
            Int.natCast_succ, Int.mul_add, Int.mul_one]
          omega

end Rule

end AdditiveIncrease
